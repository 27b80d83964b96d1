import Mathlib.Algebra.Group.Nat.Defs
import Mathlib.Tactic.Common

/-!
# Numbers in memory

A machine integer as the bytes it occupies, in the little-endian order of the host and in the
big-endian order of the network.  The two sides of a shared table write and read the same bytes
with different integer types, so each direction is needed:

* `ofLe16_le16`, `ofLe32_le32`: a number is read back from its bytes;
* `le16_ofLe16`, `le32_ofLe32`: bytes read as a number are written back unchanged.
-/

namespace Foundations.ByteOrder

abbrev Bytes (n : Nat) := Vector UInt8 n

def bytes (l : List UInt8) : Bytes l.length := ⟨l.toArray, rfl⟩

/-- The byte at a place, and zero beyond the end. -/
def nth {n : Nat} (b : Bytes n) (i : Nat) : UInt8 := if bound : i < n then b[i] else 0

def byte (n : Nat) : UInt8 := UInt8.ofNat (n % 256)

def le16 (n : UInt16) : Bytes 2 := #v[byte n.toNat, byte (n.toNat / 256)]

def be16 (n : UInt16) : Bytes 2 := #v[byte (n.toNat / 256), byte n.toNat]

def le32 (n : UInt32) : Bytes 4 :=
  #v[byte n.toNat, byte (n.toNat / 256), byte (n.toNat / 65536), byte (n.toNat / 16777216)]

def ofLe16 (b : Bytes 2) : UInt16 := UInt16.ofNat (b[0].toNat + 256 * b[1].toNat)

def ofBe16 (b : Bytes 2) : UInt16 := UInt16.ofNat (256 * b[0].toNat + b[1].toNat)

def ofLe32 (b : Bytes 4) : UInt32 :=
  UInt32.ofNat (b[0].toNat + 256 * b[1].toNat + 65536 * b[2].toNat + 16777216 * b[3].toNat)

@[simp]
theorem toNat_byte (n : Nat) : (byte n).toNat = n % 256 :=
  UInt8.toNat_ofNat_of_lt (Nat.mod_lt n (by decide))

theorem byte_eq {n : Nat} {b : UInt8} (low : n % 256 = b.toNat) : byte n = b := by
  rw [← UInt8.toNat_inj, toNat_byte, low]

theorem ofLe16_le16 (n : UInt16) : ofLe16 (le16 n) = n := by
  have bound := n.toNat_lt
  rw [← UInt16.toNat_inj]
  simp only [ofLe16, le16, Vector.getElem_mk, List.getElem_toArray, List.getElem_cons_zero,
    List.getElem_cons_succ, toNat_byte, UInt16.toNat_ofNat']
  omega

theorem ofBe16_be16 (n : UInt16) : ofBe16 (be16 n) = n := by
  have bound := n.toNat_lt
  rw [← UInt16.toNat_inj]
  simp only [ofBe16, be16, Vector.getElem_mk, List.getElem_toArray, List.getElem_cons_zero,
    List.getElem_cons_succ, toNat_byte, UInt16.toNat_ofNat']
  omega

theorem ofLe32_le32 (n : UInt32) : ofLe32 (le32 n) = n := by
  have bound := n.toNat_lt
  rw [← UInt32.toNat_inj]
  simp only [ofLe32, le32, Vector.getElem_mk, List.getElem_toArray, List.getElem_cons_zero,
    List.getElem_cons_succ, toNat_byte, UInt32.toNat_ofNat']
  omega

theorem le16_ofLe16 (b : Bytes 2) : le16 (ofLe16 b) = b := by
  have low := b[0].toNat_lt
  have high := b[1].toNat_lt
  have v : (ofLe16 b).toNat = b[0].toNat + 256 * b[1].toNat := by
    rw [ofLe16, UInt16.toNat_ofNat']
    omega
  apply Vector.ext
  intro i bound
  rw [le16, v]
  rcases i with _ | _ | i
  · exact byte_eq (b := b[0]) (by omega)
  · exact byte_eq (b := b[1]) (by omega)
  · omega

theorem le32_ofLe32 (b : Bytes 4) : le32 (ofLe32 b) = b := by
  have first := b[0].toNat_lt
  have second := b[1].toNat_lt
  have third := b[2].toNat_lt
  have fourth := b[3].toNat_lt
  have v : (ofLe32 b).toNat =
      b[0].toNat + 256 * b[1].toNat + 65536 * b[2].toNat + 16777216 * b[3].toNat := by
    rw [ofLe32, UInt32.toNat_ofNat']
    omega
  apply Vector.ext
  intro i bound
  rw [le32, v]
  rcases i with _ | _ | _ | _ | i
  · exact byte_eq (b := b[0]) (by omega)
  · exact byte_eq (b := b[1]) (by omega)
  · exact byte_eq (b := b[2]) (by omega)
  · exact byte_eq (b := b[3]) (by omega)
  · omega

/-! ## Bytes taken apart -/

theorem bytes4_eta (b : Bytes 4) : bytes [nth b 0, nth b 1, nth b 2, nth b 3] = b := by
  apply Vector.ext
  intro i bound
  rcases i with _ | _ | _ | _ | i
  all_goals first | rfl | exact absurd bound (by simp)

theorem bytes2_eta (b : Bytes 2) : bytes [nth b 0, nth b 1] = b := by
  apply Vector.ext
  intro i bound
  rcases i with _ | _ | i
  all_goals first | rfl | exact absurd bound (by simp)

end Foundations.ByteOrder
