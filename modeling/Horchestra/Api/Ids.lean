import Horchestra.Api.Core

/-!
# Host ids and the blocks they are handed out in

The id arithmetic of the API package: the bounds of a usable `runAsUser`, the block
of host ids a namespace owns, and the `<min>/<size>` spelling in which a namespace
carries its block as an annotation.  Reading that spelling back returns the block it
was written from (`parseIDRange_toString`), for every block that lies in the usable
id space.
-/

namespace Horchestra.Api

open Foundations.Text

/-! ## Constants -/

def minRunAsID : Int := 1
def maxRunAsID : Int := 2 ^ 32 - 2

/-- The id a workload runs as when nothing assigned it one. -/
def defaultRunAsID : Int := 65532

/-- Where the first namespace's block starts, and how far apart blocks are. -/
def workloadUIDBase : Int := 1000000000
def workloadUIDBlock : Int := 65536

def annUIDRange : String := "horchestra.io/uid-range"

/-! ## Blocks of ids -/

/-- A half-open block of host ids. -/
structure IDRange where
  min : Int
  size : Int
  deriving DecidableEq

/-- Whether an id falls inside the block; the upper end is a 64-bit sum. -/
def IDRange.contains (r : IDRange) (id : Int) : Bool :=
  decide (r.min ≤ id) && decide (id < wrap64 (r.min + r.size))

def IDRange.isZero (r : IDRange) : Bool := r.min == 0 && r.size == 0

def IDRange.toText (r : IDRange) : List Char := itoa r.min ++ '/' :: itoa r.size

def IDRange.toString (r : IDRange) : String := String.ofList r.toText

/-- Reads the annotation form, refusing a block that is empty or that reaches outside
the usable id space.  The end of the block is computed in 64 bits. -/
def parseIDRange (s : String) : Except String IDRange :=
  match cut '/' s.toList with
  | none => .error ("uid range " ++ quote s ++ ": want \"<min>/<size>\"")
  | some (minStr, sizeStr) =>
    match parseInt64 minStr with
    | .error e => .error ("uid range " ++ quote s ++ ": bad min: " ++ e.message minStr)
    | .ok min =>
      match parseInt64 sizeStr with
      | .error e => .error ("uid range " ++ quote s ++ ": bad size: " ++ e.message sizeStr)
      | .ok size =>
        if size ≤ 0 then .error ("uid range " ++ quote s ++ ": size must be positive")
        else if min < minRunAsID ∨ wrap64 (min + size - 1) > maxRunAsID then
          .error ("uid range " ++ quote s ++ ": outside the usable id space (1..4294967294)")
        else .ok ⟨min, size⟩

/-- A block of at least one id, every one of them a usable non-root id. -/
structure IDRange.Usable (r : IDRange) : Prop where
  nonempty : 0 < r.size
  above : minRunAsID ≤ r.min
  below : r.min + r.size - 1 ≤ maxRunAsID

theorem IDRange.Usable.contains_iff {r : IDRange} (usable : r.Usable) (id : Int) :
    r.contains id = true ↔ r.min ≤ id ∧ id < r.min + r.size := by
  obtain ⟨ne, above, below⟩ := usable
  unfold minRunAsID at above
  unfold maxRunAsID at below
  have inRange : wrap64 (r.min + r.size) = r.min + r.size := wrap64_of_mem (by omega) (by omega)
  simp [IDRange.contains, inRange]

/-- What is checked of a block that is read. -/
theorem bounds_of_parseIDRange {s : String} {r : IDRange} (read : parseIDRange s = .ok r) :
    0 < r.size ∧ minRunAsID ≤ r.min ∧ wrap64 (r.min + r.size - 1) ≤ maxRunAsID := by
  unfold parseIDRange at read
  split at read
  · cases read
  split at read
  · cases read
  split at read
  · cases read
  split at read
  · cases read
  split at read
  · cases read
  rename_i pos inside
  cases read
  simp only [not_or, not_lt] at inside
  exact ⟨not_le.1 pos, inside⟩

theorem parseIDRange_toString {r : IDRange} (usable : r.Usable) :
    parseIDRange r.toString = .ok r := by
  obtain ⟨ne, above, below⟩ := usable
  unfold minRunAsID at above
  unfold maxRunAsID at below
  have separated : '/' ∉ itoa r.min := not_mem_itoa r.min (by decide) (by decide)
  have divided : cut '/' r.toString.toList = some (itoa r.min, itoa r.size) := by
    simp only [IDRange.toString, String.toList_ofList, IDRange.toText]
    exact cut_append '/' _ _ separated
  have readMin := parseInt64_itoa (n := r.min) (by omega) (by omega)
  have readSize := parseInt64_itoa (n := r.size) (by omega) (by omega)
  have noWrap : wrap64 (r.min + r.size - 1) = r.min + r.size - 1 :=
    wrap64_of_mem (by omega) (by omega)
  have pos : ¬ r.size ≤ 0 := by omega
  have inside : ¬ (r.min < minRunAsID ∨ wrap64 (r.min + r.size - 1) > maxRunAsID) := by
    rw [noWrap]
    unfold minRunAsID maxRunAsID
    omega
  simp only [parseIDRange, divided, readMin, readSize, if_neg pos, if_neg inside]

/-- **A block that is read is usable exactly when its end can be computed in 64 bits**: it is not
empty and within the ids, it contains the ids from its first to its last, and it is read back from
its spelling. -/
theorem parseIDRange_usable_iff {s : String} {r : IDRange} (read : parseIDRange s = .ok r) :
    (r.Usable ∧ (∀ id, r.contains id = true ↔ r.min ≤ id ∧ id ≤ r.min + r.size - 1) ∧
      parseIDRange r.toString = .ok r) ↔ r.min + r.size - 1 < 2 ^ 63 := by
  constructor
  · rintro ⟨⟨-, -, below⟩, -⟩
    unfold maxRunAsID at below
    omega
  intro fits
  obtain ⟨positive, inside⟩ := bounds_of_parseIDRange read
  have usable : r.Usable := by
    unfold minRunAsID at inside
    rw [wrap64_of_mem (by omega) fits] at inside
    exact ⟨positive, inside.1, inside.2⟩
  refine ⟨usable, fun id => ?_, parseIDRange_toString usable⟩
  rw [usable.contains_iff]
  omega

theorem parseIDRange_usable_iff_first : parseIDRange "1000000000/65536" = .ok ⟨1000000000, 65536⟩ ∧
    IDRange.Usable ⟨1000000000, 65536⟩ := by
  have read : parseIDRange "1000000000/65536" = .ok ⟨1000000000, 65536⟩ := by decide +kernel
  exact ⟨read, ((parseIDRange_usable_iff read).2 (by decide)).1⟩

/-- **The end of a block wraps around**, and a block far beyond the ids is read. -/
theorem overflowing_block_is_read :
    parseIDRange "9223372036854775807/9223372036854775807" =
      .ok ⟨9223372036854775807, 9223372036854775807⟩ ∧
    ¬ IDRange.Usable ⟨9223372036854775807, 9223372036854775807⟩ := by
  refine ⟨by decide +kernel, fun usable => ?_⟩
  have below := usable.below
  revert below
  decide

/-! ## A usable id -/

/-- Refuses an id that is not a usable non-root uid or gid. -/
def validRunAsID (what : String) (id : Int) : Except String Unit :=
  if id = 0 then .error (what ++ ": the no-root floor forbids id 0")
  else if id < minRunAsID ∨ id > maxRunAsID then
    .error (what ++ " " ++ String.ofList (itoa id) ++ " is out of range (1..4294967294): " ++
      "a value outside the kernel's uid_t truncates to a different id")
  else .ok ()

end Horchestra.Api
