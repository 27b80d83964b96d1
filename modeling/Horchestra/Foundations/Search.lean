import Mathlib.Tactic.Common

/-!
# Searching an arithmetic progression for a free slot

`firstFree taken stride n low` walks `low, low + stride, …` for at most `n` steps and
returns the first candidate that is not taken.  An allocator that hands out the lowest
free slot is an instance of it, and everything such an allocator guarantees follows
from the one characterisation `firstFree_eq_some_iff`.
-/

namespace Foundations.Search

/-- The first of `n` candidates that is not taken. -/
def firstFree (taken : Int → Bool) (stride : Int) : Nat → Int → Option Int
  | 0, _ => none
  | n + 1, low => if taken low then firstFree taken stride n (low + stride) else some low

/-- The `j`-th candidate is free and every earlier one is taken. -/
structure IsFirstFree (taken : Int → Bool) (stride low : Int) (j : Nat) : Prop where
  free : taken (low + j * stride) = false
  earlier : ∀ i < j, taken (low + i * stride) = true

variable {taken : Int → Bool} {stride low : Int} {j : Nat}

theorem IsFirstFree.unique {i : Nat} (first : IsFirstFree taken stride low i)
    (second : IsFirstFree taken stride low j) : i = j := by
  rcases Nat.lt_trichotomy i j with pre | eq | after
  · exact absurd (second.earlier i pre) (by simp [first.free])
  · exact eq
  · exact absurd (first.earlier j after) (by simp [second.free])

/-- A search that starts on a taken candidate is the search of the rest. -/
theorem isFirstFree_succ_iff (occupied : taken low = true) :
    IsFirstFree taken stride low (j + 1) ↔ IsFirstFree taken stride (low + stride) j := by
  have shift : ∀ i : Nat, low + ((i + 1 : Nat) : Int) * stride = low + stride + i * stride := by
    intro i
    rw [Int.natCast_add, Int.add_mul]
    omega
  constructor
  · intro first
    refine ⟨?_, fun i pre => ?_⟩
    · rw [← shift]; exact first.free
    · rw [← shift]; exact first.earlier (i + 1) (by omega)
  intro first
  refine ⟨?_, fun i pre => ?_⟩
  · rw [shift]; exact first.free
  cases i with
  | zero => simpa using occupied
  | succ i => rw [shift]; exact first.earlier i (by omega)

theorem firstFree_eq_some_iff {x : Int} {n : Nat} :
    firstFree taken stride n low = some x ↔
      ∃ j < n, x = low + j * stride ∧ IsFirstFree taken stride low j := by
  induction n generalizing low with
  | zero => simp [firstFree]
  | succ n ih =>
    by_cases occupied : taken low = true
    · simp only [firstFree, occupied, if_true, ih]
      constructor
      · rintro ⟨j, bound, rfl, first⟩
        refine ⟨j + 1, by omega, ?_, (isFirstFree_succ_iff occupied).2 first⟩
        rw [Int.natCast_add, Int.add_mul]
        omega
      rintro ⟨j, bound, rfl, first⟩
      cases j with
      | zero => exact absurd first.free (by simp [occupied])
      | succ j =>
        refine ⟨j, by omega, ?_, (isFirstFree_succ_iff occupied).1 first⟩
        rw [Int.natCast_add, Int.add_mul]
        omega
    have free : taken low = false := by simpa using occupied
    have start : IsFirstFree taken stride low 0 :=
      ⟨by simpa using free, fun i pre => absurd pre (by omega)⟩
    simp only [firstFree, free, Bool.false_eq_true, if_false, Option.some.injEq]
    constructor
    · rintro rfl
      exact ⟨0, by omega, by simp, start⟩
    rintro ⟨j, -, rfl, first⟩
    have zero : j = 0 := first.unique start
    simp [zero]

end Foundations.Search
