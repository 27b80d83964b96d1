import Horchestra.Agent.Runtime

/-!
# The restart backoff of a workload

`restart_backoff_is_exponential` says which of any sequence of calls the guard permits: the first
two, and then each call that comes no sooner than the delay of the starts so far, which doubles from
the base to the ceiling although it is computed with a shift that wraps.
-/

namespace Horchestra.Agent

open Foundations Text

/-! ## The delay -/

theorem dvd_wrap64 {d n : Int} (word : d ∣ (2 ^ 64 : Nat)) (divides : d ∣ n) : d ∣ wrap64 n := by
  have wrapped : d ∣ wrap64 n - n := word.trans Int.dvd_bmod_sub_self
  simpa using dvd_add wrapped divides

theorem restartDelay_eq {attempts : Nat} (restarts : 2 ≤ attempts) :
    restartDelay attempts = min (restartBackoffBase * 2 ^ (attempts - 2)) restartBackoffMax := by
  have base : restartBackoffBase = 15000000000 := by decide
  have ceiling : restartBackoffMax = 300000000000 := by decide
  obtain ⟨k, rfl⟩ := Nat.exists_eq_add_of_le' restarts
  rw [restartDelay, if_neg (by omega), Nat.add_sub_cancel, base, ceiling]
  rcases Nat.lt_or_ge k 30 with small | large
  · -- below thirty doublings the product fits
    have upper : (2 : Int) ^ k ≤ 536870912 := pow_le_pow_right₀ (by decide) (Nat.le_of_lt_succ small)
    have lower : (0 : Int) < 2 ^ k := by positivity
    generalize (2 : Int) ^ k = power at *
    rw [wrap64_of_mem (by omega) (by omega)]
    dsimp only
    split <;> omega
  · -- from then on whatever it wraps to is a multiple of a number above the ceiling
    have power : (1073741824 : Int) ∣ 2 ^ k := pow_dvd_pow 2 large
    have above := Int.le_of_dvd (by positivity) power
    obtain ⟨q, multiple⟩ : (549755813888 : Int) ∣ wrap64 (15000000000 * 2 ^ k) :=
      dvd_wrap64 (by decide) ((by decide : (549755813888 : Int) ∣ 15000000000 * 1073741824).trans
        (mul_dvd_mul_left _ power))
    rw [multiple]
    generalize (2 : Int) ^ k = power at *
    dsimp only
    split <;> omega

/-! ## The calls -/

/-- A call of the guard, with the times of the starts permitted so far. -/
def FlapGuard.call (id sum : String) (past : FlapGuard × List Int) (now : Int) :
    FlapGuard × List Int :=
  let (g, allow, _) := past.1.mayStart now id sum
  (g, if allow then past.2 ++ [now] else past.2)

def FlapGuard.calls (g : FlapGuard) (id sum : String) (times : List Int) : FlapGuard × List Int :=
  times.foldl (call id sum) (g, [])

/-- What the guard remembers of the starts it permitted. -/
def Remembers (sum : String) (starts : List Int) (st : FlapState) : Prop :=
  st.sum = sum ∧ st.attempts = starts.length ∧
    ((starts.length = 1 ∧ st.next = none) ∨
      ∃ last, starts.getLast? = some last ∧ 2 ≤ starts.length ∧
        st.next = some (last + restartDelay starts.length))

section

variable {g : FlapGuard} {id sum : String}

theorem calls_concat (times : List Int) (now : Int) :
    g.calls id sum (times ++ [now]) = FlapGuard.call id sum (g.calls id sum times) now :=
  List.foldl_concat ..

theorem call_of_remembers {past : FlapGuard × List Int} {st : FlapState}
    (held : past.1.seen[id]? = some st) (remembers : Remembers sum past.2 st) (now : Int) :
    ∃ st', (FlapGuard.call id sum past now).1.seen[id]? = some st' ∧
      Remembers sum (FlapGuard.call id sum past now).2 st' := by
  obtain ⟨same, counted, armed⟩ := remembers
  have some_start : 1 ≤ past.2.length := by
    rcases armed with ⟨one, -⟩ | ⟨-, -, more, -⟩ <;> omega
  simp only [FlapGuard.call, FlapGuard.mayStart, held, same, ne_eq, not_true_eq_false, if_false]
  cases waits : st.next.filter (now < ·) with
  | some next => exact ⟨st, held, same, counted, armed⟩
  | none =>
    refine ⟨_, Std.ExtTreeMap.getElem?_insert_self, rfl, by simp [counted], .inr ⟨now, ?_, ?_, ?_⟩⟩
    · simp
    · simpa using some_start
    · simp [counted]

variable (fresh : ∀ st, g.seen[id]? = some st → st.sum ≠ sum)
include fresh

theorem mayStart_of_fresh (now : Int) :
    g.mayStart now id sum = (⟨g.seen.insert id { sum, attempts := 1 }⟩, true, 0) := by
  unfold FlapGuard.mayStart
  cases held : g.seen[id]? with
  | none => rfl
  | some st => simp [fresh st held]

theorem remembers_of_calls (first : Int) (times : List Int) :
    ∃ st, (g.calls id sum (first :: times)).1.seen[id]? = some st ∧
      Remembers sum (g.calls id sum (first :: times)).2 st := by
  induction times using List.reverseRecOn with
  | nil =>
    simp only [FlapGuard.calls, List.foldl_cons, List.foldl_nil, FlapGuard.call,
      mayStart_of_fresh fresh]
    exact ⟨_, Std.ExtTreeMap.getElem?_insert_self, rfl, rfl, .inl ⟨rfl, rfl⟩⟩
  | append_singleton times now ih =>
    obtain ⟨st, held, remembers⟩ := ih
    rw [← List.cons_append, calls_concat]
    exact call_of_remembers held remembers now

theorem permitted_iff (times : List Int) (now : Int) :
    ((g.calls id sum times).1.mayStart now id sum).2.1 = true ↔
      (g.calls id sum times).2.length < 2 ∨
        ∃ last, (g.calls id sum times).2.getLast? = some last ∧
          last + restartDelay (g.calls id sum times).2.length ≤ now := by
  cases times with
  | nil => simp [FlapGuard.calls, mayStart_of_fresh fresh]
  | cons first times =>
    obtain ⟨st, held, same, -, armed⟩ := remembers_of_calls fresh first times
    rw [mayStart_allows, FlapGuard.holdsOff, held]
    rcases armed with ⟨one, next⟩ | ⟨last, isLast, more, next⟩
    · simp [same, next, one]
    · simp [same, next, isLast, Option.filter_some]
      omega

end

theorem restart_backoff_is_exponential (g : FlapGuard) (id sum : String)
    (fresh : ∀ st, g.seen[id]? = some st → st.sum ≠ sum) :
    (∀ times now, ((g.calls id sum times).1.mayStart now id sum).2.1 = true ↔
      (g.calls id sum times).2.length < 2 ∨
        ∃ last, (g.calls id sum times).2.getLast? = some last ∧
          last + min (15 * second * 2 ^ ((g.calls id sum times).2.length - 2)) (5 * 60 * second)
            ≤ now) ∧
      ∀ n ≥ 2, restartDelay n = min (15 * second * 2 ^ (n - 2)) (5 * 60 * second) := by
  refine ⟨fun times now => ?_, fun n restarts => restartDelay_eq restarts⟩
  rw [permitted_iff fresh]
  refine or_congr_right' fun more => exists_congr fun last => and_congr_right fun _ => ?_
  rw [restartDelay_eq (by omega)]
  rfl

theorem restart_backoff_is_exponential_empty :
    restartDelay 64 = min (15 * second * 2 ^ 62) (5 * 60 * second) :=
  (restart_backoff_is_exponential {} "a" "s" (by simp)).2 64 (by decide)

end Horchestra.Agent
