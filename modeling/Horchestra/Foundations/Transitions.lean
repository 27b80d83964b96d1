import Mathlib.Order.Basic

/-!
# Labelled transition systems

A system is a partial step function: from a state, an event that can happen leads to one next
state.  A run may be restricted to events that are allowed where they happen.

* `Reachable.invariant`: what holds at the start and is kept by every allowed step holds in every
  state a run comes to.
* `Inevitable`: along every schedule of the events that make progress, a goal is met after finitely
  many of them.  `inevitable_of_measure` proves it by a decreasing measure and the absence of dead
  ends, `not_inevitable_of_stuck` refutes it by a dead end.
-/

namespace Foundations.Transitions

variable {σ ε : Type}

section

variable (step : σ → ε → Option σ) (allowed : σ → ε → Bool)

/-- The state a list of events leads to, when each of them can happen and is allowed. -/
def run : σ → List ε → Option σ
  | s, [] => some s
  | s, event :: rest => if allowed s event then (step s event).bind (run · rest) else none

inductive Reachable (start : σ) : σ → Prop
  | start : Reachable start start
  | step {s s' : σ} {event : ε} (before : Reachable start s) (permitted : allowed s event = true)
      (happened : step s event = some s') : Reachable start s'

end

variable {step : σ → ε → Option σ} {allowed : σ → ε → Bool} {start : σ}

theorem Reachable.invariant (holds : σ → Prop) (initially : holds start)
    (kept : ∀ {s s' ev}, holds s → allowed s ev = true → step s ev = some s' → holds s')
    {s : σ} (reached : Reachable step allowed start s) : holds s := by
  induction reached with
  | start => exact initially
  | step _ may moved ih => exact kept ih may moved

theorem Reachable.run {s s' : σ} (reached : Reachable step allowed start s) {events : List ε}
    (ran : run step allowed s events = some s') : Reachable step allowed start s' := by
  induction events generalizing s with
  | nil =>
    cases ran
    exact reached
  | cons ev rest ih =>
    rw [Transitions.run] at ran
    split at ran
    case isTrue may =>
      obtain ⟨next, moved, ran⟩ := Option.bind_eq_some_iff.mp ran
      exact ih (reached.step may moved) ran
    case isFalse => cases ran

theorem exists_run {s : σ} {holds : σ → Prop} [DecidablePred holds] {events : List ε}
    (found : (run step allowed s events).any (fun s' => holds s') = true) :
    ∃ s', run step allowed s events = some s' ∧ holds s' := by
  obtain ⟨ran, found⟩ := (Option.any_eq_true_iff_get _ _).1 found
  exact ⟨_, (Option.some_get ran).symm, of_decide_eq_true found⟩

theorem exists_of_run {s : σ} {holds : σ → Prop} [DecidablePred holds] (events : List ε)
    (found : (run step allowed s events).any (fun s' => holds s') = true) :
    ∃ s', Reachable step allowed s s' ∧ holds s' := by
  obtain ⟨s', ran, found⟩ := exists_run found
  exact ⟨s', .run .start ran, found⟩

/-! ## What must happen -/

/-- Every schedule of the events that make progress meets the goal after finitely many of them. -/
inductive Inevitable (step : σ → ε → Option σ) (progress : ε → Bool) (goal : σ → Prop) : σ → Prop
  | now {s : σ} (met : goal s) : Inevitable step progress goal s
  | later {s : σ} (enabled : ∃ event, progress event = true ∧ (step s event).isSome = true)
      (next : ∀ {event s'}, progress event = true → step s event = some s' →
        Inevitable step progress goal s') : Inevitable step progress goal s

variable {progress : ε → Bool} {goal : σ → Prop}

/-- **The progress rule.** -/
theorem inevitable_of_measure (measure : σ → Nat) (good : σ → Prop)
    (decreases : ∀ {s s' ev}, progress ev = true → step s ev = some s' → measure s' < measure s)
    (kept : ∀ {s s' ev}, good s → progress ev = true → step s ev = some s' → good s')
    (enabled : ∀ {s}, good s → ¬ goal s → ∃ ev, progress ev = true ∧ (step s ev).isSome = true)
    {s : σ} (initially : good s) : Inevitable step progress goal s := by
  induction size : measure s using Nat.strongRecOn generalizing s with
  | ind n ih =>
    by_cases met : goal s
    · exact .now met
    apply Inevitable.later (enabled initially met)
    intro ev s' progresses moved
    have smaller : measure s' < n := size ▸ decreases progresses moved
    exact ih _ smaller (kept initially progresses moved) rfl

/-- A dead end short of the goal is never left. -/
theorem not_inevitable_of_stuck {s : σ} (unmet : ¬ goal s)
    (stuck : ∀ ev, progress ev = true → step s ev = none) :
    ¬ Inevitable step progress goal s := by
  intro inevitable
  cases inevitable with
  | now met => exact unmet met
  | later enabled _ =>
    obtain ⟨ev, progresses, happens⟩ := enabled
    rw [stuck ev progresses] at happens
    cases happens

end Foundations.Transitions
