import Mathlib.Order.Basic

/-!
# Readers that count

A reader is asked for bytes and has room for so many of them; its source gives some, and says
whether there may be more, that the stream is over, or that it failed.  A reader may be held to a
number of bytes: it asks its source for no more than it has left, and when nothing is left it asks
for one byte to tell a stream that has ended from one that goes on.

`Meter` adds up what a reader takes from its source and what it passes on, and counts the times it
has found its source to go on behind its limit.  `Meter.Within` says that a held reader has passed
on no more than its limit, and has taken one byte more for each of those times; `Meter.Within.read`
shows it of every read, also of one that comes after a failed one.
-/

namespace Foundations.Readers

inductive Ending where
  | more
  | eof
  | failed (message : String)

/-- What a source gives to one read. -/
structure Answer where
  bytes : Nat
  ending : Ending := .more

/-- How many bytes a reader may still pass on. -/
inductive Limit where
  | unbounded
  | left (remaining : Nat) (what : String)

/-- A reader held to a number of bytes; zero or less leaves it unbounded. -/
def bound (limit : Int) (what : String) : Limit :=
  if limit ≤ 0 then .unbounded else .left limit.toNat what

/-- What one read does: the bytes taken from the source and those passed on. -/
structure Step where
  limit : Limit
  taken : Nat
  passed : Nat
  ending : Ending

/-- One read with room for so many bytes.  A source gives no more than it is asked for. -/
def Limit.read (limit : Limit) (room : Nat) (answer : Answer) : Step :=
  match limit with
  | .unbounded => ⟨.unbounded, min answer.bytes room, min answer.bytes room, answer.ending⟩
  | .left 0 what =>
    -- Nothing is left: one byte tells "ended exactly here" from "has more".
    if 0 < answer.bytes then ⟨.left 0 what, 1, 0, .failed ("stream exceeds " ++ what)⟩
    else ⟨.left 0 what, 0, 0, answer.ending⟩
  | .left (remaining + 1) what =>
    let n := min answer.bytes (min room (remaining + 1))
    ⟨.left (remaining + 1 - n) what, n, n, answer.ending⟩

/-- A reader with what it has taken and passed on, and how often its source went on. -/
structure Meter where
  limit : Limit
  taken : Nat := 0
  passed : Nat := 0
  probes : Nat := 0

def Meter.read (m : Meter) (room : Nat) (answer : Answer) : Meter :=
  let step := m.limit.read room answer
  { limit := step.limit, taken := m.taken + step.taken, passed := m.passed + step.passed
    probes := m.probes + (step.taken - step.passed) }

def Meter.passes (m : Meter) (room : Nat) (answer : Answer) : Nat :=
  (m.limit.read room answer).passed

theorem Meter.passed_read (m : Meter) (room : Nat) (answer : Answer) :
    (m.read room answer).passed = m.passed + m.passes room answer := rfl

theorem Limit.read_le (limit : Limit) (room : Nat) (answer : Answer) :
    (limit.read room answer).passed ≤ (limit.read room answer).taken ∧
      (limit.read room answer).taken ≤ answer.bytes ∧
      (limit.read room answer).taken ≤ (limit.read room answer).passed + 1 := by
  rcases limit with _ | ⟨_ | remaining, what⟩ <;> simp only [Limit.read]
  · omega
  · split <;> simp only <;> omega
  · omega

/-- The reader is held to `total` bytes and has kept to it. -/
structure Meter.Within (total : Nat) (m : Meter) : Prop where
  held : ∃ remaining what, m.limit = .left remaining what ∧ m.passed + remaining = total
  taken : m.taken = m.passed + m.probes

variable {total : Nat} {m : Meter}

theorem Meter.Within.passed_le (within : m.Within total) : m.passed ≤ total := by
  obtain ⟨remaining, what, -, sum⟩ := within.held
  omega

theorem Meter.within_bound {limit : Int} (pos : 0 < limit) (what : String) :
    Meter.Within limit.toNat { limit := bound limit what } where
  held := ⟨limit.toNat, what, by simp [bound, pos], by simp⟩
  taken := rfl

/-- **Every read of a held reader keeps it within its limit.** -/
theorem Meter.Within.read (within : m.Within total) (room : Nat) (answer : Answer) :
    (m.read room answer).Within total := by
  obtain ⟨⟨remaining, what, held, sum⟩, taken⟩ := within
  have le := m.limit.read_le room answer
  refine ⟨?_, by simp only [Meter.read]; omega⟩
  simp only [Meter.read, held]
  cases remaining with
  | zero =>
    refine ⟨0, what, ?_⟩
    simp only [Limit.read]
    split <;> exact ⟨rfl, sum⟩
  | succ remaining => exact ⟨_, what, rfl, by simp only [Limit.read]; omega⟩

end Foundations.Readers
