import Mathlib

/-!
# A service manager and the runs it starts

A service manager keeps the units it has loaded, each with the properties it was started with and
a two-level state: what it is doing, and whether its main process has left.  Who starts a unit says
what the start is for; the manager of this module remembers that, beside the units, as the list of
every run it has started and whether the main process of that run is over.

`Tracked` ties the two together: a run that is not over belongs to a loaded unit that is not over
either.  An `Invariant` is what every operation keeps; `Tracked` is one, and that a run was started
is never forgotten is another.  `starts` counts the runs of a unit, and only a start adds to it;
`lastOrigin` is what its latest run was started for, and only a start changes it.
-/

namespace Foundations.ServiceManager

open Std

inductive ActiveState where
  | active | reloading | activating | deactivating | inactive | failed
  deriving DecidableEq

/-- The state of a unit; `exited` is the substate of an active unit with no process left, and
`activeEnter` is when the unit last became active, zero when it never did. -/
structure Status where
  state : ActiveState
  exited : Bool := false
  activeEnter : Nat := 0

def Status.up (status : Status) : Bool :=
  match status.state with
  | .active | .activating | .reloading => true
  | .deactivating | .inactive | .failed => false

/-- The unit has no main process. -/
def Status.ended (status : Status) : Bool :=
  match status.state with
  | .active => status.exited
  | .inactive | .failed => true
  | .activating | .reloading | .deactivating => false

structure Loaded (π : Type) where
  status : Status
  properties : π

/-- A run of a unit, and what it was started for. -/
structure Launch (τ : Type) where
  unit : String
  origin : τ
  ended : Bool

/-- The units that are loaded, and every run that was ever started, the latest first. -/
structure Manager (π τ : Type) where
  units : ExtTreeMap String (Loaded π) := ∅
  launches : List (Launch τ) := []

variable {π τ : Type}

def closeRuns (unit : String) (launches : List (Launch τ)) : List (Launch τ) :=
  launches.map fun launch => if launch.unit = unit then { launch with ended := true } else launch

/-- The latest run of the unit is going on. -/
def reopenLatest (unit : String) : List (Launch τ) → List (Launch τ)
  | [] => []
  | launch :: rest =>
    if launch.unit = unit then { launch with ended := false } :: rest
    else launch :: reopenLatest unit rest

namespace Manager

/-! ## Operations -/

/-- A start the manager accepts: it replaces whatever the unit was. -/
def start (m : Manager π τ) (unit : String) (loaded : Loaded π) (origin : τ) : Manager π τ where
  units := m.units.insert unit loaded
  launches := ⟨unit, origin, loaded.status.ended⟩ :: closeRuns unit m.launches

/-- A unit that is stopped, or of which nothing is left, is unloaded. -/
def unload (m : Manager π τ) (unit : String) : Manager π τ where
  units := m.units.erase unit
  launches := closeRuns unit m.launches

def move (m : Manager π τ) (unit : String) (status : Status) : Manager π τ :=
  match m.units[unit]? with
  | none => m
  | some loaded =>
    { units := m.units.insert unit { loaded with status }
      launches := if status.ended then closeRuns unit m.launches
        else reopenLatest unit m.launches }

/-- Clearing the failure of a unit lets go of it. -/
def resetFailed (m : Manager π τ) (unit : String) : Manager π τ :=
  match m.units[unit]? with
  | some loaded => if loaded.status.state = .failed then m.unload unit else m
  | none => m

/-- The machine goes down: nothing is loaded and nothing runs. -/
def reboot (m : Manager π τ) : Manager π τ where
  units := ∅
  launches := m.launches.map fun launch => { launch with ended := true }

/-! ## What was started stays started -/

/-- A run of the unit was started for something that satisfies `wanted`. -/
def Started (m : Manager π τ) (unit : String) (wanted : τ → Prop) : Prop :=
  ∃ launch ∈ m.launches, launch.unit = unit ∧ wanted launch.origin

/-- The runs started before are still known after. -/
def Keeps (m m' : Manager π τ) : Prop :=
  ∀ unit wanted, m.Started unit wanted → m'.Started unit wanted

theorem Keeps.refl (m : Manager π τ) : m.Keeps m := fun _ _ up => up

variable {m' : Manager π τ}

theorem Keeps.trans {m m'' : Manager π τ} (first : m.Keeps m') (second : m'.Keeps m'') :
    m.Keeps m'' :=
  fun unit wanted up => second unit wanted (first unit wanted up)

theorem keeps_of_marked {m m' : Manager π τ}
    (marked : ∀ launch ∈ m.launches, ∃ l' ∈ m'.launches,
      l'.unit = launch.unit ∧ l'.origin = launch.origin) : m.Keeps m' := by
  rintro unit wanted ⟨launch, mem, named, fits⟩
  obtain ⟨l', member', sameUnit, sameOrigin⟩ := marked launch mem
  exact ⟨l', member', sameUnit.trans named, sameOrigin ▸ fits⟩

variable {launches : List (Launch τ)} {launch : Launch τ}

theorem exists_mem_closeRuns (unit : String) (mem : launch ∈ launches) :
    ∃ l' ∈ closeRuns unit launches, l'.unit = launch.unit ∧ l'.origin = launch.origin := by
  refine ⟨_, List.mem_map_of_mem mem, ?_⟩
  split <;> simp

theorem exists_mem_reopenLatest (unit : String) (mem : launch ∈ launches) :
    ∃ l' ∈ reopenLatest unit launches, l'.unit = launch.unit ∧ l'.origin = launch.origin := by
  induction launches with
  | nil => cases mem
  | cons head rest ih =>
    rw [reopenLatest]
    rcases List.mem_cons.1 mem with rfl | later
    · split
      · exact ⟨_, .head _, rfl, rfl⟩
      · exact ⟨_, .head _, rfl, rfl⟩
    split
    · exact ⟨launch, .tail _ later, rfl, rfl⟩
    obtain ⟨l', member', eq⟩ := ih later
    exact ⟨l', .tail _ member', eq⟩

variable {loaded : Loaded π} {origin : τ}

theorem started_start {m : Manager π τ} {unit : String} {wanted : τ → Prop} (fits : wanted origin) :
    (m.start unit loaded origin).Started unit wanted :=
  ⟨_, .head _, rfl, fits⟩

/-! ## Invariants of the manager -/

/-- A fact about the manager that every operation keeps. -/
structure Invariant (holds : Manager π τ → Prop) : Prop where
  start {m : Manager π τ} (before : holds m) (unit : String) (loaded : Loaded π) (origin : τ) :
    holds (m.start unit loaded origin)
  unload {m : Manager π τ} (before : holds m) (unit : String) : holds (m.unload unit)
  move {m : Manager π τ} (before : holds m) (unit : String) (status : Status) :
    holds (m.move unit status)
  reboot {m : Manager π τ} (before : holds m) : holds m.reboot

theorem Invariant.resetFailed {holds : Manager π τ → Prop} (inv : Invariant holds)
    {m : Manager π τ} (pre : holds m) (unit : String) : holds (m.resetFailed unit) := by
  rw [Manager.resetFailed]
  split
  · split
    · exact inv.unload pre unit
    · exact pre
  · exact pre

/-- **No operation forgets a run.** -/
theorem invariant_keeps (first : Manager π τ) : Invariant first.Keeps where
  start {m} before unit loaded origin := before.trans <| keeps_of_marked fun _ mem =>
    let ⟨l', member', eq⟩ := exists_mem_closeRuns unit mem
    ⟨l', .tail _ member', eq⟩
  unload before unit := before.trans (keeps_of_marked fun _ => exists_mem_closeRuns unit)
  move {m} before unit status := by
    rw [Manager.move]
    split
    · exact before
    apply before.trans
    apply keeps_of_marked
    intro launch mem
    dsimp only
    split
    · exact exists_mem_closeRuns unit mem
    · exact exists_mem_reopenLatest unit mem
  reboot before := before.trans <| keeps_of_marked fun _ mem =>
    ⟨_, List.mem_map_of_mem mem, rfl, rfl⟩

/-! ## A run that is not over has its unit -/

/-- **A run that is not over belongs to a loaded unit that is not over.** -/
def Tracked (m : Manager π τ) : Prop :=
  ∀ launch ∈ m.launches, launch.ended = false →
    ∃ loaded, m.units[launch.unit]? = some loaded ∧ loaded.status.ended = false

theorem tracked_empty : Tracked ({} : Manager π τ) := by exact nofun

theorem Tracked.ended {m : Manager π τ} (tracked : m.Tracked) {unit : String}
    (quiet : ∀ loaded, m.units[unit]? = some loaded → loaded.status.ended = true)
    (mem : launch ∈ m.launches) (named : launch.unit = unit) : launch.ended = true := by
  by_contra going
  obtain ⟨loaded, found, notOver⟩ := tracked launch mem (by simpa using going)
  rw [named] at found
  exact absurd (quiet loaded found) (by simp [notOver])

theorem going_closeRuns {unit : String} (mem : launch ∈ closeRuns unit launches)
    (going : launch.ended = false) : launch ∈ launches ∧ launch.unit ≠ unit := by
  obtain ⟨pre, hit, rfl⟩ := List.mem_map.1 mem
  split at going
  · cases going
  rename_i other
  rw [if_neg other]
  exact ⟨hit, other⟩

theorem going_reopenLatest {unit : String} (mem : launch ∈ reopenLatest unit launches) :
    launch ∈ launches ∨ launch.unit = unit := by
  induction launches with
  | nil => cases mem
  | cons head rest ih =>
    rw [reopenLatest] at mem
    split at mem
    next eq =>
      rcases List.mem_cons.1 mem with rfl | later
      · exact .inr eq
      · exact .inl (.tail _ later)
    rcases List.mem_cons.1 mem with rfl | later
    · exact .inl (.head _)
    · exact (ih later).imp_left (List.mem_cons_of_mem _)

theorem Tracked.start {m : Manager π τ} (tracked : m.Tracked) (unit : String) (loaded : Loaded π)
    (origin : τ) : (m.start unit loaded origin).Tracked := by
  intro launch mem going
  rcases List.mem_cons.1 mem with rfl | past
  · exact ⟨loaded, ExtTreeMap.getElem?_insert_self, going⟩
  obtain ⟨hit, other⟩ := going_closeRuns past going
  obtain ⟨found, lookup, notOver⟩ := tracked launch hit going
  refine ⟨found, ?_, notOver⟩
  rw [Manager.start, ExtTreeMap.getElem?_insert, if_neg (by simpa using other.symm), lookup]

theorem Tracked.unload {m : Manager π τ} (tracked : m.Tracked) (unit : String) :
    (m.unload unit).Tracked := by
  intro launch mem going
  obtain ⟨hit, other⟩ := going_closeRuns mem going
  obtain ⟨found, lookup, notOver⟩ := tracked launch hit going
  refine ⟨found, ?_, notOver⟩
  rw [Manager.unload, ExtTreeMap.getElem?_erase, if_neg (by simpa using other.symm), lookup]

theorem Tracked.move {m : Manager π τ} (tracked : m.Tracked) (unit : String) (status : Status) :
    (m.move unit status).Tracked := by
  rw [Manager.move]
  split
  · exact tracked
  rename_i loaded _
  intro launch mem going
  -- a run of another unit keeps the unit it had
  have elsewhere (hit : launch ∈ m.launches) (other : launch.unit ≠ unit) :
      ∃ found, (m.units.insert unit { loaded with status })[launch.unit]? = some found ∧
        found.status.ended = false := by
    obtain ⟨found, lookup, notOver⟩ := tracked launch hit going
    refine ⟨found, ?_, notOver⟩
    rw [ExtTreeMap.getElem?_insert, if_neg (by simpa using other.symm), lookup]
  dsimp only at mem
  split at mem
  · obtain ⟨hit, other⟩ := going_closeRuns mem going
    exact elsewhere hit other
  rename_i notOver
  by_cases named : launch.unit = unit
  · rw [named]
    exact ⟨_, ExtTreeMap.getElem?_insert_self, by simpa using notOver⟩
  · exact elsewhere ((going_reopenLatest mem).resolve_right named) named

theorem invariant_tracked : Invariant (Tracked : Manager π τ → Prop) where
  start before := before.start
  unload before := before.unload
  move before := before.move
  reboot _ := by
    intro launch mem going
    obtain ⟨before, _, rfl⟩ := List.mem_map.1 mem
    cases going

/-! ## How often a unit was started -/

def starts (m : Manager π τ) (unit : String) : Nat := (m.launches.map (·.unit)).count unit

theorem map_unit_closeRuns (unit : String) (launches : List (Launch τ)) :
    (closeRuns unit launches).map (·.unit) = launches.map (·.unit) := by
  rw [closeRuns, List.map_map]
  apply List.map_congr_left
  intro launch _
  rw [Function.comp_apply]
  split <;> rfl

theorem map_unit_reopenLatest (unit : String) (launches : List (Launch τ)) :
    (reopenLatest unit launches).map (·.unit) = launches.map (·.unit) := by
  induction launches with
  | nil => rfl
  | cons launch rest ih =>
    rw [reopenLatest]
    split
    · rfl
    · rw [List.map_cons, List.map_cons, ih]

variable {m : Manager π τ} {unit name : String}

@[simp] theorem starts_unload : (m.unload unit).starts name = m.starts name := by
  rw [starts, unload, map_unit_closeRuns, starts]

variable {status : Status}

@[simp] theorem starts_move : (m.move unit status).starts name = m.starts name := by
  rw [move]
  split
  · rfl
  rw [starts]
  dsimp only
  split
  · rw [map_unit_closeRuns, starts]
  · rw [map_unit_reopenLatest, starts]

@[simp] theorem starts_resetFailed : (m.resetFailed unit).starts name = m.starts name := by
  rw [resetFailed]
  split
  · split
    · exact starts_unload
    · rfl
  · rfl

@[simp] theorem starts_reboot : m.reboot.starts name = m.starts name := by
  rw [starts, reboot, List.map_map, starts]
  rfl

theorem starts_start_self : (m.start unit loaded origin).starts unit = m.starts unit + 1 := by
  rw [starts, start, List.map_cons, map_unit_closeRuns, List.count_cons_self, starts]

theorem starts_start_of_ne (other : name ≠ unit) :
    (m.start unit loaded origin).starts name = m.starts name := by
  rw [starts, start, List.map_cons, map_unit_closeRuns, List.count_cons_of_ne other.symm, starts]

/-! ## What the latest run was started for -/

def lastOrigin (m : Manager π τ) (unit : String) : Option τ :=
  (m.launches.find? (·.unit == unit)).map (·.origin)

/-- The manager starts the process of a unit again, with the properties it has; what it finds then may
differ from what the run before found, and may keep the process from starting. -/
def respawn (m : Manager π τ) (unit : String) (status : Status) (found : τ → Option τ) : Manager π τ :=
  match m.units[unit]?, (m.lastOrigin unit).bind found with
  | some loaded, some origin => m.start unit { loaded with status } origin
  | _, _ => m.move unit { state := .failed }

theorem unit_of_move (found : (m.move unit status).units[unit]? = some loaded) :
    ∃ pre, m.units[unit]? = some pre ∧ pre.properties = loaded.properties := by
  rw [move] at found
  split at found
  · exact ⟨loaded, found, rfl⟩
  rename_i pre hit
  rw [ExtTreeMap.getElem?_insert_self, Option.some.injEq] at found
  exact ⟨pre, hit, found ▸ rfl⟩

/-- A process that is started again finds its unit as it was; one that is not leaves it failed. -/
theorem respawn_cases (m : Manager π τ) (unit : String) (status : Status) (found : τ → Option τ) :
    (∃ loaded pre origin, m.units[unit]? = some loaded ∧ m.lastOrigin unit = some pre ∧
      found pre = some origin ∧
      m.respawn unit status found = m.start unit { loaded with status } origin) ∨
    m.respawn unit status found = m.move unit { state := .failed } := by
  rw [respawn]
  split
  next loaded origin hit reread =>
    obtain ⟨pre, last, again⟩ := Option.bind_eq_some_iff.1 reread
    exact .inl ⟨loaded, pre, origin, hit, last, again, rfl⟩
  · exact .inr rfl

theorem find?_map_of_marked {mark : Launch τ → Launch τ}
    (eq : ∀ launch, (mark launch).unit = launch.unit ∧ (mark launch).origin = launch.origin)
    (launches : List (Launch τ)) (unit : String) :
    ((launches.map mark).find? (·.unit == unit)).map (·.origin) =
      (launches.find? (·.unit == unit)).map (·.origin) := by
  induction launches with
  | nil => rfl
  | cons launch rest ih =>
    rw [List.map_cons, List.find?_cons, List.find?_cons, (eq launch).1]
    split
    · simp [(eq launch).2]
    · exact ih

theorem find?_closeRuns (launches : List (Launch τ)) :
    ((closeRuns name launches).find? (·.unit == unit)).map (·.origin) =
      (launches.find? (·.unit == unit)).map (·.origin) :=
  find?_map_of_marked (fun launch => by split <;> simp) launches unit

theorem lastOrigin_start : (m.start unit loaded origin).lastOrigin unit = some origin := by
  simp [lastOrigin, start]

@[simp] theorem lastOrigin_unload : (m.unload name).lastOrigin unit = m.lastOrigin unit :=
  find?_closeRuns m.launches

@[simp] theorem lastOrigin_move : (m.move name status).lastOrigin unit = m.lastOrigin unit := by
  have reopened (launches : List (Launch τ)) :
      ((reopenLatest name launches).find? (·.unit == unit)).map (·.origin) =
        (launches.find? (·.unit == unit)).map (·.origin) := by
    induction launches with
    | nil => rfl
    | cons launch rest ih =>
      rw [reopenLatest]
      cases named : launch.unit == unit <;> split <;> simp [named, ih]
  rw [move]
  split
  · rfl
  rw [lastOrigin]
  dsimp only
  split
  · exact find?_closeRuns m.launches
  · exact reopened m.launches

@[simp] theorem lastOrigin_resetFailed : (m.resetFailed name).lastOrigin unit = m.lastOrigin unit := by
  rw [resetFailed]
  split
  · split
    · exact lastOrigin_unload
    · rfl
  · rfl

end Manager

end Foundations.ServiceManager
