import Horchestra.Agent.Reconcile
import Horchestra.Agent.Reclamation

/-!
# Volumes that are removed while a unit binds them

A pass reclaims volumes from what is wanted, and the units of a node are what the service manager
holds: a unit whose stop fails stays, and so does every unit when the listing fails, since a listing
that fails is read as one that is empty.  Here the manager remembers which directories each unit was
started with, and a removal is recorded together with the units that are held at that moment.

* `sweep_leaves_wanted`: a sweep whose listing and stops succeed leaves no unit that is not wanted.
* `eq_of_beneath_backing`: the directories of two volumes are apart.
* `removed_from_under_no_unit`: in every run whose sweeps succeed, and in which the units of the
  wanted applications bind only what those applications still mount when volumes are reclaimed, no
  directory is removed that a unit binds; `removed_from_under_unit` is a run in which a stop fails.
-/

namespace Horchestra.Agent

open Std Api Foundations Text Checks Paths ServiceManager
open Foundations.Transitions
open Agent.Storage (Ledger PvRecord inUse reclaimRetain)

/-! ## The directories of volumes -/

/-- The path is that of the directory or of something in it. -/
def Beneath (dir path : String) : Prop := worded (parts dir.toList) <+: worded (parts path.toList)

instance decidableBeneath (dir path : String) : Decidable (Beneath dir path) :=
  inferInstanceAs (Decidable (_ <+: _))

/-- A name that is one part of a path and says something. -/
def isName (id : String) : Bool := !id.toList.contains '/' && id ≠ ".." && id ≠ "." && id ≠ ""

theorem isName_iff {id : String} : isName id = true ↔ IsPart id ∧ id ≠ "." ∧ id ≠ "" := by
  simp [isName, IsPart, and_assoc]

theorem worded_append (first second : List String) :
    worded (first ++ second) = worded first ++ worded second := List.filter_append ..

theorem worded_parts_clean {path : String} (straight : Straight path) :
    worded (parts (clean path).toList) = worded (parts path.toList) := by
  rw [straight.parts_clean]
  split
  next nothing =>
    rw [nothing]
    decide
  · simp [worded]

theorem worded_parts_joinPath {base : String} {others : List String} (straight : Straight base)
    (noUp : ∀ text ∈ others, ".." ∉ parts text.toList) :
    worded (parts (joinPath (base :: others)).toList) =
      worded (parts base.toList) ++ others.flatMap fun text => worded (parts text.toList) := by
  have hit : ∀ text ∈ others.filter (· ≠ ""), ".." ∉ parts text.toList :=
    fun text listed => noUp text (List.mem_of_mem_filter listed)
  rw [joinPath_cons (ne_empty_of_isRooted straight.1),
    worded_parts_clean (straight_intercalate straight hit), parts_intercalate, List.flatMap_cons,
    worded_append]
  exact congrArg _ ((List.filter_flatMap ..).trans (flatMap_present rfl others))

theorem worded_parts_name {id : String} (named : isName id = true) :
    worded (parts id.toList) = [id] := by
  obtain ⟨part, notDot, ne⟩ := isName_iff.1 named
  rw [parts, List.splitOn_eq_singleton part.1]
  simp [worded, notDot, ne]

section

variable {l : Local} {id other subPath : String}

theorem worded_parts_pvDir (straight : Straight l.stateDir) (named : isName id = true) :
    worded (parts (l.pvDir id).toList) = worded (parts l.stateDir.toList) ++ ["volumes", id] := by
  have noUp : ∀ text ∈ ["volumes", id], ".." ∉ parts text.toList := by
    simp only [List.forall_mem_cons, List.not_mem_nil, false_implies, implies_true, and_true]
    exact ⟨by decide, (isName_iff.1 named).1.noUp⟩
  rw [Local.pvDir, worded_parts_joinPath straight noUp, List.flatMap_cons, List.flatMap_cons,
    List.flatMap_nil, worded_parts_name named]
  rfl

theorem prefix_foldl_joinPath {found : List String}
    (noUp : ∀ part ∈ found, ".." ∉ parts part.toList)
    {cur : String} (straight : Straight cur) :
    worded (parts cur.toList) <+:
      worded (parts (found.foldl (fun cur part => joinPath [cur, part]) cur).toList) := by
  induction found generalizing cur with
  | nil => exact List.prefix_rfl
  | cons part rest ih =>
    rw [List.forall_mem_cons] at noUp
    have next : ∀ text ∈ [part], ".." ∉ parts text.toList := by simpa using noUp.1
    refine .trans ?_ (ih noUp.2 (straight_joinPath straight next))
    rw [worded_parts_joinPath straight next]
    exact List.prefix_append ..

/-- What a mount shows is in the directory of its volume. -/
theorem beneath_backing (straight : Straight l.stateDir) (named : isName id = true)
    (valid : subPath ≠ "" → validRelPath subPath = .ok ()) :
    Beneath (l.pvDir id) (l.backing id subPath) := by
  rw [Beneath, Local.backing]
  split
  · exact List.prefix_rfl
  rename_i part
  refine prefix_foldl_joinPath ?_ (straight_pvDir straight (isName_iff.1 named).1).1
  intro found listed
  refine IsPart.noUp ⟨slash_notMem_of_mem_parts listed, ?_⟩
  rintro rfl
  exact noUp_of_validRelPath (valid part) listed

/-- **The directories of two volumes are apart**: what is in one is not in the other. -/
theorem eq_of_beneath_backing (straight : Straight l.stateDir) (named : isName id = true)
    (otherNamed : isName other = true) (valid : subPath ≠ "" → validRelPath subPath = .ok ())
    (beneath : Beneath (l.pvDir id) (l.backing other subPath)) : id = other := by
  have own := beneath_backing straight otherNamed valid
  rw [Beneath, worded_parts_pvDir straight named] at beneath
  rw [Beneath, worded_parts_pvDir straight otherNamed] at own
  -- Both are the first parts of one path, and as long as each other.
  have eq := List.prefix_of_prefix_length_le beneath own (by simp)
  simpa using List.IsPrefix.eq_of_length eq (by simp)

end

/-! ## Reclaiming -/

def fits (app : App) (pvs : Provisioned) : Bool :=
  app.volumes.all fun m => !m.isPV || pvs.contains (pvID app m)

/-- The volumes whose directories one call of `Reclaim` removes. -/
def reclaims (allPVs : List String) (want : ExtTreeMap String App) (provisioned : Ledger) :
    List String :=
  if allPVs = [] then []
  else (provisioned.toList.filter fun entry =>
    entry.1 ∉ allPVs && entry.1 ∉ inUse want && entry.2.reclaimPolicy ≠ reclaimRetain).map Prod.fst

/-! ## A node with the directories its units bind -/

inductive Stage where
  | idle | converging | swept
  deriving DecidableEq

/-- A directory that is removed, and the units that are held then, each with what it binds. -/
structure Undermining where
  id : String
  held : List (String × List String)
  deriving DecidableEq

structure Machine where
  agent : AgentState := {}
  /-- The directories each unit was started with. -/
  binds : ExtTreeMap String (List String) := ∅
  stage : Stage := .idle
  removals : List Undermining := []

inductive MachineEvent where
  | push (node : String) (applications : List Application) (address : String → String)
  /-- One turn; `files` is what the file system answers while the volumes are resolved. -/
  | turn (name : String) (files : Local) (pvs : Provisioned) (turn : Turn)
  | sweep (listing : Listing) (removal : String → Bus)
  | reclaim (allPVs : List String) (provisioned : Ledger)
  | unit (name : String) (change : Option Status)
  | restart
  | reboot

/-- The directories resolved volumes bind. -/
def boundRefs (resolved : Except String (List Volume)) : List String :=
  match resolved with
  | .ok volumes => (volumes.filter (·.kind == .hostPath)).map (·.ref)
  | .error _ => []

/-- The units that are held, each with what it binds. -/
def Machine.held (n : Machine) : List (String × List String) :=
  n.agent.runtime.manager.units.keys.map fun id => (id, n.binds.getD id [])

/-- A turn.  A unit that is started anew binds what was resolved for it. -/
def Machine.turn (n : Machine) (r : Runtime) (stateDir name : String) (app : App) (files : Local)
    (pvs : Provisioned) (turn : Turn) : Machine :=
  let found := { files with stateDir }.resolve app pvs
  let agent := (r.converge { turn with fits := fits app pvs, resolve := found } n.agent name app).1
  { n with
    agent
    binds :=
      if agent.runtime.manager.starts name = n.agent.runtime.manager.starts name then n.binds
      else n.binds.insert name (boundRefs found) }

def Machine.reclaim (n : Machine) (allPVs : List String) (provisioned : Ledger) : Machine :=
  { n with
    stage := .idle
    removals := (reclaims allPVs n.agent.want provisioned).map (⟨·, n.held⟩) ++ n.removals }

/-- The steps of a node; the parameters are its runtime and its state directory. -/
def Machine.step (r : Runtime) (stateDir : String) (n : Machine) : MachineEvent → Option Machine
  | .push node applications address =>
    if n.stage = .idle then
      some { n with agent := r.step n.agent (.push node applications address), stage := .converging }
    else none
  | .turn name files pvs turn =>
    if n.stage = .converging then
      n.agent.want[name]?.map fun app => n.turn r stateDir name app files pvs turn
    else none
  | .sweep listing removal =>
    if n.stage = .converging then
      some { n with agent := n.agent.sweep listing removal, stage := .swept }
    else none
  | .reclaim allPVs provisioned =>
    if n.stage = .swept then some (n.reclaim allPVs provisioned) else none
  | .unit name change => some { n with agent := r.step n.agent (.unit name change) }
  | .restart => some { n with agent := r.step n.agent .restart, stage := .idle }
  | .reboot => some { n with agent := r.step n.agent .reboot, stage := .idle }

/-! ## What a run has to keep to -/

def Bus.takesStop (bus : Bus) : Bool :=
  match bus.connects with
  | .ok _ => bus.stops
  | .error _ => false

def Listing.answers (listing : Listing) : Bool :=
  match listing.listed with
  | .ok _ => true
  | .error _ => false

/-- The path is what one of the volumes of the application shows. -/
def shows (l : Local) (app : App) (path : String) : Bool :=
  app.volumes.any fun m => m.isPV && isName (pvID app m) &&
    (m.subPath = "" || (validRelPath m.subPath).toBool) && path = l.backing (pvID app m) m.subPath

/-- The listing of a sweep succeeds and every unit that is not wanted is stopped; and when volumes
are reclaimed, under the names of objects, the unit of a wanted application binds only what the
application mounts. -/
def orderly (l : Local) (n : Machine) : MachineEvent → Bool
  | .sweep listing removal => listing.answers && n.agent.runtime.manager.units.keys.all fun id =>
    n.agent.want.contains id || (unitGlob id && (removal id).takesStop)
  | .reclaim _ provisioned => provisioned.keys.all isName && n.held.all fun unit =>
    match n.agent.want[unit.1]? with
    | some app => unit.2.all (shows l app)
    | none => true
  | _ => true

/-! ## Sweeps -/

section

theorem mem_units_of_resetFailed {m : Manager (List Property) Origin} {id key : String}
    (held : key ∈ (m.resetFailed id).units) : key ∈ m.units := by
  rw [Manager.resetFailed] at held
  split at held
  · split at held
    · exact (ExtTreeMap.mem_erase.1 held).2
    · exact held
  · exact held

theorem mem_units_of_remove {bus : Bus} {s : State} {id key : String}
    (held : key ∈ (Runtime.remove bus s id).manager.units) :
    key ∈ s.manager.units ∧ (bus.takesStop = true → key ≠ id) := by
  rw [Runtime.remove] at held
  dsimp only at held
  rw [Bus.takesStop]
  split at held
  next refused => exact ⟨held, by simp [refused]⟩
  rename_i connected
  have pre : key ∈ (if bus.stops then s.manager.unload id else s.manager).units := by
    split at held
    · exact mem_units_of_resetFailed held
    · exact held
  cases stops : bus.stops with
  | false => exact ⟨by simpa [stops] using pre, by simp [connected]⟩
  | true =>
    rw [stops, if_pos rfl] at pre
    obtain ⟨other, hit⟩ := ExtTreeMap.mem_erase.1 pre
    refine ⟨hit, fun _ eq => other ?_⟩
    rw [eq]
    exact Std.ReflCmp.compare_self

theorem mem_units_of_sweeping {removal : String → Bus} {held : List WorkloadState} {a : AgentState}
    {key : String}
    (left : key ∈ (held.foldl (fun a st =>
      if a.want.contains st.id then a else a.tearDown
        (removal st.id) st.id) a).runtime.manager.units) :
    key ∈ a.runtime.manager.units ∧ ∀ st ∈ held, st.id = key →
      a.want.contains key = true ∨ (removal key).takesStop = false := by
  induction held generalizing a with
  | nil => exact ⟨left, by simp⟩
  | cons st rest ih =>
    rw [List.foldl_cons] at left
    obtain ⟨hit, others⟩ := ih left
    split at hit
    next wanted =>
      rw [if_pos wanted] at others
      refine ⟨hit, List.forall_mem_cons.2 ⟨?_, others⟩⟩
      rintro rfl
      exact .inl wanted
    rename_i unwanted
    rw [if_neg unwanted] at others
    obtain ⟨pre, stopped⟩ := mem_units_of_remove hit
    refine ⟨pre, List.forall_mem_cons.2 ⟨?_, others⟩⟩
    rintro rfl
    exact .inr (by simpa using fun taken => stopped taken rfl)

theorem exists_mem_states {listing : Listing} {s : State} (listed : listing.answers = true)
    {id : String}
    {loaded : Loaded (List Property)} (held : s.manager.units[id]? = some loaded)
    (shaped : unitGlob id = true) : ∃ st ∈ (Runtime.states listing s).1, st.id = id := by
  have mem : (id, loaded) ∈ s.manager.units.toList.filter fun e => unitGlob e.1 :=
    List.mem_filter.2 ⟨ExtTreeMap.mem_toList_iff_getElem?_eq_some.2 held, shaped⟩
  refine ⟨stateOf listing s.runs id loaded, ?_, ?_⟩
  · rw [Listing.answers] at listed
    rw [Runtime.states]
    split
    next refused =>
      rw [refused] at listed
      cases listed
    · exact List.mem_map.2 ⟨(id, loaded), mem, rfl⟩
  simp only [stateOf]
  split <;> rfl

theorem sweep_leaves_wanted {a : AgentState} {listing : Listing} {removal : String → Bus}
    (listed : listing.answers = true)
    (stops : ∀ id ∈ a.runtime.manager.units, a.want.contains id = true ∨
      (unitGlob id = true ∧ (removal id).takesStop = true)) {id : String}
    (left : id ∈ (a.sweep listing removal).runtime.manager.units) : a.want.contains id = true := by
  obtain ⟨hit, torn⟩ := mem_units_of_sweeping left
  rcases stops id hit with wanted | ⟨shaped, taken⟩
  · exact wanted
  have held := ExtTreeMap.getElem?_eq_some_getElem hit
  obtain ⟨st, mem, eq⟩ := exists_mem_states listed held shaped
  rcases torn st mem eq with wanted | refused
  · exact wanted
  rw [taken] at refused
  cases refused

end

/-! ## Runs -/

/-- No unit binds what is removed. -/
def Undermining.Harmless (l : Local) (u : Undermining) : Prop :=
  ∀ unit ∈ u.held, ∀ path ∈ unit.2, ¬ Beneath (l.pvDir u.id) path

/-- After a sweep every unit is wanted, and nothing was removed that a unit binds. -/
structure Machine.Safe (l : Local) (n : Machine) : Prop where
  wanted : n.stage = .swept → ∀ id ∈ n.agent.runtime.manager.units, n.agent.want.contains id = true
  harmless : ∀ u ∈ n.removals, u.Harmless l

section

variable {l : Local} {n : Machine}

theorem harmless_of_orderly (straight : Straight l.stateDir) (safe : n.Safe l)
    (swept : n.stage = .swept)
    {allPVs : List String} {provisioned : Ledger}
    (may : orderly l n (.reclaim allPVs provisioned) = true) {id : String}
    (removed : id ∈ reclaims allPVs n.agent.want provisioned) :
    (⟨id, n.held⟩ : Undermining).Harmless l := by
  rw [orderly, Bool.and_eq_true] at may
  obtain ⟨names, own⟩ := may
  rw [reclaims] at removed
  split at removed
  · cases removed
  obtain ⟨entry, listed, rfl⟩ := List.mem_map.1 removed
  obtain ⟨hit, kept⟩ := List.mem_filter.1 listed
  have unused : entry.1 ∉ inUse n.agent.want := by
    simp only [Bool.and_eq_true, decide_eq_true_eq] at kept
    exact kept.1.2
  have named : isName entry.1 = true := by
    refine List.all_eq_true.1 names _ (ExtTreeMap.mem_keys.2 ?_)
    exact ExtTreeMap.mem_iff_isSome_getElem?.2
      (by rw [ExtTreeMap.mem_toList_iff_getElem?_eq_some.1 hit]; rfl)
  intro unit held path bound beneath
  obtain ⟨key, loaded, rfl⟩ := List.mem_map.1 held
  have isWanted := safe.wanted swept key (ExtTreeMap.mem_keys.1 loaded)
  rw [ExtTreeMap.contains_eq_isSome_getElem?, Option.isSome_iff_exists] at isWanted
  obtain ⟨app, wanted⟩ := isWanted
  have shown := List.all_eq_true.1 own _ held
  simp only [wanted] at shown
  obtain ⟨m, mounted, is⟩ := List.any_eq_true.1 (List.all_eq_true.1 shown path bound)
  simp only [Bool.and_eq_true, Bool.or_eq_true, decide_eq_true_eq] at is
  obtain ⟨⟨⟨persistent, mountedName⟩, valid⟩, rfl⟩ := is
  have validPath : m.subPath ≠ "" → validRelPath m.subPath = .ok () := by
    intro part
    have accepted := valid.resolve_left part
    cases checked : validRelPath m.subPath with
    | ok => rfl
    | error e => simp [checked, Except.toBool] at accepted
  have eq := eq_of_beneath_backing straight named mountedName validPath beneath
  exact unused (eq ▸ Storage.mem_inUse wanted mounted persistent)

theorem Machine.Safe.step (straight : Straight l.stateDir) (safe : n.Safe l) {r : Runtime}
    {n' : Machine}
    {ev : MachineEvent} (may : orderly l n ev = true)
    (moved : n.step r l.stateDir ev = some n') : n'.Safe l := by
  cases ev with
  | push node apps addr =>
    simp only [Machine.step, Option.ite_none_right_eq_some, Option.some.injEq] at moved
    obtain ⟨-, rfl⟩ := moved
    exact ⟨by rintro ⟨⟩, safe.harmless⟩
  | turn name files pvs turn =>
    simp only [Machine.step, Option.ite_none_right_eq_some] at moved
    obtain ⟨converging, taken⟩ := moved
    obtain ⟨app, -, rfl⟩ := Option.map_eq_some_iff.1 taken
    refine ⟨?_, safe.harmless⟩
    intro swept
    rw [show (n.turn r l.stateDir name app files pvs turn).stage = n.stage from rfl,
      converging] at swept
    cases swept
  | sweep listing removal =>
    simp only [Machine.step, Option.ite_none_right_eq_some, Option.some.injEq] at moved
    obtain ⟨-, rfl⟩ := moved
    rw [orderly, Bool.and_eq_true] at may
    refine ⟨?_, safe.harmless⟩
    intro _ id left
    rw [sweep_want]
    refine sweep_leaves_wanted may.1 ?_ left
    intro key hit
    simpa using List.all_eq_true.1 may.2 key (ExtTreeMap.mem_keys.2 hit)
  | reclaim allPVs provisioned =>
    simp only [Machine.step, Option.ite_none_right_eq_some, Option.some.injEq] at moved
    obtain ⟨swept, rfl⟩ := moved
    refine ⟨by rintro ⟨⟩, ?_⟩
    intro u mem
    rcases List.mem_append.1 mem with new | past
    · obtain ⟨id, removed, rfl⟩ := List.mem_map.1 new
      exact harmless_of_orderly straight safe swept may removed
    · exact safe.harmless u past
  | unit name change =>
    simp only [Machine.step, Option.some.injEq] at moved
    obtain rfl := moved
    refine ⟨?_, safe.harmless⟩
    intro swept id held
    refine safe.wanted swept id ?_
    cases change with
    | none => exact (ExtTreeMap.mem_erase.1 held).2
    | some status =>
      have held : id ∈ (n.agent.runtime.manager.move name status).units := held
      rw [Manager.move] at held
      split at held
      · exact held
      rename_i loaded hit
      rcases ExtTreeMap.mem_insert.1 held with eq | pre
      · obtain rfl := Std.LawfulEqCmp.eq_of_compare eq
        exact ExtTreeMap.mem_iff_isSome_getElem?.2 (by rw [hit]; rfl)
      · exact pre
  | restart | reboot =>
    simp only [Machine.step, Option.some.injEq] at moved
    obtain rfl := moved
    exact ⟨by rintro ⟨⟩, safe.harmless⟩

end

theorem removed_from_under_no_unit {r : Runtime} {l : Local} (straight : Straight l.stateDir)
    {n : Machine}
    (reached : Reachable (Machine.step r l.stateDir) (orderly l) {} n) :
    ∀ u ∈ n.removals, ∀ unit ∈ u.held, ∀ path ∈ unit.2, ¬ Beneath (l.pvDir u.id) path := by
  have safe : n.Safe l :=
    reached.invariant (Machine.Safe l) ⟨by rintro ⟨⟩, by simp⟩ fun safe permitted happened =>
      safe.step straight permitted happened
  exact safe.harmless

/-! ## Runs of one node -/

def heldUID : String := "11111111-1111-1111-1111-111111111111"

/-- An application of the node `n1` that mounts the volume `data`. -/
def heldApplication : Application where
  metadata := { name := "web", ns := "default", uid := heldUID }
  spec := {
    placement := { nodeName := "n1" }
    volumes := [{ mountPath := "/data", volume := { type := volumeTypePV, name := "data" } }] }

def plainLocal : Local where
  stateDir := "/var/lib/horchestra"
  subGID := { min := 0, size := 0 }

def dataLedger : Ledger := Foundations.NameMap.indexBy id (fun _ => ⟨"Delete"⟩) ["default_data"]

def startedPass : List MachineEvent :=
  [.push "n1" [heldApplication] (fun _ => ""),
    .turn heldUID plainLocal
      (Foundations.NameMap.indexBy Storage.volumeID id [Storage.dataVolume "u1" "Delete"]) {},
    .sweep {} (fun _ => {}), .reclaim ["default_data"] dataLedger]

/-- The application and the volume are gone, and the stop of the unit is answered by `bus`. -/
def deletedPass (bus : Bus) : List MachineEvent :=
  [.push "n1" [] (fun _ => ""), .sweep {} (fun _ => bus), .reclaim ["default_other"] dataLedger]

theorem removed_from_under_no_unit_stopped :
    ∃ n, Reachable (Machine.step plainRuntime plainLocal.stateDir) (orderly plainLocal) {} n ∧
      n.removals = [⟨"default_data", []⟩] ∧
      ∀ u ∈ n.removals, ∀ unit ∈ u.held, ∀ path ∈ unit.2,
        ¬ Beneath (plainLocal.pvDir u.id) path := by
  obtain ⟨n, reached, removed⟩ : ∃ n, Reachable (Machine.step plainRuntime plainLocal.stateDir)
      (orderly plainLocal) {} n ∧ n.removals = [⟨"default_data", []⟩] :=
    exists_of_run (startedPass ++ deletedPass {}) (by decide +kernel)
  have straight : Straight plainLocal.stateDir := by unfold Straight; decide
  exact ⟨n, reached, removed, removed_from_under_no_unit straight reached⟩

/-- The application and its volume are deleted, the stop of the unit fails, and the data is removed
from under it. -/
theorem removed_from_under_unit :
    ∃ n, Reachable (Machine.step plainRuntime plainLocal.stateDir) (fun _ _ => true) {} n ∧
      ∃ u ∈ n.removals, ∃ unit ∈ u.held, ∃ path ∈ unit.2, Beneath (plainLocal.pvDir u.id) path :=
  exists_of_run (startedPass ++ deletedPass { stops := false }) (by decide +kernel)

end Horchestra.Agent
