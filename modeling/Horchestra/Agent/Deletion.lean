import Horchestra.Agent.Jobs

/-!
# What the end of a workload releases

The object of a deleted workload stays in the store until its node reports the workload as
terminated.  As long as it is there it keeps the volumes, the secrets and the service it names from
being deleted.  The node makes that report out of an absence: the listing of the units shows none
for the workload.  A teardown may fail at any point on the way, and none of its errors is looked at.

* `terminated_means_gone_iff`: in every state of every run of a node, such a report says the truth
  and lets go of nothing before the workload has stopped, exactly when the listing it is made from
  succeeded or nothing is being deleted.
* `running_job_reported_terminated`: a manager that answers neither the stop nor the listing gets a
  running workload reported as terminated.
-/

namespace Horchestra.Agent

open Api Horchestra.Storage Admission Requests Nodeserver
open Foundations NameMap ServiceManager Checks

/-! ## Runs of a node -/

/-- The uid of every application that is pushed has the shape the store gives it. -/
def Event.Shaped : Event → Prop
  | .push _ applications _ => ∀ it ∈ applications, unitGlob it.metadata.uid = true
  | _ => True

def NodeStep (r : Runtime) (a a' : AgentState) : Prop :=
  ∃ event : Event, event.Shaped ∧ a' = r.step a event

variable {r : Runtime} {a a' : AgentState}

theorem reached_of_events (events : List Event) (shaped : ∀ ev ∈ events, ev.Shaped) :
    Relation.ReflTransGen (NodeStep r) a (events.foldl r.step a) := by
  induction events generalizing a with
  | nil => exact .refl
  | cons ev rest ih =>
    have first : NodeStep r a (r.step a ev) := ⟨ev, shaped ev (.head _), rfl⟩
    exact .head first (ih fun later mem =>
      shaped later (.tail _ mem))

/-- Every run that goes on has its unit, and every wanted workload has a uid that is listed. -/
structure Grounded (a : AgentState) : Prop where
  tracked : a.runtime.manager.Tracked
  shaped : ∀ id app, a.want[id]? = some app → unitGlob id = true

theorem grounded_empty : Grounded {} where
  tracked := Manager.tracked_empty
  shaped := by simp

theorem Grounded.step (grounded : Grounded a) (step : NodeStep r a a') : Grounded a' := by
  obtain ⟨ev, wellShaped, rfl⟩ := step
  refine ⟨step_manager Manager.invariant_tracked grounded.tracked ev, ?_⟩
  intro id app wanted
  obtain pre | ⟨_, _, _, rfl, it, pushed, rfl, _⟩ := wanted_of_step wanted
  · exact grounded.shaped id app pre
  · exact wellShaped it pushed

theorem Grounded.run (grounded : Grounded a) (run : Relation.ReflTransGen (NodeStep r) a a') :
    Grounded a' := by
  induction run with
  | refl => exact grounded
  | tail _ step ih => exact ih.step step

/-! ## What a report says about a deletion -/

section

variable {a : AgentState} {listing : Listing} {stale : String → Option String} {id : String}
  {app : App}

theorem observe_of_failed {e : String} (failed : listing.listed = .error e) :
    (a.observe listing)[id]? = none := by
  rw [AgentState.observe, Runtime.states, failed]
  simp

theorem unit_of_observe {state : WorkloadState} (shown : (a.observe listing)[id]? = some state) :
    ∃ loaded, state = stateOf listing a.runtime.runs id loaded := by
  obtain ⟨_, mem, named, rfl⟩ := exists_of_indexBy shown
  rw [Runtime.states] at mem
  split at mem
  · cases mem
  obtain ⟨⟨unit, loaded⟩, _, rfl⟩ := List.mem_map.1 mem
  obtain rfl : unit = id := by simpa using named
  exact ⟨loaded, rfl⟩

theorem unitPhase_ne_terminated (status : Status) : unitPhase status ≠ appPhaseTerminated := by
  rw [unitPhase]
  split
  · split <;> decide
  all_goals decide

/-- A workload is reported as terminated exactly when it is being deleted and is not observed. -/
theorem appStatus_terminated_iff :
    (a.appStatus listing stale id app).phase = appPhaseTerminated ↔
      app.deleting = true ∧ (a.observe listing)[id]? = none := by
  rw [AgentState.appStatus]
  dsimp only
  split
  next deleting =>
    cases (a.observe listing)[id]? with
    | none => simp [deleting]
    | some state => simp [appPhaseTerminating, appPhaseTerminated]
  rename_i live
  simp only [live, Bool.false_eq_true, false_and, iff_false]
  cases shown : (a.observe listing)[id]? with
  | none =>
    simp only [Option.getD_none]
    decide
  | some state =>
    obtain ⟨loaded, rfl⟩ := unit_of_observe shown
    simp only [Option.getD_some, stateOf_phase]
    split
    · exact unitPhase_ne_terminated loaded.status
    · decide

theorem units_of_unobserved (listed : listing.listed = .ok ()) (shaped : unitGlob id = true)
    (unseen : (a.observe listing)[id]? = none) : a.runtime.manager.units[id]? = none := by
  cases found : a.runtime.manager.units[id]? with
  | none => rfl
  | some loaded =>
    rw [observe_of_loaded listed shaped found] at unseen
    cases unseen

/-- Where no unit is loaded, every run of it is over. -/
theorem Grounded.stopped (grounded : Grounded a) (gone : a.runtime.manager.units[id]? = none) :
    ∀ l ∈ a.runtime.manager.launches, l.unit = id → l.ended = true := by
  intro l mem named
  refine grounded.tracked.ended ?_ mem named
  intro loaded found
  rw [gone] at found
  cases found

end

/-! ## What a stored application holds back -/

/-- What a running workload uses and another request could delete. -/
def Names (app : Application) : {k : Kind} → Obj k → Prop
  | .persistentVolume, (pv : PersistentVolume) =>
    pv.metadata.ns = app.metadata.ns ∧ mountsPV app pv.metadata.name = true
  | .secret, (secret : Secret) =>
    secret.metadata.ns = app.metadata.ns ∧ secret.metadata.name ∈ app.secretRefs
  | .service, (service : Service) =>
    service.metadata.ns = app.metadata.ns ∧ service.metadata.name = app.spec.serviceName
  | _, _ => False

/-- The store has let go of an application: its object is erased, or something it names may be
deleted. -/
def LetGo (db : DB) (app : Application) : Prop :=
  db.get .application app.metadata.ns app.metadata.name = none ∨
    ∃ (k : Kind) (o : Obj k) (who : Option Identity), Names app o ∧
      referenceCheck.validate k ⟨who, db⟩
        { operation := .delete, object := o, oldObject := some o } = .ok ()

section

variable {db : DB} {app stored : Application}

/-- While an application is stored, nothing it names may be deleted. -/
theorem not_letGo (named : app.metadata.name ≠ "")
    (hit : db.get .application app.metadata.ns app.metadata.name = some stored)
    (nsEq : stored.metadata.ns = app.metadata.ns)
    (nameEq : stored.metadata.name = app.metadata.name) (sameSpec : stored.spec = app.spec) :
    ¬ LetGo db app := by
  have listed : stored ∈ db.list .application := DB.mem_list.2 ⟨_, hit⟩
  rintro (erased | ⟨k, o, who, names, ok⟩)
  · rw [erased] at hit
    cases hit
  · cases k with
    | persistentVolume =>
      obtain ⟨ns, mounted⟩ := names
      have protection : pvProtectionRule ∈ referenceRules := by simp [referenceRules]
      have unused := checkPVProtection_eq_ok_iff.1 (check_of_referenceCheck ok rfl protection rfl)
      have unmounted := unused stored listed (nsEq.trans ns.symm) (nameEq ▸ named)
      rw [mountsPV, sameSpec, nameEq, ← mountsPV, mounted] at unmounted
      cases unmounted
    | secret =>
      obtain ⟨ns, referred⟩ := names
      have protection : secretProtectionRule ∈ referenceRules := by simp [referenceRules]
      have unused :=
        checkSecretProtection_eq_ok_iff.1 (check_of_referenceCheck ok rfl protection rfl)
      refine unused stored listed (nsEq.trans ns.symm) ?_
      rwa [Application.secretRefs, Application.secretRefsWith, sameSpec]
    | service =>
      obtain ⟨ns, declared⟩ := names
      have protection : serviceProtectionRule ∈ referenceRules := by simp [referenceRules]
      have unused :=
        checkServiceProtection_eq_ok_iff.1 (check_of_referenceCheck ok rfl protection rfl)
      exact unused stored listed (nsEq.trans ns.symm) (sameSpec ▸ declared.symm)
    | _ => exact names

theorem kept_of_not_terminated (chain : Chain) (now : Time) (n : String)
    {report : AppStatus} (other : report.phase ≠ appPhaseTerminated)
    (hit : db.get .application report.ns report.name = some app) :
    ∃ stored : Application,
      (applyAppStatus chain now db n report).1.get .application report.ns report.name =
        some stored ∧
      stored.metadata = app.metadata ∧ stored.spec = app.spec := by
  have unchanged : ∃ stored : Application, db.get .application report.ns report.name = some stored ∧
      stored.metadata = app.metadata ∧ stored.spec = app.spec := ⟨app, hit, rfl, rfl⟩
  rw [applyAppStatus, hit]
  dsimp only
  split
  · exact unchanged
  rw [andThenOn.eq_def]
  split
  next wrote =>
    simp only [updateSubresource, bind_eq_ok_iff, translated_eq_ok_iff, pure, Except.pure,
      Except.ok.injEq, Prod.exists] at wrote
    obtain ⟨o, _, out, _, updated, rfl⟩ := wrote
    rw [releaseTeardown, if_pos (by simp [other])]
    obtain ⟨old, found, -, rfl, step, -⟩ := DB.updateStatus_spec updated
    dsimp only
    by_cases eq : recordKey report.ns report.name = keyOf (k := .application) o
    · rw [DB.get, eq] at hit
      rw [DB.get, eq, step.here]
      rw [found] at hit
      cases hit
      exact ⟨_, rfl, rfl, rfl⟩
    rw [DB.get, step.elsewhere _ eq]
    exact unchanged
  · exact unchanged

end

/-! ## Terminated means gone -/

/-- Every workload that is being deleted and is reported as terminated is gone, and the report is
made from a listing that succeeded. -/
def TerminatedMeansGone (a : AgentState) (listing : Listing)
    (stale : String → Option String) : Prop :=
  ∀ id app, a.want[id]? = some app → app.deleting = true →
    (a.appStatus listing stale id app).phase = appPhaseTerminated →
      listing.listed = .ok () ∧ a.runtime.manager.units[id]? = none

/-- Whatever the control plane lets go of on a report about a workload, the workload has stopped. -/
def LetGoAfterStop (a : AgentState) (listing : Listing) (stale : String → Option String) : Prop :=
  ∀ (chain : Chain) (now : Time) (db : DB) (node id : String) (app : App) (stored : Application),
    Named db → a.want[id]? = some app → stored.metadata.uid = id →
    stored.metadata.ns = app.ns → stored.metadata.name = app.name →
    db.get .application app.ns app.name = some stored →
    LetGo (applyAppStatus chain now db node (a.appStatus listing stale id app)).1 stored →
      ∀ launch ∈ a.runtime.manager.launches, launch.unit = id → launch.ended = true

/-- **Terminated means gone, where the listing succeeds.** -/
theorem terminated_means_gone_iff (r : Runtime) (a : AgentState)
    (run : Relation.ReflTransGen (NodeStep r) {} a) (listing : Listing)
    (stale : String → Option String) :
    (TerminatedMeansGone a listing stale ∧ LetGoAfterStop a listing stale) ↔
      listing.listed = .ok () ∨ ∀ (id : String) (app : App), a.want[id]? = some app →
        app.deleting = false := by
  have grounded := grounded_empty.run run
  constructor
  · rintro ⟨gone, -⟩
    cases outcome : listing.listed with
    | ok => exact .inl rfl
    | error e =>
      right
      intro id app wanted
      by_contra deleting
      rw [Bool.not_eq_false] at deleting
      have terminated : (a.appStatus listing stale id app).phase = appPhaseTerminated :=
        appStatus_terminated_iff.2 ⟨deleting, observe_of_failed outcome⟩
      obtain ⟨listed, -⟩ := gone id app wanted deleting terminated
      rw [outcome] at listed
      cases listed
  intro condition
  have gone : TerminatedMeansGone a listing stale := by
    intro id app wanted deleting terminated
    obtain ⟨-, unseen⟩ := appStatus_terminated_iff.1 terminated
    rcases condition with listed | live
    · exact ⟨listed, units_of_unobserved listed (grounded.shaped id app wanted) unseen⟩
    rw [live id app wanted] at deleting
    cases deleting
  refine ⟨gone, ?_⟩
  intro chain now db node id app stored named wanted uid ns name present letGo
  by_cases terminated : (a.appStatus listing stale id app).phase = appPhaseTerminated
  · obtain ⟨deleting, -⟩ := appStatus_terminated_iff.1 terminated
    exact grounded.stopped (gone id app wanted deleting terminated).2
  obtain ⟨after, found, sameMeta, sameSpec⟩ :=
    kept_of_not_terminated chain now node terminated present
  refine absurd letGo (not_letGo (named .application _ stored present) ?_ (congrArg _ sameMeta) (congrArg _ sameMeta) sameSpec)
  rw [ns, name]
  exact found

/-! ## A job deleted while it runs -/

/-- The job as it is pushed once its deletion is asked for. -/
def nightlyDeleted : Application :=
  { nightly 1 with metadata := { (nightly 1).metadata with deletionTimestamp := some 7 } }

/-- The node after the pass that should have taken the running job down, with the answers of the
bus to the stop. -/
def nightlyTakenDown (removal : Bus) : AgentState :=
  [Event.push "node-a" [nightlyDeleted] fun _ => "", .turn nightlyId { removal }].foldl
    plainRuntime.step nightlyStarted

theorem nightlyTakenDown_reached (removal : Bus) :
    Relation.ReflTransGen (NodeStep plainRuntime) {} (nightlyTakenDown removal) := by
  have shaped (it : Application) (eq : it.metadata.uid = nightlyId) :
      (Event.push "node-a" [it] fun _ => "").Shaped := by
    intro other mem
    obtain rfl := List.mem_singleton.1 mem
    rw [eq]
    decide +kernel
  have up : Relation.ReflTransGen (NodeStep plainRuntime) {} nightlyStarted := by
    refine reached_of_events [pushNightly, .turn nightlyId {}] ?_
    simpa [Event.Shaped, pushNightly] using shaped (nightly 1) rfl
  refine up.trans (reached_of_events [.push "node-a" [nightlyDeleted] fun _ => "",
    .turn nightlyId { removal }] ?_)
  simpa [Event.Shaped] using shaped nightlyDeleted rfl

/-- The main result at a job that was stopped: it is reported as terminated, and it is gone. -/
theorem terminated_means_gone_iff_nightly :
    ((nightlyTakenDown {}).appStatus {} (fun _ => none) nightlyId
      (fromApplication nightlyDeleted)).phase = appPhaseTerminated ∧
    TerminatedMeansGone (nightlyTakenDown {}) {} (fun _ => none) ∧
    LetGoAfterStop (nightlyTakenDown {}) {} (fun _ => none) :=
  ⟨by decide +kernel,
    (terminated_means_gone_iff plainRuntime _ (nightlyTakenDown_reached {}) {} _).2 (.inl rfl)⟩

/-- **A manager that does not answer gets a running job reported as terminated.** -/
theorem running_job_reported_terminated :
    let lost : Bus := { connects := .error "connection refused" }
    let listing : Listing := { listed := .error "connection refused" }
    Relation.ReflTransGen (NodeStep plainRuntime) {} (nightlyTakenDown lost) ∧
    (nightlyTakenDown lost).want[nightlyId]? = some (fromApplication nightlyDeleted) ∧
    (fromApplication nightlyDeleted).deleting = true ∧
    ((nightlyTakenDown lost).appStatus listing (fun _ => none) nightlyId
      (fromApplication nightlyDeleted)).phase = appPhaseTerminated ∧
    ((nightlyTakenDown lost).runtime.manager.units[nightlyId]?.map (·.status.state)) =
      some .activating ∧
    ∃ launch ∈ (nightlyTakenDown lost).runtime.manager.launches, launch.unit = nightlyId ∧
      launch.ended = false := by
  refine ⟨nightlyTakenDown_reached _, ?_, ?_, ?_, ?_, ?_⟩ <;> decide +kernel

end Horchestra.Agent
