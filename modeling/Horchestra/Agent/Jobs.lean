import Horchestra.Agent.Reconcile

/-!
# When a job is finished

The control plane takes a job as finished when a report of its current generation carries a
terminal phase, and then no longer sends it to its node.  The report is put together from three
things the agent keeps apart: the phase from a listing of the units, the attempts from the retry
ledger, and the generation from its own record of what it converged last.

* `finished_after_exit` — in a run whose passes over a generation that was never started find the
  unit out of the way, and in a report whose listing succeeded, a job that is finished has run: a
  unit was started from that generation, and its main process has left.
* `running_job_reported_finished` — one listing that fails is enough to report a job finished
  while it runs.
-/

namespace Horchestra.Agent

open Api Nodeserver Foundations NameMap ServiceManager

/-! ## Runs in which the unit is out of the way -/

/-- Nothing keeps a call from starting the unit: there is none, or it is up with other properties
than the ones rendered now, and no start of this content is held off. -/
structure Unobstructed (r : Runtime) (answers : Answers) (s : State) (app : App)
    (rendered : Rendered) : Prop where
  unit : ∀ loaded, s.manager.units[app.uid]? = some loaded →
    loaded.status.up = true ∧
      appliedMatches (r.reports loaded.properties) rendered.properties
        (r.sandboxArgv app.uid rendered.sum) = false
  backoff : s.flap.holdsOff answers.now app.uid rendered.sum = false

theorem Unobstructed.not_leftAlone {r : Runtime} {answers : Answers} {s : State} {app : App}
    {rendered : Rendered} (free : Unobstructed r answers s app rendered) :
    ¬ r.LeftAlone answers s app rendered := by
  rintro (converged | held)
  · rw [Runtime.inspect] at converged
    split at converged
    · cases converged
    cases found : s.manager.units[app.uid]? with
    | none => simp [found] at converged
    | some loaded =>
      obtain ⟨up, ne⟩ := free.unit loaded found
      simp [found, up, ne] at converged
  · rw [free.backoff] at held
    cases held

/-- A run of the unit of a workload was started from a generation of it. -/
def AgentState.StartedFrom (a : AgentState) (id : String) (generation : Int) : Prop :=
  a.runtime.manager.Started id (·.generation = generation)

/-- A turn over a job at a generation it was not started from finds the unit out of the way. -/
def Event.Careful (r : Runtime) (a : AgentState) : Event → Prop
  | .turn name given => ∀ app app' volumes rendered, a.want[name]? = some app →
      app.lifecycle.runToCompletion = true → resolved given name app = .ok (app', volumes) →
      (r.prepare given.answers a.runtime.secretEnv app' volumes).2 = .ok rendered →
      a.StartedFrom name app.generation ∨ Unobstructed r given.answers a.runtime app' rendered
  | _ => True

/-- What a push of the control plane holds: the uid of an application has the shape the store
gives it, and its generation says which spec it is. -/
def Event.Lawful (specs : String → Int → ApplicationSpec) : Event → Prop
  | .push _ applications _ => ∀ it ∈ applications, unitGlob it.metadata.uid = true ∧
      it.spec = specs it.metadata.uid it.metadata.generation
  | _ => True

/-- One step of a run in which all pushes are lawful and all turns are careful. -/
def CarefulStep (r : Runtime) (specs : String → Int → ApplicationSpec) (a a' : AgentState) : Prop :=
  ∃ event : Event, event.Lawful specs ∧ event.Careful r a ∧ a' = r.step a event

/-! ## What holds along such a run -/

/-- Every run that goes on has its unit, every wanted workload is one that was pushed, and every
job has been started from the generation that is recorded as converged. -/
structure Sound (specs : String → Int → ApplicationSpec) (a : AgentState) : Prop where
  tracked : a.runtime.manager.Tracked
  wanted : ∀ id app, a.want[id]? = some app →
    app.uid = id ∧ unitGlob id = true ∧ app.lifecycle = (specs id app.generation).lifecycle
  applied : ∀ id generation, a.applied[id]? = some generation →
    (specs id generation).lifecycle.runToCompletion = true → a.StartedFrom id generation

section

variable {r : Runtime} {specs : String → Int → ApplicationSpec} {a : AgentState}

theorem sound_empty : Sound specs {} where
  tracked := Manager.tracked_empty
  wanted := by simp
  applied := by simp

theorem Sound.of_manager (sound : Sound specs a) {a' : AgentState}
    (sameWant : a'.want = a.want)
    (fewer : ∀ (id : String) (generation : Int), a'.applied[id]? = some generation →
      a.applied[id]? = some generation)
    (through : ∀ holds : Manager (List Property) Origin → Prop, Manager.Invariant holds → holds a.runtime.manager →
      holds a'.runtime.manager) : Sound specs a' where
  tracked := through _ Manager.invariant_tracked sound.tracked
  wanted := by
    rw [sameWant]
    exact sound.wanted
  applied id generation recorded job :=
    through _ (Manager.invariant_keeps _) (.refl _) id _
      (sound.applied id generation (fewer id generation recorded) job)

theorem Sound.tearDown (sound : Sound specs a) (bus : Bus) (name : String) :
    Sound specs (a.tearDown bus name) := by
  refine sound.of_manager rfl ?_ fun _ inv pre => remove_manager inv pre name
  intro id gen recorded
  rw [AgentState.tearDown, Std.ExtTreeMap.getElem?_erase] at recorded
  split at recorded
  · cases recorded
  · exact recorded

theorem Sound.sweep (sound : Sound specs a) (listing : Listing) (removal : String → Bus) :
    Sound specs (a.sweep listing removal) :=
  sweep_induction sound (fun sound _ _ => sound.tearDown _ _) listing removal

/-- What a turn converges is the workload itself but for its secret variables. -/
theorem resolved_eq_ok {turn : Turn} {name : String} {app app' : App} {vols : List Volume}
    (found : resolved turn name app = .ok (app', vols)) :
    ∃ secretEnv, app' = { app with secretEnv } := by
  rw [resolved] at found
  split at found
  · cases found
  split at found
  · cases found
  split at found
  · cases found
  cases found
  exact ⟨_, rfl⟩

/-- A careful call that reports no error leaves the job started from its generation. -/
theorem started_of_apply {ans : Answers} {s : State} {app : App} {vols : List Volume}
    (converged : (r.apply ans s app vols).2 = .ok ())
    (careful : ∀ made, (r.prepare ans s.secretEnv app vols).2 = .ok made →
      s.manager.Started app.uid (·.generation = app.generation) ∨ Unobstructed r ans s app made) :
    (r.apply ans s app vols).1.manager.Started app.uid (·.generation = app.generation) := by
  obtain ⟨eq, _, left⟩ | ⟨s₁, made, _, _, _, _, relaunched⟩ :=
    apply_cases r ans s app vols
  · obtain ⟨made, prepared, alone⟩ := left converged
    rcases careful made prepared with up | free
    · rwa [eq]
    · exact absurd alone free.not_leftAlone
  rw [relaunched] at converged ⊢
  exact relaunch_started converged

theorem Sound.turn (sound : Sound specs a) {name : String} {turn : Turn}
    (careful : (Event.turn name turn).Careful r a) {app : App} (hit : a.want[name]? = some app) :
    Sound specs (r.converge turn a name app).1 := by
  rw [Runtime.converge]
  split
  · exact sound.tearDown _ _
  split
  · exact sound
  split
  · exact sound
  rename_i found
  obtain ⟨secretEnv, rfl⟩ := resolved_eq_ok found
  rename_i vols
  obtain ⟨rfl, _, lifecycle⟩ := sound.wanted name app hit
  have through (holds : Manager (List Property) Origin → Prop)
      (inv : Manager.Invariant holds) (pre : holds a.runtime.manager) :
      holds (r.apply turn.answers a.runtime { app with secretEnv } vols).1.manager :=
    apply_manager inv pre
  split
  next runtime e res =>
    rw [res] at through
    exact sound.of_manager rfl (fun _ _ recorded => recorded) through
  rename_i runtime res
  have up (job : app.lifecycle.runToCompletion = true) :
      runtime.manager.Started app.uid (·.generation = app.generation) := by
    have converged : (r.apply turn.answers a.runtime { app with secretEnv } vols).2 = .ok () := by
      rw [res]
    have done := started_of_apply converged fun made prepared =>
      careful app { app with secretEnv } vols made hit job found prepared
    rwa [res] at done
  rw [res] at through
  have kept : Sound specs { a with runtime } :=
    sound.of_manager rfl (fun _ _ recorded => recorded) through
  refine ⟨kept.tracked, kept.wanted, ?_⟩
  intro id gen recorded job
  dsimp only at recorded
  rw [Std.ExtTreeMap.getElem?_insert] at recorded
  split at recorded
  next eq =>
    obtain rfl : app.uid = id := Std.LawfulEqCmp.eq_of_compare eq
    cases recorded
    apply up
    rwa [lifecycle]
  · exact kept.applied id gen recorded job

theorem Sound.push (sound : Sound specs a) {n : String} {apps : List Application}
    {addr : String → String} (lawful : (Event.push n apps addr).Lawful specs) :
    Sound specs { a with want := appsForNode (pushedApps apps addr) n } := by
  refine ⟨sound.tracked, ?_, sound.applied⟩
  intro id app hit
  obtain ⟨mem, rfl⟩ := mem_of_appsForNode hit
  obtain ⟨it, pushed, rfl⟩ := List.mem_map.1 mem
  obtain ⟨shaped, specified⟩ := lawful it pushed
  exact ⟨rfl, shaped, congrArg ApplicationSpec.lifecycle specified⟩

theorem Sound.step {a' : AgentState} (sound : Sound specs a) (step : CarefulStep r specs a a') :
    Sound specs a' := by
  obtain ⟨ev, lawful, careful, rfl⟩ := step
  cases ev with
  | push n apps addr => exact sound.push lawful
  | turn name turn =>
    rw [Runtime.step]
    cases hit : a.want[name]? with
    | none => exact sound
    | some app => exact sound.turn careful hit
  | sweep listing removal => exact sound.sweep listing removal
  | unit name change =>
    refine sound.of_manager rfl (fun _ _ recorded => recorded) fun _ inv pre => ?_
    cases change with
    | some status => exact inv.move pre name status
    | none => exact inv.unload pre name
  | restart => exact ⟨sound.tracked, by simp [Runtime.step], by simp [Runtime.step]⟩
  | reboot =>
    exact ⟨Manager.invariant_tracked.reboot sound.tracked, by simp [Runtime.step],
      by simp [Runtime.step]⟩

theorem Sound.run {a' : AgentState} (sound : Sound specs a)
    (run : Relation.ReflTransGen (CarefulStep r specs) a a') : Sound specs a' := by
  induction run with
  | refl => exact sound
  | tail _ step ih => exact ih.step step

end

/-! ## What a report says -/

section

variable {a : AgentState} {listing : Listing} {stale : String → Option String}

@[simp] theorem stateOf_id (runs : RunLedger) (id : String) (loaded : Loaded (List Property)) :
    (stateOf listing runs id loaded).id = id := by
  rw [stateOf]
  split <;> rfl

@[simp] theorem stateOf_phase (runs : RunLedger) (id : String) (loaded : Loaded (List Property)) :
    (stateOf listing runs id loaded).phase = unitPhase loaded.status := by
  rw [stateOf]
  split <;> rfl

theorem observe_of_loaded (listed : listing.listed = .ok ()) {id : String}
    (shaped : unitGlob id = true) {loaded : Loaded (List Property)}
    (found : a.runtime.manager.units[id]? = some loaded) :
    (a.observe listing)[id]? = some (stateOf listing a.runtime.runs id loaded) := by
  have mem : stateOf listing a.runtime.runs id loaded ∈ (Runtime.states listing a.runtime).1 := by
    rw [Runtime.states, listed]
    refine List.mem_map.2 ⟨(id, loaded), List.mem_filter.2 ⟨?_, shaped⟩, rfl⟩
    exact Std.ExtTreeMap.mem_toList_iff_getElem?_eq_some.2 found
  have nodup : ((Runtime.states listing a.runtime).1.map (·.id)).Nodup := by
    rw [Runtime.states, listed]
    simp only [List.map_map, Function.comp_def, stateOf_id]
    refine List.Pairwise.map _ ?_ (Std.ExtTreeMap.distinct_keys_toList.filter _)
    intro first later ne eq
    exact ne (by simp [eq])
  have shown : (a.observe listing)[(stateOf listing a.runtime.runs id loaded).id]? = some _ :=
    indexBy_of_mem nodup mem
  rwa [stateOf_id] at shown

theorem unitPhase_of_going {status : Status} (going : status.ended = false) :
    unitPhase status = appPhaseRunning := by
  obtain ⟨state, exited, _⟩ := status
  cases state <;> simp_all [Status.ended, unitPhase]

/-- A report that is terminal for a job comes from a unit that has ended, or from none. -/
theorem ended_of_terminal (listed : listing.listed = .ok ()) {id : String}
    (shaped : unitGlob id = true) {app : App} {lifecycle : Lifecycle} {attempts : Int}
    (terminal : terminalPhase (a.appStatus listing stale id app).phase lifecycle attempts = true)
    (loaded : Loaded (List Property)) (found : a.runtime.manager.units[id]? = some loaded) :
    loaded.status.ended = true := by
  by_contra notEnded
  have going : unitPhase loaded.status = appPhaseRunning :=
    unitPhase_of_going (by simpa using notEnded)
  have phase : (a.appStatus listing stale id app).phase =
      if app.deleting then appPhaseTerminating else appPhaseRunning := by
    simp [AgentState.appStatus, observe_of_loaded listed shaped found, going, appPhaseRunning]
  rw [phase] at terminal
  split at terminal <;>
    simp [terminalPhase, appPhaseRunning, appPhaseTerminating, appPhaseSucceeded,
      appPhaseFailed] at terminal

theorem applied_of_observedGeneration {id : String} {app : App} {generation : Int}
    (pos : 1 ≤ generation)
    (observed : (a.appStatus listing stale id app).observedGeneration = generation) :
    a.applied[id]? = some generation := by
  have recorded : a.applied.getD id 0 = generation := observed
  rw [Std.ExtTreeMap.getD_eq_getD_getElem?] at recorded
  cases hit : a.applied[id]? with
  | none =>
    rw [hit, Option.getD_none] at recorded
    omega
  | some applied => rw [← recorded, hit, Option.getD_some]

end

/-- An application as the control plane keeps it after a report of its node. -/
def reported (application : Application) (report : AppStatus) : Application :=
  { application with status := statusOf application report }

theorem finished_reported_iff (application : Application) (report : AppStatus) :
    (reported application report).finished = true ↔
      terminalPhase report.phase application.spec.lifecycle report.attempts = true ∧
        report.observedGeneration = application.metadata.generation := by
  simp [reported, statusOf, Application.finished]

/-- **A job is reported finished only after it ran to completion on that spec.** -/
theorem finished_after_exit (r : Runtime) (specs : String → Int → ApplicationSpec) (a : AgentState)
    (run : Relation.ReflTransGen (CarefulStep r specs) {} a) (listing : Listing)
    (listed : listing.listed = .ok ()) (stale : String → Option String) (id : String) (app : App)
    (wanted : a.want[id]? = some app) (application : Application)
    (specified : application.spec = specs id application.metadata.generation)
    (counted : 1 ≤ application.metadata.generation)
    (job : application.spec.lifecycle.runToCompletion = true)
    (finished : (reported application (a.appStatus listing stale id app)).finished = true) :
    ∃ launch ∈ a.runtime.manager.launches, launch.unit = id ∧
      launch.origin.generation = application.metadata.generation ∧ launch.ended = true := by
  have sound := sound_empty.run run
  obtain ⟨-, shaped, -⟩ := sound.wanted id app wanted
  obtain ⟨terminal, observed⟩ := (finished_reported_iff _ _).1 finished
  have recorded := applied_of_observedGeneration counted observed
  obtain ⟨launch, member, named, from_⟩ := sound.applied id _ recorded (specified ▸ job)
  exact ⟨launch, member, named, from_,
    sound.tracked.ended (ended_of_terminal listed shaped terminal) member named⟩

/-! ## A job with no retries -/

def nightlyId : String := "5a3f0c1e-7b2d-4e69-8c10-2f9d4b6a7e31"

/-- A job that is not retried; each generation of it runs another version. -/
def nightly (generation : Int) : Application where
  metadata := { ns := "team", name := "nightly", uid := nightlyId, generation }
  spec :=
    { image := "registry.local/nightly", command := ["/bin/nightly", toString generation]
      lifecycle := { restartPolicy := restartNever }, placement := { nodeName := "node-a" } }

def pushNightly : Event := .push "node-a" [nightly 1] fun _ => ""

/-- The node after one pass over the job: its unit is on its way up. -/
def nightlyStarted : AgentState := [pushNightly, .turn nightlyId {}].foldl plainRuntime.step {}

/-- The node after the main process of the job has left with an error. -/
def nightlyFailed : AgentState :=
  plainRuntime.step nightlyStarted (.unit nightlyId (some { state := .failed }))

theorem running_job_reported_finished :
    (reported (nightly 1) (nightlyStarted.appStatus { listed := .error "connection refused" }
      (fun _ => none) nightlyId (fromApplication (nightly 1)))).finished = true ∧
    nightlyStarted.want[nightlyId]? = some (fromApplication (nightly 1)) ∧
    (nightly 1).spec.lifecycle.runToCompletion = true ∧
    ¬ ∃ launch ∈ nightlyStarted.runtime.manager.launches, launch.unit = nightlyId ∧
      launch.origin.generation = 1 ∧ launch.ended = true := by
  refine ⟨?_, ?_, ?_, ?_⟩ <;> decide +kernel

theorem nightlyFailed_reached (specs : String → Int → ApplicationSpec)
    (specified : (nightly 1).spec = specs nightlyId 1) :
    Relation.ReflTransGen (CarefulStep plainRuntime specs) {} nightlyFailed := by
  have pushed : CarefulStep plainRuntime specs {} (plainRuntime.step {} pushNightly) := by
    refine ⟨pushNightly, ?_, trivial, rfl⟩
    intro it mem
    obtain rfl : it = nightly 1 := by simpa using mem
    exact ⟨by decide +kernel, specified⟩
  have turned : CarefulStep plainRuntime specs (plainRuntime.step {} pushNightly) nightlyStarted := by
    refine ⟨.turn nightlyId {}, trivial, ?_, rfl⟩
    intro app app' vols made _ _ _ _
    exact .inr ⟨by simp [pushNightly, Runtime.step], rfl⟩
  have failed : CarefulStep plainRuntime specs nightlyStarted nightlyFailed :=
    ⟨.unit nightlyId (some { state := .failed }), trivial, trivial, rfl⟩
  exact ((Relation.ReflTransGen.single pushed).tail turned).tail failed

/-- The main result at a job that has failed, reported from a listing that succeeds. -/
theorem finished_after_exit_nightly :
    (reported (nightly 1) (nightlyFailed.appStatus {} (fun _ => none) nightlyId
      (fromApplication (nightly 1)))).finished = true ∧
    ∃ launch ∈ nightlyFailed.runtime.manager.launches, launch.unit = nightlyId ∧
      launch.origin.generation = 1 ∧ launch.ended = true := by
  have finished : (reported (nightly 1) (nightlyFailed.appStatus {} (fun _ => none) nightlyId
      (fromApplication (nightly 1)))).finished = true := by decide +kernel
  exact ⟨finished, finished_after_exit plainRuntime (fun _ _ => (nightly 1).spec) nightlyFailed
    (nightlyFailed_reached _ rfl) {} rfl _ nightlyId (fromApplication (nightly 1))
    (by decide +kernel) (nightly 1) rfl (by decide) rfl finished⟩

end Horchestra.Agent
