import Horchestra.Agent.Jobs

/-!
# The retry budget of a job

A job may be started once, and again for every retry it is allowed.  The node counts the starts in
a ledger that dies with the agent; what it reported of it comes back with the object, as a floor.
The budget is asked in one place only: where the unit of the job is loaded and has failed.  Every
other reason to start a unit (there is none, its variables are others, it is up with other
properties, the manager does not answer) starts a job without asking.

* `starts_within_budget`: a run stays within the budget when the attempts that are pushed or the
  ledger account for every start, and when a pass over a job whose budget is spent finds its unit in
  place.
* `rebooted_job_exceeds_budget`: a job with no retries that runs while its node reboots is started
  again.
-/

namespace Horchestra.Agent

open Api Nodeserver Foundations NameMap ServiceManager

theorem retries_nonneg (lifecycle : Lifecycle) : 0 ≤ lifecycle.retries := by
  rw [Lifecycle.retries]
  split
  · exact le_rfl
  · split <;> omega

/-! ## Starts and what the ledger says of them -/

/-- Two states agree about the runs of a workload. -/
structure SameRuns (id : String) (s s' : State) : Prop where
  starts : s'.manager.starts id = s.manager.starts id
  count : s'.runs.count id = s.runs.count id

section

variable {r : Runtime} {answers : Answers} {s : State} {app : App} {volumes : List Volume}
variable {rendered : Rendered} {id : String}

theorem starts_stopped {bus : Bus} {m : Manager (List Property) Origin} {unit : String} :
    (bus.stopped m unit).starts id = m.starts id := by
  rw [Bus.stopped]
  split <;> split <;> simp

theorem relaunch_starts (job : app.lifecycle.runToCompletion = true) :
    ((r.relaunch answers s app rendered).1.manager.starts app.uid = s.manager.starts app.uid ∧
      (s.runs.count app.uid).1 ≤ ((r.relaunch answers s app rendered).1.runs.count app.uid).1) ∨
    ((r.relaunch answers s app rendered).1.manager.starts app.uid = s.manager.starts app.uid + 1 ∧
      ((r.relaunch answers s app rendered).1.runs.count app.uid).1 =
        (s.runs.count app.uid).1 + 1) := by
  rw [Runtime.relaunch]
  split
  · exact .inl ⟨rfl, le_rfl⟩
  dsimp only
  split
  · exact .inl ⟨starts_stopped, le_rfl⟩
  rw [if_pos job]
  split
  · refine .inl ⟨starts_stopped, ?_⟩
    rw [count_start]
    exact Int.le_add_one le_rfl
  refine .inr ⟨?_, ?_⟩
  · rw [Manager.starts_start_self]
    exact congrArg (· + 1) starts_stopped
  · rw [count_start]

theorem relaunch_elsewhere (ne : id ≠ app.uid) :
    SameRuns id s (r.relaunch answers s app rendered).1 := by
  have counted : (if app.lifecycle.runToCompletion then s.runs.start app.uid else s.runs).count id =
      s.runs.count id := by
    split
    · exact count_start_of_ne _ ne
    · rfl
  rw [Runtime.relaunch]
  split
  · exact ⟨rfl, rfl⟩
  dsimp only
  split
  · exact ⟨starts_stopped, rfl⟩
  split
  · exact ⟨starts_stopped, counted⟩
  · exact ⟨(Manager.starts_start_of_ne ne).trans starts_stopped, counted⟩

theorem seedRuns_elsewhere {runs : RunLedger} (ne : id ≠ app.uid) :
    (seedRuns runs app).count id = runs.count id := by
  rw [seedRuns]
  split
  · exact count_seed_of_ne _ ne _ _
  · rfl

theorem apply_elsewhere (ne : id ≠ app.uid) :
    SameRuns id s (r.apply answers s app volumes).1 := by
  obtain ⟨manager, runs, _⟩ | ⟨s₁, rendered, manager, runs, _, _, relaunched⟩ :=
    apply_cases r answers s app volumes
  · refine ⟨by rw [manager], ?_⟩
    rcases runs with eq | seeded
    · rw [eq]
    · rw [seeded, seedRuns_elsewhere ne]
  rw [relaunched]
  obtain ⟨starts, count⟩ := relaunch_elsewhere (r := r) (s := s₁) ne
  exact ⟨by rw [starts, manager], by rw [count, runs, seedRuns_elsewhere ne]⟩

@[simp] theorem remove_starts {bus : Bus} {name : String} :
    (Runtime.remove bus s name).manager.starts id = s.manager.starts id := by
  rw [Runtime.remove]
  dsimp only
  split
  · rfl
  · split <;> split <;> simp

theorem remove_elsewhere {bus : Bus} {name : String} (ne : id ≠ name) :
    SameRuns id s (Runtime.remove bus s name) :=
  ⟨remove_starts, count_forget_of_ne _ ne⟩

theorem count_seedRuns (runs : RunLedger) (job : app.lifecycle.runToCompletion = true) :
    (seedRuns runs app).count app.uid =
      (max (runs.count app.uid).1 app.attempts, app.lifecycle.retries) := by
  rw [seedRuns, if_pos job, count_seed]

end

/-! ## A pass that asks the budget -/

/-- The unit of a job is in place: the manager answers, it holds the unit, the set of secret
variables is the one written last, and a unit that is up has the properties rendered now. -/
structure Settled (r : Runtime) (answers : Answers) (s : State) (app : App) (rendered : Rendered) :
    Prop where
  sameVariables : rendered.rotated = false
  connects : answers.look.connects = true
  activeState : answers.look.activeState = true
  loadState : answers.look.loadState = true
  properties : answers.look.properties = true
  unit : ∃ loaded, s.manager.units[app.uid]? = some loaded ∧
    (loaded.status.up = true → appliedMatches (r.reports loaded.properties) rendered.properties
      (r.sandboxArgv app.uid rendered.sum) = true)

/-- A job whose budget is spent and whose unit is in place gives no reason to start it. -/
theorem Settled.not_findsDrift {r : Runtime} {answers : Answers} {s : State} {app : App}
    {rendered : Rendered} (settled : Settled r answers s app rendered)
    (job : app.lifecycle.runToCompletion = true)
    (spent : (seedRuns s.runs app).spent app.uid = true) :
    ¬ r.FindsDrift answers s app rendered := by
  obtain ⟨loaded, found, eq⟩ := settled.unit
  rintro (rotated | drifted)
  · rw [settled.sameVariables] at rotated
    cases rotated
  · rw [Runtime.inspect, settled.connects, settled.activeState, found] at drifted
    cases up : loaded.status.up with
    | true => simp [up, settled.properties, eq up] at drifted
    | false => simp [up, job, settled.loadState, spent] at drifted

/-- A call that starts a job no more often than the budget allows: none was started yet, a run is
left, or the unit is in place. -/
def Runtime.AsksBudget (r : Runtime) (answers : Answers) (s : State) (app : App)
    (rendered : Rendered) : Prop :=
  s.manager.starts app.uid = 0 ∨ (seedRuns s.runs app).spent app.uid = false ∨
    Settled r answers s app rendered

/-- **One call keeps to the budget.**  If the ledger or the reported attempts account for every
start, they do so afterwards, and the starts stay within the budget. -/
theorem apply_within_budget {r : Runtime} {answers : Answers} {s : State} {app : App}
    {volumes : List Volume} (job : app.lifecycle.runToCompletion = true)
    (acc : (s.manager.starts app.uid : Int) ≤ max app.attempts (s.runs.count app.uid).1)
    (bounded : (s.manager.starts app.uid : Int) ≤ 1 + app.lifecycle.retries)
    (asks : ∀ rendered, (r.prepare answers s.secretEnv app volumes).2 = .ok rendered →
      r.AsksBudget answers s app rendered) :
    ((r.apply answers s app volumes).1.manager.starts app.uid : Int) ≤
        max app.attempts ((r.apply answers s app volumes).1.runs.count app.uid).1 ∧
      ((r.apply answers s app volumes).1.manager.starts app.uid : Int) ≤
        1 + app.lifecycle.retries := by
  have seeded := congrArg Prod.fst (count_seedRuns s.runs job)
  obtain ⟨manager, runs, _⟩ | ⟨s₁, rendered, manager, runs, prepared, drift, relaunched⟩ :=
    apply_cases r answers s app volumes
  · rw [manager]
    refine ⟨?_, bounded⟩
    rcases runs with eq | eq
    · rwa [eq]
    rw [eq, seeded]
    omega
  rw [relaunched]
  obtain ⟨starts, counted⟩ | ⟨starts, counted⟩ := relaunch_starts (r := r) (s := s₁) job
  · rw [starts, manager]
    rw [runs, seeded] at counted
    exact ⟨by omega, bounded⟩
  rw [starts, manager, counted, runs, seeded]
  refine ⟨by omega, ?_⟩
  rcases asks rendered prepared with first | left | settled
  · have nonneg := retries_nonneg app.lifecycle
    omega
  · rw [RunLedger.spent, count_seedRuns s.runs job] at left
    simp only [decide_eq_false_iff_not, not_lt] at left
    omega
  · have spent : (seedRuns s.runs app).spent app.uid = true → False := fun spent =>
      settled.not_findsDrift job spent drift
    rw [RunLedger.spent, count_seedRuns s.runs job] at spent
    simp only [decide_eq_true_eq, imp_false, not_lt] at spent
    omega

/-! ## Runs that keep to the budget -/

/-- The lifecycle of a pushed job is the one it has, and the attempts it carries or the ledger
account for every start of it. -/
def Event.Accounted (id : String) (lifecycle : Lifecycle) (a : AgentState) : Event → Prop
  | .push _ applications _ => ∀ it ∈ applications, it.metadata.uid = id →
      it.spec.lifecycle = lifecycle ∧
        (a.runtime.manager.starts id : Int) ≤ max it.status.attempts (a.runtime.runs.count id).1
  | _ => True

def Event.AsksBudget (r : Runtime) (id : String) (a : AgentState) : Event → Prop
  | .turn name given => name = id → ∀ app app' volumes rendered, a.want[id]? = some app →
      resolved given id app = .ok (app', volumes) →
      (r.prepare given.answers a.runtime.secretEnv app' volumes).2 = .ok rendered →
      r.AsksBudget given.answers a.runtime app' rendered
  | _ => True

/-- One step of a node on which a job is accounted for and its budget is asked. -/
def BudgetStep (r : Runtime) (id : String) (lifecycle : Lifecycle) (a a' : AgentState) : Prop :=
  ∃ event : Event, event.Accounted id lifecycle a ∧ event.AsksBudget r id a ∧ a' = r.step a event

/-- What holds along such a run. -/
structure WithinBudget (id : String) (lifecycle : Lifecycle) (a : AgentState) : Prop where
  named : ∀ (name : String) (app : App), a.want[name]? = some app → app.uid = name
  sameLifecycle : ∀ app : App, a.want[id]? = some app → app.lifecycle = lifecycle
  accounted : ∀ app : App, a.want[id]? = some app → app.deleting = false →
    (a.runtime.manager.starts id : Int) ≤ max app.attempts (a.runtime.runs.count id).1
  bounded : (a.runtime.manager.starts id : Int) ≤ 1 + lifecycle.retries

section

variable {r : Runtime} {id : String} {lifecycle : Lifecycle} {a : AgentState}

theorem WithinBudget.of_sameRuns (within : WithinBudget id lifecycle a) {a' : AgentState}
    (want : a'.want = a.want) (eq : SameRuns id a.runtime a'.runtime) :
    WithinBudget id lifecycle a' where
  named := by
    rw [want]
    exact within.named
  sameLifecycle := by
    rw [want]
    exact within.sameLifecycle
  accounted := by
    rw [want, eq.starts, eq.count]
    exact within.accounted
  bounded := by
    rw [eq.starts]
    exact within.bounded

/-- A change that starts nothing keeps what holds when no live job is wanted. -/
theorem WithinBudget.of_starts (within : WithinBudget id lifecycle a) {a' : AgentState}
    (fewer : ∀ (name : String) (app : App), a'.want[name]? = some app → a.want[name]? = some app)
    (eq : a'.runtime.manager.starts id = a.runtime.manager.starts id)
    (down : ∀ app : App, a'.want[id]? = some app → app.deleting = true) :
    WithinBudget id lifecycle a' where
  named name app wanted := within.named name app (fewer name app wanted)
  sameLifecycle app wanted := within.sameLifecycle app (fewer id app wanted)
  accounted app wanted live := by
    rw [down app wanted] at live
    cases live
  bounded := by
    rw [eq]
    exact within.bounded

theorem WithinBudget.apply (job : lifecycle.runToCompletion = true)
    (within : WithinBudget id lifecycle a) {app app' : App} (hit : a.want[id]? = some app)
    (live : app.deleting = false) {secretEnv : List String} (eq : app' = { app with secretEnv })
    {answers : Answers} {volumes : List Volume}
    (asks : ∀ rendered, (r.prepare answers a.runtime.secretEnv app' volumes).2 = .ok rendered →
      r.AsksBudget answers a.runtime app' rendered) :
    ((r.apply answers a.runtime app' volumes).1.manager.starts id : Int) ≤
        max app.attempts ((r.apply answers a.runtime app' volumes).1.runs.count id).1 ∧
      ((r.apply answers a.runtime app' volumes).1.manager.starts id : Int) ≤
        1 + lifecycle.retries := by
  obtain rfl := within.named id app hit
  obtain rfl := within.sameLifecycle app hit
  subst eq
  exact apply_within_budget job (within.accounted app hit live) within.bounded asks

theorem WithinBudget.turn (job : lifecycle.runToCompletion = true)
    (within : WithinBudget id lifecycle a) {name : String} {turn : Turn}
    (asks : (Event.turn name turn).AsksBudget r id a) {app : App}
    (hit : a.want[name]? = some app) :
    WithinBudget id lifecycle (r.converge turn a name app).1 := by
  obtain rfl := within.named name app hit
  obtain eq | ⟨deleting, eq⟩ | ⟨app', volumes, live, found, eq⟩ :=
    converge_runtime (r := r) (a := a) turn app.uid app
  · refine within.of_sameRuns (converge_want turn app.uid app) ?_
    rw [eq]
    exact ⟨rfl, rfl⟩
  · by_cases own : id = app.uid
    · subst own
      refine within.of_starts ?_ ?_ ?_
      · intro name other wanted
        rwa [converge_want] at wanted
      · rw [eq, remove_starts]
      · intro other wanted
        rw [converge_want, hit] at wanted
        cases wanted
        exact deleting
    · refine within.of_sameRuns (converge_want turn app.uid app) ?_
      rw [eq]
      exact remove_elsewhere own
  · obtain ⟨secretEnv, rfl⟩ := resolved_eq_ok found
    by_cases own : id = app.uid
    · subst own
      obtain ⟨acc, bounded⟩ := within.apply job hit live rfl fun rendered prepared =>
        asks rfl app { app with secretEnv } volumes rendered hit found prepared
      refine ⟨?_, ?_, ?_, ?_⟩
      · rw [converge_want]
        exact within.named
      · rw [converge_want]
        exact within.sameLifecycle
      · intro other wanted _
        rw [converge_want, hit] at wanted
        cases wanted
        rwa [eq]
      · rwa [eq]
    refine within.of_sameRuns (converge_want turn app.uid app) ?_
    rw [eq]
    exact apply_elsewhere own

theorem sweep_starts (listing : Listing) (removal : String → Bus) :
    (a.sweep listing removal).runtime.manager.starts id = a.runtime.manager.starts id :=
  sweep_induction (motive := fun a' => a'.runtime.manager.starts id = a.runtime.manager.starts id) rfl
    (fun eq _ _ => remove_starts.trans eq) listing removal

theorem sweep_elsewhere (wanted : a.want.contains id = true) (listing : Listing)
    (removal : String → Bus) : SameRuns id a.runtime (a.sweep listing removal).runtime := by
  refine (sweep_induction (motive := fun a' => a'.want = a.want ∧ SameRuns id a.runtime a'.runtime)
    ⟨rfl, rfl, rfl⟩ ?_ listing removal).2
  rintro a' id' ⟨sameWant, eq⟩ unwanted bus
  have ne : id ≠ id' := by
    rintro rfl
    exact unwanted (sameWant ▸ wanted)
  have torn : SameRuns id a'.runtime (a'.tearDown bus id').runtime := remove_elsewhere ne
  exact ⟨sameWant, torn.starts.trans eq.starts, torn.count.trans eq.count⟩

theorem WithinBudget.sweep (within : WithinBudget id lifecycle a) (listing : Listing)
    (removal : String → Bus) : WithinBudget id lifecycle (a.sweep listing removal) := by
  by_cases wanted : a.want.contains id = true
  · exact within.of_sameRuns (sweep_want listing removal) (sweep_elsewhere wanted listing removal)
  refine within.of_starts ?_ (sweep_starts listing removal) ?_
  · intro name app hit
    rwa [sweep_want] at hit
  intro app hit
  rw [sweep_want] at hit
  rw [Std.ExtTreeMap.contains_eq_isSome_getElem?, hit] at wanted
  contradiction

theorem WithinBudget.push (within : WithinBudget id lifecycle a) {n : String}
    {apps : List Application} {addr : String → String}
    (acc : (Event.push n apps addr).Accounted id lifecycle a) :
    WithinBudget id lifecycle { a with want := appsForNode (pushedApps apps addr) n } := by
  have pushed (app : App)
      (wanted : (appsForNode (pushedApps apps addr) n)[id]? = some app) :
      app.lifecycle = lifecycle ∧
        (a.runtime.manager.starts id : Int) ≤ max app.attempts (a.runtime.runs.count id).1 := by
    obtain ⟨mem, named⟩ := mem_of_appsForNode wanted
    obtain ⟨it, given, rfl⟩ := List.mem_map.1 mem
    exact acc it given named
  refine ⟨?_, ?_, ?_, within.bounded⟩
  · intro name app wanted
    exact (mem_of_appsForNode wanted).2
  · intro app wanted
    exact (pushed app wanted).1
  · intro app wanted _
    exact (pushed app wanted).2

theorem WithinBudget.step (job : lifecycle.runToCompletion = true) {a' : AgentState}
    (within : WithinBudget id lifecycle a) (step : BudgetStep r id lifecycle a a') :
    WithinBudget id lifecycle a' := by
  obtain ⟨ev, acc, asks, rfl⟩ := step
  cases ev with
  | push n apps addr => exact within.push acc
  | turn name turn =>
    rw [Runtime.step]
    cases hit : a.want[name]? with
    | none => exact within
    | some app => exact within.turn job asks hit
  | sweep listing removal => exact within.sweep listing removal
  | unit name change =>
    refine within.of_sameRuns rfl ⟨?_, rfl⟩
    cases change with
    | some status => exact Manager.starts_move
    | none => exact Manager.starts_unload
  | restart => exact within.of_starts (by simp [Runtime.step]) rfl (by simp [Runtime.step])
  | reboot =>
    exact within.of_starts (by simp [Runtime.step]) Manager.starts_reboot (by simp [Runtime.step])

end

theorem withinBudget_empty (id : String) (lifecycle : Lifecycle) : WithinBudget id lifecycle {} where
  named := by simp
  sameLifecycle := by simp
  accounted := by simp
  bounded := by
    have nonneg := retries_nonneg lifecycle
    change (0 : Int) ≤ 1 + lifecycle.retries
    omega

/-- **A job never exceeds its retry budget.** -/
theorem starts_within_budget (r : Runtime) (id : String) (lifecycle : Lifecycle)
    (job : lifecycle.runToCompletion = true) (a : AgentState)
    (run : Relation.ReflTransGen (BudgetStep r id lifecycle) {} a) :
    (a.runtime.manager.starts id : Int) ≤ 1 + lifecycle.retries := by
  have within : WithinBudget id lifecycle a := by
    induction run with
    | refl => exact withinBudget_empty id lifecycle
    | tail _ step ih => exact ih.step job step
  exact within.bounded

/-- The main result at a job with no retries that has run and failed. -/
theorem starts_within_budget_nightly : nightlyFailed.runtime.manager.starts nightlyId = 1 ∧
    (nightlyFailed.runtime.manager.starts nightlyId : Int) ≤
      1 + (nightly 1).spec.lifecycle.retries := by
  refine ⟨by decide +kernel, starts_within_budget plainRuntime nightlyId
    (nightly 1).spec.lifecycle rfl nightlyFailed ?_⟩
  have pushed : BudgetStep plainRuntime nightlyId (nightly 1).spec.lifecycle {}
      (plainRuntime.step {} pushNightly) := by
    refine ⟨pushNightly, ?_, trivial, rfl⟩
    intro it member _
    obtain rfl : it = nightly 1 := by simpa using member
    exact ⟨rfl, by decide +kernel⟩
  have turned : BudgetStep plainRuntime nightlyId (nightly 1).spec.lifecycle
      (plainRuntime.step {} pushNightly) nightlyStarted := by
    refine ⟨.turn nightlyId {}, trivial, ?_, rfl⟩
    intro _ app app' volumes rendered _ _ _
    exact .inl rfl
  have failed : BudgetStep plainRuntime nightlyId (nightly 1).spec.lifecycle nightlyStarted
      nightlyFailed := ⟨.unit nightlyId (some { state := .failed }), trivial, trivial, rfl⟩
  exact ((Relation.ReflTransGen.single pushed).tail turned).tail failed

/-! ## A job on a node that reboots -/

/-- The object of a job after its node has reported on it. -/
def nightlyReported (a : AgentState) (application : Application) : Application :=
  reported application (a.appStatus {} (fun _ => none) nightlyId (fromApplication application))

/-- The node after a reboot and one more pass over the job, pushed as it was last reported. -/
def nightlyRebooted : AgentState :=
  [Event.reboot, .push "node-a" [nightlyReported nightlyStarted (nightly 1)] fun _ => "",
    .turn nightlyId {}].foldl plainRuntime.step nightlyStarted

/-- **A job that is running when its node reboots is started beyond its budget.**  It has no retries,
and its one start has been reported before the reboot. -/
theorem rebooted_job_exceeds_budget :
    (nightly 1).spec.lifecycle.runToCompletion = true ∧ (nightly 1).spec.lifecycle.retries = 0 ∧
    nightlyStarted.runtime.manager.starts nightlyId = 1 ∧
    (nightlyReported nightlyStarted (nightly 1)).status.attempts = 1 ∧
    (nightlyReported nightlyStarted (nightly 1)).finished = false ∧
    (nightlyReported nightlyStarted (nightly 1)).spec = (nightly 1).spec ∧
    nightlyRebooted.runtime.manager.starts nightlyId = 2 := by
  refine ⟨?_, ?_, ?_, ?_, ?_, ?_, ?_⟩ <;> decide +kernel

end Horchestra.Agent
