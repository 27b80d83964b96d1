import Horchestra.Agent.Runtime
import Horchestra.Foundations.NameMap
import Horchestra.Nodeserver.Teardown

/-!
# The reconcile loop of a node

The agent of a node keeps what it is told to run and, for each workload, the generation it last
converged.  A pass converges every workload in turn and takes down what is held and not wanted;
after it the agent reports on every workload it wants, from a listing of the units.

A run of a node is any sequence of pushes, turns of the loop, sweeps, changes of a unit by the
service manager itself, restarts of the agent and reboots, with any answers of the surroundings.
`reconcileApps_eq_steps` says that a whole pass is such a sequence, in whatever order it takes the
workloads.
-/

namespace Horchestra.Agent

open Api Nodeserver Foundations NameMap ServiceManager

/-! ## The agent -/

structure AgentState where
  want : Std.ExtTreeMap String App := ∅
  /-- The generation of each workload that was converged last. -/
  applied : Std.ExtTreeMap String Int := ∅
  runtime : State := {}

/-- The answers to one turn of the loop over the workloads. -/
structure Turn where
  fits : Bool := true
  resolve : Except String (List Volume) := .ok []
  materialize : Except String (List Volume) := .ok []
  materializeEnv : Except String (List String) := .ok []
  answers : Answers := {}
  removal : Bus := {}

/-- The volumes of a workload, and the workload with the variables that come from secrets. -/
def resolved (turn : Turn) (name : String) (app : App) : Except String (App × List Volume) :=
  match turn.resolve with
  | .error e => .error ("resolve " ++ name ++ ": " ++ e)
  | .ok vols =>
    match turn.materialize with
    | .error e => .error ("materialize secrets " ++ name ++ ": " ++ e)
    | .ok secVols =>
      match turn.materializeEnv with
      | .error e => .error ("materialize secret env " ++ name ++ ": " ++ e)
      | .ok secretEnv => .ok ({ app with secretEnv }, vols ++ secVols)

/-- Takes a workload down; what was converged for it is forgotten. -/
def AgentState.tearDown (a : AgentState) (bus : Bus) (name : String) : AgentState :=
  { a with runtime := Runtime.remove bus a.runtime name, applied := a.applied.erase name }

def Runtime.converge (r : Runtime) (turn : Turn) (a : AgentState) (name : String) (app : App) :
    AgentState × List String :=
  if app.deleting then (a.tearDown turn.removal name, [])
  else if !turn.fits then (a, [])
  else
    match resolved turn name app with
    | .error e => (a, [e])
    | .ok (app, volumes) =>
      match r.apply turn.answers a.runtime app volumes with
      | (runtime, .error e) => ({ a with runtime }, ["converge " ++ name ++ ": " ++ e])
      | (runtime, .ok ()) =>
        ({ a with runtime, applied := a.applied.insert name app.generation }, [])

/-- Takes down every workload that is held and not wanted. -/
def AgentState.sweep (a : AgentState) (listing : Listing) (removal : String → Bus) : AgentState :=
  (Runtime.states listing a.runtime).1.foldl
    (fun a st => if a.want.contains st.id then a else a.tearDown (removal st.id) st.id) a

/-- One pass: a turn for every wanted workload, in the order they come, and a sweep. -/
def Runtime.reconcileApps (r : Runtime) (turns : String → Turn) (listing : Listing)
    (removal : String → Bus) (a : AgentState) (order : List (String × App)) : AgentState × List String :=
  let (a, errors) := order.foldl (fun (a, errors) (name, app) =>
    let (a, failed) := r.converge (turns name) a name app
    (a, errors ++ failed)) (a, [])
  (a.sweep listing removal, errors)

/-- What the runtime holds, by workload.  A listing that fails is read as one that is empty. -/
def AgentState.observe (a : AgentState) (listing : Listing) : Std.ExtTreeMap String WorkloadState :=
  indexBy (·.id) id (Runtime.states listing a.runtime).1

def AgentState.appStatus (a : AgentState) (listing : Listing) (stale : String → Option String) (id : String)
    (app : App) : AppStatus :=
  let held := (a.observe listing)[id]?
  let state := held.getD {}
  let phase := if state.phase ≠ "" then state.phase else appPhaseFailed
  let phase :=
    if app.deleting then if held.isSome then appPhaseTerminating else appPhaseTerminated
    else phase
  let message := match stale id with
    | some age => "running on a stale secret: the node has not refreshed it for " ++ age
    | none => ""
  let message := if state.reason ≠ "" then state.reason else message
  let ended := terminalPhase phase app.lifecycle state.attempts
  { ns := app.ns, name := app.name, phase, message
    observedGeneration := a.applied.getD id 0, attempts := state.attempts
    address := if app.hostNetwork ∨ phase ≠ appPhaseRunning then "" else app.address
    exitCode := if ended then state.exitCode else 0
    finishedAtUnixNano := if ended then state.finishedAt.getD 0 else 0 }

def AgentState.appStatusMessages (a : AgentState) (listing : Listing) (stale : String → Option String) :
    List AppStatus :=
  a.want.toList.map fun (id, app) => a.appStatus listing stale id app

/-! ## Runs of a node -/

inductive Event where
  /-- A push is taken over: the applications of the node, and the addresses chosen for them. -/
  | push (node : String) (applications : List Application) (address : String → String)
  /-- One turn of a pass. -/
  | turn (name : String) (turn : Turn)
  /-- The end of a pass. -/
  | sweep (listing : Listing) (removal : String → Bus)
  /-- The manager changes the state of a unit, or unloads it. -/
  | unit (name : String) (change : Option Status)
  /-- The agent starts over, with nothing in memory. -/
  | restart
  /-- The machine starts over. -/
  | reboot

def pushedApps (applications : List Application) (address : String → String) : List App :=
  applications.map fun it => { fromApplication it with address := address it.metadata.uid }

def Runtime.step (r : Runtime) (a : AgentState) : Event → AgentState
  | .push node applications address =>
    { a with want := appsForNode (pushedApps applications address) node }
  | .turn name turn =>
    match a.want[name]? with
    | none => a
    | some app => (r.converge turn a name app).1
  | .sweep listing removal => a.sweep listing removal
  | .unit name change =>
    let manager := match change with
      | some status => a.runtime.manager.move name status
      | none => a.runtime.manager.unload name
    { a with runtime := { a.runtime with manager } }
  | .restart => { runtime := { secretEnv := a.runtime.secretEnv, manager := a.runtime.manager } }
  | .reboot => { runtime := { manager := a.runtime.manager.reboot } }

/-! ## What one step can do -/

section

variable {r : Runtime} {a : AgentState}

@[simp] theorem converge_want (turn : Turn) (name : String) (app : App) :
    (r.converge turn a name app).1.want = a.want := by
  rw [Runtime.converge]
  split
  · rfl
  split
  · rfl
  split
  · rfl
  · split <;> rfl

/-- **What holds at a sweep holds after it** if tearing down a workload that is not wanted keeps it. -/
theorem sweep_induction {motive : AgentState → Prop} (pre : motive a)
    (torn : ∀ {a id}, motive a → ¬ a.want.contains id = true → ∀ bus, motive (a.tearDown bus id))
    (listing : Listing) (removal : String → Bus) : motive (a.sweep listing removal) := by
  rw [AgentState.sweep]
  generalize (Runtime.states listing a.runtime).1 = held
  induction held generalizing a with
  | nil => exact pre
  | cons st rest ih =>
    rw [List.foldl_cons]
    apply ih
    split
    · exact pre
    next unwanted => exact torn pre unwanted _

@[simp] theorem sweep_want (listing : Listing) (removal : String → Bus) :
    (a.sweep listing removal).want = a.want :=
  sweep_induction (motive := fun a' => a'.want = a.want) rfl (fun eq _ _ => eq) listing removal

theorem wanted_of_step {ev : Event} {id : String} {app : App}
    (wanted : (r.step a ev).want[id]? = some app) :
    a.want[id]? = some app ∨ ∃ n apps address, ev = .push n apps address ∧
      ∃ it ∈ apps, it.metadata.uid = id ∧
        app = { fromApplication it with address := address it.metadata.uid } := by
  cases ev with
  | push n apps address =>
    obtain ⟨mem, named⟩ := mem_of_appsForNode wanted
    obtain ⟨it, pushed, rfl⟩ := List.mem_map.1 mem
    exact .inr ⟨n, apps, address, rfl, it, pushed, named, rfl⟩
  | turn name turn =>
    left
    rw [Runtime.step] at wanted
    split at wanted
    · exact wanted
    · rwa [converge_want] at wanted
  | sweep listing removal =>
    left
    rwa [Runtime.step, sweep_want] at wanted
  | unit name change => exact .inl wanted
  | restart | reboot => simp [Runtime.step] at wanted

/-- **What a turn does to the runtime**: nothing, a teardown, or one call that converges the
workload. -/
theorem converge_runtime (turn : Turn) (name : String) (app : App) :
    (r.converge turn a name app).1.runtime = a.runtime ∨
    (app.deleting = true ∧
      (r.converge turn a name app).1.runtime = Runtime.remove turn.removal a.runtime name) ∨
    ∃ app' vols, app.deleting = false ∧ resolved turn name app = .ok (app', vols) ∧
      (r.converge turn a name app).1.runtime = (r.apply turn.answers a.runtime app' vols).1 := by
  rw [Runtime.converge]
  split
  next deleting => exact .inr (.inl ⟨deleting, rfl⟩)
  rename_i live
  split
  · exact .inl rfl
  split
  · exact .inl rfl
  rename_i app' vols found
  refine .inr (.inr ⟨app', vols, by simpa using live, found, ?_⟩)
  split
  next res => rw [res]
  next res => rw [res]

variable {holds : Manager (List Property) Origin → Prop}

theorem converge_manager (inv : Manager.Invariant holds) (pre : holds a.runtime.manager)
    (turn : Turn) (name : String) (app : App) :
    holds (r.converge turn a name app).1.runtime.manager := by
  obtain eq | ⟨_, eq⟩ | ⟨app', vols, _, _, eq⟩ :=
    converge_runtime (r := r) (a := a) turn name app
  · rwa [eq]
  · rw [eq]
    exact remove_manager inv pre name
  · rw [eq]
    exact apply_manager inv pre

theorem sweep_manager (inv : Manager.Invariant holds) (pre : holds a.runtime.manager)
    (listing : Listing) (removal : String → Bus) :
    holds (a.sweep listing removal).runtime.manager :=
  sweep_induction (motive := fun a => holds a.runtime.manager) pre
    (fun pre _ _ => remove_manager inv pre _) listing removal

/-- **Whatever every operation of the manager keeps holds along every run of a node.** -/
theorem step_manager (inv : Manager.Invariant holds) (pre : holds a.runtime.manager)
    (ev : Event) : holds (r.step a ev).runtime.manager := by
  cases ev with
  | push n apps addr | restart => exact pre
  | turn name turn =>
    rw [Runtime.step]
    split
    · exact pre
    · exact converge_manager inv pre turn name _
  | sweep listing removal => exact sweep_manager inv pre listing removal
  | unit name change =>
    cases change with
    | some status => exact inv.move pre name status
    | none => exact inv.unload pre name
  | reboot => exact inv.reboot pre

end

/-- A pass is the turns of its workloads, in its order, and the sweep. -/
theorem reconcileApps_eq_steps (r : Runtime) (turns : String → Turn) (listing : Listing)
    (removal : String → Bus) (a : AgentState) (order : List (String × App))
    (wanted : ∀ e ∈ order, a.want[e.1]? = some e.2) :
    (r.reconcileApps turns listing removal a order).1 =
      (order.map (fun (e : String × App) => Event.turn e.1 (turns e.1)) ++
        [Event.sweep listing removal]).foldl r.step a := by
  rw [List.foldl_append, List.foldl_cons, List.foldl_nil, List.foldl_map, Runtime.reconcileApps]
  dsimp only [Runtime.step]
  congr 1
  -- the errors collected on the way do not matter for the state
  generalize ([] : List String) = errors
  induction order generalizing a errors with
  | nil => rfl
  | cons e rest ih =>
    rw [List.foldl_cons, List.foldl_cons, wanted e List.mem_cons_self]
    apply ih
    intro later mem
    rw [converge_want]
    exact wanted later (.tail _ mem)

end Horchestra.Agent
