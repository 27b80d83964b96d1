import Horchestra.Agent.Workload
import Horchestra.Foundations.ServiceManager

/-!
# The runtime of a node

`Runtime.apply` converges one workload: it renders what should run, looks at the unit the service
manager holds, and restarts the unit when the two differ.  Everything around it can fail, and each
failure that the code distinguishes is an answer of the surroundings: the image store, the file
system, the bus of the service manager, the network helper.  `Runtime.remove` takes a workload down
and `Runtime.states` lists what is held.

The state carries what the code keeps in memory (the retry ledger and the restart backoff), the
environment files it keeps in RAM, and the service manager itself, which remembers for every run
the generation, the properties and the environment file it was started with.

`apply_cases` says what one call can do: stop before it looks at the unit, leave the unit alone, or
start it anew.
-/

namespace Horchestra.Agent

open Api Foundations Text Checks Paths ServiceManager

/-! ## The retry ledger -/

/-- The runs started for a job, and the retries it is allowed. -/
structure RunCount where
  n : Int := 0
  budget : Int := 0

structure RunLedger where
  runs : Std.ExtTreeMap String RunCount := ∅

/-- The count an application reports is a floor; its budget is taken as it is. -/
def RunLedger.seed (l : RunLedger) (id : String) (reported budget : Int) : RunLedger where
  runs := l.runs.insert id { n := max (l.runs.getD id {}).n reported, budget }

def RunLedger.start (l : RunLedger) (id : String) : RunLedger where
  runs := l.runs.insert id { l.runs.getD id {} with n := (l.runs.getD id {}).n + 1 }

def RunLedger.count (l : RunLedger) (id : String) : Int × Int :=
  ((l.runs.getD id {}).n, (l.runs.getD id {}).budget)

/-- No run is left; a job with no count has run once. -/
def RunLedger.spent (l : RunLedger) (id : String) : Bool :=
  decide ((l.count id).2 < max (l.count id).1 1)

def RunLedger.forget (l : RunLedger) (id : String) : RunLedger where
  runs := l.runs.erase id

section

variable (l : RunLedger) {id other : String}

theorem count_seed (reported budget : Int) :
    (l.seed id reported budget).count id = (max (l.count id).1 reported, budget) := by
  simp [RunLedger.count, RunLedger.seed]

theorem count_start : (l.start id).count id = ((l.count id).1 + 1, (l.count id).2) := by
  simp [RunLedger.count, RunLedger.start]

theorem count_seed_of_ne (ne : other ≠ id) (reported budget : Int) :
    (l.seed id reported budget).count other = l.count other := by
  simp [RunLedger.count, RunLedger.seed, Std.ExtTreeMap.getD_insert, ne.symm]

theorem count_start_of_ne (ne : other ≠ id) : (l.start id).count other = l.count other := by
  simp [RunLedger.count, RunLedger.start, Std.ExtTreeMap.getD_insert, ne.symm]

theorem count_forget_of_ne (ne : other ≠ id) : (l.forget id).count other = l.count other := by
  simp [RunLedger.count, RunLedger.forget, Std.ExtTreeMap.getD_erase, ne.symm]

end

/-! ## The restart backoff -/

def second : Int := 10 ^ 9
def restartBackoffBase : Int := 15 * second
def restartBackoffMax : Int := 5 * 60 * second

/-- How long a start must hold before it counts as having worked. -/
def flapWindow : Int := restartBackoffBase

/-- The starts issued for one content, and the earliest the next may be issued. -/
structure FlapState where
  sum : String
  attempts : Nat
  next : Option Int := none

structure FlapGuard where
  seen : Std.ExtTreeMap String FlapState := ∅

/-- How long to wait before the start after the given number of them. -/
def restartDelay (attempts : Nat) : Int :=
  if attempts < 2 then 0
  else
    let d := wrap64 (restartBackoffBase * 2 ^ (attempts - 2))
    if d ≤ 0 ∨ restartBackoffMax < d then restartBackoffMax else d

/-- Whether a workload may be started now, and how long the next start has to wait. -/
def FlapGuard.mayStart (g : FlapGuard) (now : Int) (id sum : String) : FlapGuard × Bool × Int :=
  let fresh := (⟨g.seen.insert id { sum, attempts := 1 }⟩, true, 0)
  match g.seen[id]? with
  | none => fresh
  | some st =>
    if st.sum ≠ sum then fresh
    else
      match st.next.filter (now < ·) with
      | some next => (g, false, next - now)
      | none =>
        let delay := restartDelay (st.attempts + 1)
        (⟨g.seen.insert id { sum, attempts := st.attempts + 1, next := some (now + delay) }⟩,
          true, delay)

def FlapGuard.forget (g : FlapGuard) (id : String) : FlapGuard where
  seen := g.seen.erase id

/-- A start of this content is held off until later. -/
def FlapGuard.holdsOff (g : FlapGuard) (now : Int) (id sum : String) : Bool :=
  match g.seen[id]? with
  | none => false
  | some st => st.sum == sum && (st.next.filter (now < ·)).isSome

theorem mayStart_allows (g : FlapGuard) (now : Int) (id sum : String) :
    (g.mayStart now id sum).2.1 = !g.holdsOff now id sum := by
  rw [FlapGuard.mayStart, FlapGuard.holdsOff]
  cases g.seen[id]? with
  | none => rfl
  | some st =>
    by_cases same : st.sum = sum
    · cases waits : st.next.filter (now < ·) <;> simp [same, waits]
    · simp [same]

/-! ## The unit of a workload -/

/-- How long a stop waits before the kill. -/
def gracePeriod (l : Lifecycle) : Int :=
  let secs := match l.terminationGracePeriodSeconds with
    | some s => if 0 ≤ s then s else 30
    | none => 30
  wrap64 (secs * second)

def restartMode (app : App) : String :=
  if app.lifecycle.restartPolicy = restartOnFailure then "on-failure"
  else if app.lifecycle.restartPolicy = restartNever then "no"
  else "always"

/-- A job stays loaded when it has failed. -/
def collectMode (app : App) : String :=
  if app.lifecycle.runToCompletion then "inactive" else "inactive-or-failed"

def uint64 (n : Int) : Nat := (n % 2 ^ 64).toNat

def maxUint64 : Nat := 2 ^ 64 - 1

/-- The bound on a whole run of a job, in microseconds. -/
def activeDeadline (app : App) : Nat :=
  match app.lifecycle.activeDeadlineSeconds with
  | none => maxUint64
  | some s => if s ≤ 0 then maxUint64 else uint64 (s * 1000000)

/-- An amount in whole units of its scale, rounded up. -/
def roundUp (q : Quantity) (scale : Int) : Int := (q + scale - 1) / scale

def Runtime.sandboxArgv (r : Runtime) (id configSum : String) : List String :=
  r.sandboxCmd ++ ["--config", r.configPath id, "--config-sha256", configSum]

def Runtime.unitProperties (r : Runtime) (id configSum : String) (app : App) : List Property :=
  let memory := roundUp app.limits.memory (10 ^ 9)
  let cpu := roundUp app.limits.cpu (10 ^ 6)
  [⟨"Description", .text ("horchestra-app " ++ app.ns ++ "/" ++ app.name)⟩,
    ⟨"ExecStart", .exec (r.sandboxArgv id configSum)⟩,
    ⟨"Restart", .text (restartMode app)⟩,
    ⟨"RestartUSec", .number 2000000⟩,
    ⟨"TimeoutStopUSec", .number (uint64 (Int.tdiv (gracePeriod app.lifecycle) 1000))⟩,
    ⟨"TimeoutStopFailureMode", .text "kill"⟩,
    ⟨"CollectMode", .text (collectMode app)⟩,
    ⟨"StartLimitIntervalUSec", .number 30000000⟩,
    ⟨"StartLimitBurst", .number 5⟩] ++
  (if app.lifecycle.runToCompletion then
    [⟨"Type", .text "oneshot"⟩, ⟨"RemainAfterExit", .flag true⟩,
      ⟨"TimeoutStartUSec", .number (activeDeadline app)⟩] else []) ++
  (if 0 < memory then [⟨"MemoryMax", .number (uint64 memory)⟩] else []) ++
  (if 0 < cpu then [⟨"CPUQuotaPerSecUSec", .number (uint64 (cpu * 1000000) / 1000)⟩] else [])

/-- Whether a reported value of a property is the wanted one.  A property that has no line of its
own in the comparison is never different. -/
def sameProperty (name : String) (got want : PropertyValue) (argv : List String) : Bool :=
  if name = "ExecStart" then got == .exec argv
  else if name ∈ ["MemoryMax", "CPUQuotaPerSecUSec", "RestartUSec", "TimeoutStopUSec",
      "TimeoutStartUSec", "Restart", "CollectMode", "Description", "Type", "RemainAfterExit"] then
    got == want
  else true

/-- Whether the properties the manager reports are the ones asked for: a limit that was not asked
for is still at its default, and what is reported of the rest is the same. -/
def appliedMatches (applied : String → Option PropertyValue) (want : List Property)
    (argv : List String) : Bool :=
  (["MemoryMax", "CPUQuotaPerSecUSec"].all fun name =>
    want.any (·.name == name) ||
      match applied name with
      | some (.number v) => v == maxUint64
      | _ => true) &&
  want.all fun w =>
    match applied w.name with
    | none => true
    | some got => sameProperty w.name got w.value argv

/-! ## The state of the runtime -/

structure Origin where
  generation : Int
  properties : List Property
  secretEnv : Option String

structure State where
  runs : RunLedger := {}
  flap : FlapGuard := {}
  /-- The environment files in RAM, by workload. -/
  secretEnv : StringMap := ∅
  manager : Manager (List Property) Origin := {}

/-! ## What the surroundings answer -/

/-- Which questions about a unit the bus answers. -/
structure Look where
  connects : Bool := true
  activeState : Bool := true
  loadState : Bool := true
  timestamp : Bool := true
  properties : Bool := true

/-- How the bus takes a request to stop a unit. -/
structure Bus where
  connects : Except String Unit := .ok ()
  resets : Bool := true
  stops : Bool := true

/-- How the manager takes a start: it refuses the call, or accepts it, brings the unit into a
state, and says how the start went to a caller that waits. -/
inductive StartAnswer where
  | refused (error : String)
  | accepted (status : Status) (waited : Except String Unit)

/-- The answers to one call of `apply`. -/
structure Answers where
  now : Int := 0
  spec : Except String LaunchSpec := .ok {}
  pull : Except String Unit := .ok ()
  specAgain : Except String LaunchSpec := .ok {}
  envReadable : Bool := true
  envParent : Except String Unit := .ok ()
  envWrite : Except String Unit := .ok ()
  secretDir : String → Except String Unit := fun _ => .ok ()
  marshals : Except String Unit := .ok ()
  writesConfig : Except String Unit := .ok ()
  look : Look := {}
  bus : Bus := {}
  fifos : Except String Unit := .ok ()
  start : StartAnswer := .accepted { state := .activating } (.ok ())

/-! ## Rendering -/

/-- The launch specification of an image, pulled when the store does not have it. -/
def ensureImage (answers : Answers) : Except String LaunchSpec :=
  match answers.spec with
  | .ok ls => .ok ls
  | .error _ => do answers.pull; answers.specAgain

/-- The content of an environment file: one checked assignment a line. -/
def renderSecretEnv : List String → Except String String
  | [] => .ok ""
  | assignment :: rest =>
    match cut '=' assignment.toList with
    | none => .error ("secret env " ++ quote assignment ++ " is not an assignment")
    | some (name, value) => do
      validEnvName (String.ofList name) "env name"
      validEnvValue (String.ofList name) (String.ofList value)
      return assignment ++ "\n" ++ (← renderSecretEnv rest)

def envNames (rendered : String) : List String :=
  ((rendered.toList.splitOn '\n').filterMap fun line =>
    (cut '=' line).map fun (name, _) => String.ofList name).insertionSort (· ≤ ·)

/-- Whether the set of variables differs from the one written last. -/
def secretEnvShapeChanged (answers : Answers) (files : StringMap) (id : String)
    (secretEnv : List String) : Bool :=
  if !answers.envReadable then true
  else
    match files[id]? with
    | none => !secretEnv.isEmpty
    | some onDisk =>
      match renderSecretEnv secretEnv with
      | .error _ => true
      | .ok want => envNames onDisk != envNames want

/-- Writes the environment file and returns its path, or the empty path when there is nothing to
write. -/
def Runtime.writeSecretEnvFile (r : Runtime) (answers : Answers) (files : StringMap) (id : String)
    (secretEnv : List String) : StringMap × Except String String :=
  if secretEnv.isEmpty then (files.erase id, .ok "")
  else
    match renderSecretEnv secretEnv with
    | .error e => (files, .error e)
    | .ok content =>
      if answers.envReadable && files[id]? == some content then (files, .ok (r.secretEnvFile id))
      else
        match answers.envParent, answers.envWrite with
        | .error e, _ => (files, .error e)
        | .ok (), .error e => (files.erase id, .error e)
        | .ok (), .ok () => (files.insert id content, .ok (r.secretEnvFile id))

def isPlainFileName (name : String) : Bool :=
  !(name.toList.contains '/' || name == "" || name == "." || name == "..")

/-- Writes the files of one secret volume into its directory, each after a look at its name. -/
def writeSecretDir (answers : Answers) (v : Volume) : Except String Unit :=
  andThen (checkAll (fun file => require (isPlainFileName file.1)
    ("key " ++ quote file.1 ++ " is not a plain file name")) v.content)
    (answers.secretDir v.mountPath)

/-- Writes the files of the secret volumes and returns where each is mounted, by target. -/
def Runtime.writeSecretVolumes (r : Runtime) (answers : Answers) (id : String)
    (volumes : List Volume) : Except String (List SecretMount) := do
  let mounts ← (volumes.filter fun v => v.kind == .secret && v.mountPath ≠ "").mapM fun v =>
    match writeSecretDir answers v with
    | .error e => .error ("secret volume " ++ v.mountPath ++ ": " ++ e)
    | .ok () => .ok ⟨r.secretVolumeDir id v.mountPath, v.mountPath⟩
  return mounts.insertionSort (·.target ≤ ·.target)

section

variable {r : Runtime} {answers : Answers} {id : String} {volumes : List Volume}
  {mounts : List SecretMount}

theorem writeSecretVolumes_iff_mapM : r.writeSecretVolumes answers id volumes = .ok mounts ↔
    ∃ found, (volumes.filter fun v => v.kind == .secret && v.mountPath ≠ "").mapM (fun v =>
        (writeSecretDir answers v).mapError
          (fun e => "secret volume " ++ v.mountPath ++ ": " ++ e) >>=
          fun _ => .ok (⟨r.secretVolumeDir id v.mountPath, v.mountPath⟩ : SecretMount)) =
            .ok found ∧
      found.insertionSort (·.target ≤ ·.target) = mounts := by
  have step (v : Volume) : (match writeSecretDir answers v with
        | .error e => .error ("secret volume " ++ v.mountPath ++ ": " ++ e)
        | .ok () => .ok ⟨r.secretVolumeDir id v.mountPath,
            v.mountPath⟩ : Except String SecretMount) =
      ((writeSecretDir answers v).mapError (fun e => "secret volume " ++ v.mountPath ++ ": " ++
        e) >>=
        fun _ => .ok ⟨r.secretVolumeDir id v.mountPath, v.mountPath⟩) := by
    cases writeSecretDir answers v <;> rfl
  simp only [Runtime.writeSecretVolumes, bind_eq_ok_iff, pure, Except.pure, Except.ok.injEq, step]

theorem step_writeSecretVolumes {v : Volume} {mount : SecretMount} :
    ((writeSecretDir answers v).mapError (fun e => "secret volume " ++ v.mountPath ++ ": " ++ e) >>=
        fun _ => .ok (⟨r.secretVolumeDir id v.mountPath, v.mountPath⟩ : SecretMount)) = .ok mount ↔
      writeSecretDir answers v = .ok () ∧
        mount = ⟨r.secretVolumeDir id v.mountPath, v.mountPath⟩ := by
  cases writeSecretDir answers v <;> simp [Except.mapError, bind, Except.bind, eq_comm]

theorem exists_writeSecretVolumes_iff :
    (∃ mounts, r.writeSecretVolumes answers id volumes = .ok mounts) ↔
      ∀ v ∈ volumes, v.kind = .secret → v.mountPath ≠ "" → writeSecretDir answers v = .ok () := by
  simp only [writeSecretVolumes_iff_mapM]
  rw [exists_comm]
  simp only [exists_and_left, exists_eq', and_true, exists_mapM_eq_ok_iff, step_writeSecretVolumes,
    exists_eq, List.mem_filter, Bool.and_eq_true, beq_iff_eq, decide_eq_true_eq, and_imp]

end

/-- What one call renders: whether the set of secret variables changed, the digest of the
configuration, and the properties of the unit. -/
structure Rendered where
  rotated : Bool
  sum : String
  properties : List Property

/-- Everything `apply` does before it looks at the unit. -/
def Runtime.prepare (r : Runtime) (answers : Answers) (files : StringMap) (app : App)
    (volumes : List Volume) : StringMap × Except String Rendered :=
  match (do validateVolumes volumes; supportedVolumes volumes; ensureImage answers) with
  | .error e => (files, .error e)
  | .ok ls =>
    let rotated := secretEnvShapeChanged answers files app.uid app.secretEnv
    let (files, written) := r.writeSecretEnvFile answers files app.uid app.secretEnv
    (files, do
      let envFile ← written
      let mounts ← r.writeSecretVolumes answers app.uid volumes
      answers.marshals
      let sum := r.digest (r.buildConfig app.uid ls app volumes envFile mounts)
      answers.writesConfig
      return { rotated, sum, properties := r.unitProperties app.uid sum app })

/-! ## Looking at the unit -/

/-- What one look says about the unit of a workload. -/
structure UnitState where
  converged : Bool := false
  running : Bool := false
  activeFor : Int := 0

/-- How long the unit has been up, by the manager's own record in microseconds. -/
def activeFor (look : Look) (now : Int) (status : Status) : Int :=
  if !look.timestamp || status.activeEnter == 0 then 0
  else max 0 (now - status.activeEnter * 1000)

/-- Whether the manager already runs the unit as specified.  A job that is not up is taken as
converged whatever it was started from, unless it failed with a retry left. -/
def Runtime.inspect (r : Runtime) (answers : Answers) (runs : RunLedger)
    (manager : Manager (List Property) Origin) (app : App) (rendered : Rendered) : UnitState :=
  if !answers.look.connects || !answers.look.activeState then {}
  else
    match manager.units[app.uid]? with
    -- a unit that is not loaded answers that it is inactive, and is told apart by its load state
    | none => {}
    | some loaded =>
      if !loaded.status.up then
        if !app.lifecycle.runToCompletion || !answers.look.loadState then {}
        else { converged := loaded.status.state ≠ .failed || runs.spent app.uid }
      else
        { running := true
          activeFor := activeFor answers.look answers.now loaded.status
          converged := answers.look.properties &&
            appliedMatches (r.reports loaded.properties) rendered.properties
              (r.sandboxArgv app.uid rendered.sum) }

/-! ## Starting it -/

/-- Gets ready to wire an isolated workload. -/
def Runtime.prepareNetwork (r : Runtime) (answers : Answers) (app : App) : Except String Unit :=
  if app.hostNetwork then .ok ()
  else if !r.network then
    .error ("workload " ++ app.uid ++
      " asks for its own network and this node has no network helper")
  else if app.address = "" then
    .error ("workload " ++ app.uid ++ " has no address: an isolated workload with no lease " ++
      "would start into a namespace holding nothing but loopback")
  else answers.fifos

/-- Stops what the unit runs now, if it can, and starts it with the rendered properties.  The start
of a job is counted and not waited for. -/
def Runtime.relaunch (r : Runtime) (answers : Answers) (s : State) (app : App)
    (rendered : Rendered) : State × Except String Unit :=
  match answers.bus.connects with
  | .error e => (s, .error e)
  | .ok () =>
    let manager := if answers.bus.resets then s.manager.resetFailed app.uid else s.manager
    let manager := if answers.bus.stops then manager.unload app.uid else manager
    match r.prepareNetwork answers app with
    | .error e => ({ s with manager }, .error e)
    | .ok () =>
      let runs := if app.lifecycle.runToCompletion then s.runs.start app.uid else s.runs
      match answers.start with
      | .refused e => ({ s with manager, runs }, .error ("start " ++ app.uid ++ ".service: " ++ e))
      | .accepted status waited =>
        let origin : Origin := ⟨app.generation, rendered.properties, s.secretEnv[app.uid]?⟩
        ({ s with
            manager := manager.start app.uid ⟨status, rendered.properties⟩ origin, runs },
          if app.lifecycle.runToCompletion then .ok () else waited)

/-- What an application reports about a job is in the ledger before anything reads it. -/
def seedRuns (runs : RunLedger) (app : App) : RunLedger :=
  if app.lifecycle.runToCompletion then runs.seed app.uid app.attempts app.lifecycle.retries
  else runs

/-- **Converges one workload.** -/
def Runtime.apply (r : Runtime) (answers : Answers) (s : State) (app : App)
    (volumes : List Volume) : State × Except String Unit :=
  let (files, prepared) := r.prepare answers s.secretEnv app volumes
  match prepared with
  | .error e => ({ s with secretEnv := files }, .error e)
  | .ok rendered =>
    let s := { s with secretEnv := files, runs := seedRuns s.runs app }
    let st := r.inspect answers s.runs s.manager app rendered
    if st.converged && !rendered.rotated then
      (if flapWindow ≤ st.activeFor then { s with flap := s.flap.forget app.uid } else s, .ok ())
    else if rendered.rotated || st.running then
      r.relaunch answers { s with flap := s.flap.forget app.uid } app rendered
    else
      let (flap, allow, _) := s.flap.mayStart answers.now app.uid rendered.sum
      if allow then r.relaunch answers { s with flap } app rendered
      else ({ s with flap }, .ok ())

/-! ## What one call can do -/

section

variable {r : Runtime} {answers : Answers} {s : State} {app : App} {volumes : List Volume}
variable {rendered : Rendered}

/-- The manager once a restart has stopped the unit, as far as it is let. -/
def Bus.stopped (bus : Bus) (m : Manager (List Property) Origin) (unit : String) :
    Manager (List Property) Origin :=
  let m := if bus.resets then m.resetFailed unit else m
  if bus.stops then m.unload unit else m

theorem relaunch_manager {holds : Manager (List Property) Origin → Prop}
    (inv : Manager.Invariant holds) (pre : holds s.manager) :
    holds (r.relaunch answers s app rendered).1.manager := by
  have stopped : holds (answers.bus.stopped s.manager app.uid) := by
    have reset : holds (if answers.bus.resets then s.manager.resetFailed app.uid else s.manager) := by
      split
      · exact inv.resetFailed pre app.uid
      · exact pre
    rw [Bus.stopped]
    split
    · exact inv.unload reset app.uid
    · exact reset
  rw [Runtime.relaunch]
  split
  · exact pre
  dsimp only
  split
  · exact stopped
  split
  · exact stopped
  · exact inv.start stopped ..

/-- A restart that reports no error has started the unit from the generation of the workload. -/
theorem relaunch_started (launched : (r.relaunch answers s app rendered).2 = .ok ()) :
    (r.relaunch answers s app rendered).1.manager.Started app.uid
      (·.generation = app.generation) := by
  rw [Runtime.relaunch] at launched ⊢
  split at launched
  · cases launched
  dsimp only at launched ⊢
  split at launched
  · cases launched
  split at launched
  · cases launched
  · exact Manager.started_start rfl

/-- The call does not touch the unit: it takes it as converged, or holds its start off. -/
def Runtime.LeftAlone (r : Runtime) (answers : Answers) (s : State) (app : App)
    (rendered : Rendered) : Prop :=
  (r.inspect answers (seedRuns s.runs app) s.manager app rendered).converged = true ∨
    s.flap.holdsOff answers.now app.uid rendered.sum = true

/-- The call finds a reason to start the unit anew. -/
def Runtime.FindsDrift (r : Runtime) (answers : Answers) (s : State) (app : App)
    (rendered : Rendered) : Prop :=
  rendered.rotated = true ∨
    (r.inspect answers (seedRuns s.runs app) s.manager app rendered).converged = false

/-- **What one call can do.**  It leaves the manager as it is, and reports no error only when it
left the unit alone on purpose; or it finds a reason to start the unit anew, and does. -/
theorem apply_cases (r : Runtime) (answers : Answers) (s : State) (app : App)
    (volumes : List Volume) :
    ((r.apply answers s app volumes).1.manager = s.manager ∧
      ((r.apply answers s app volumes).1.runs = s.runs ∨
        (r.apply answers s app volumes).1.runs = seedRuns s.runs app) ∧
      ((r.apply answers s app volumes).2 = .ok () →
        ∃ rendered, (r.prepare answers s.secretEnv app volumes).2 = .ok rendered ∧
          r.LeftAlone answers s app rendered)) ∨
    ∃ s₁ rendered, s₁.manager = s.manager ∧ s₁.runs = seedRuns s.runs app ∧
      (r.prepare answers s.secretEnv app volumes).2 = .ok rendered ∧
      r.FindsDrift answers s app rendered ∧
      r.apply answers s app volumes = r.relaunch answers s₁ app rendered := by
  rw [Runtime.apply]
  rcases r.prepare answers s.secretEnv app volumes with ⟨files, failed | rendered⟩
  · exact .inl ⟨rfl, .inl rfl, nofun⟩
  dsimp only
  split
  next left =>
    refine .inl ⟨?_, .inr ?_, fun _ => ⟨rendered, rfl, .inl (Bool.and_eq_true_iff.1 left).1⟩⟩
    · split <;> rfl
    · split <;> rfl
  rename_i drifted
  have finds : r.FindsDrift answers s app rendered := by
    rw [Bool.and_eq_true, Bool.not_eq_true', not_and_or, Bool.not_eq_true,
      Bool.not_eq_false] at drifted
    exact drifted.symm
  split
  · refine .inr ⟨_, rendered, ?_, ?_, rfl, finds, rfl⟩ <;> rfl
  split
  · refine .inr ⟨_, rendered, ?_, ?_, rfl, finds, rfl⟩ <;> rfl
  rename_i held
  refine .inl ⟨rfl, .inr rfl, fun _ => ⟨rendered, rfl, .inr ?_⟩⟩
  rw [mayStart_allows] at held
  simpa using held

theorem apply_manager {holds : Manager (List Property) Origin → Prop}
    (inv : Manager.Invariant holds) (pre : holds s.manager) :
    holds (r.apply answers s app volumes).1.manager := by
  obtain ⟨eq, _⟩ | ⟨s₁, rendered, eq, _, _, _, relaunched⟩ :=
    apply_cases r answers s app volumes
  · rwa [eq]
  rw [relaunched]
  exact relaunch_manager inv (eq ▸ pre)

end

/-! ## Taking it down, and listing -/

/-- Stops the unit and drops what the node keeps for the workload.  The grace period bounds only
how long the stop waits. -/
def Runtime.remove (bus : Bus) (s : State) (id : String) : State :=
  let manager := match bus.connects with
    | .error _ => s.manager
    | .ok () =>
      let stopped := if bus.stops then s.manager.unload id else s.manager
      if bus.resets then stopped.resetFailed id else stopped
  { runs := s.runs.forget id, flap := s.flap.forget id, secretEnv := s.secretEnv.erase id, manager }

theorem remove_manager {holds : Manager (List Property) Origin → Prop}
    (inv : Manager.Invariant holds) {bus : Bus} {s : State} (pre : holds s.manager)
    (id : String) : holds (Runtime.remove bus s id).manager := by
  rw [Runtime.remove]
  dsimp only
  split
  · exact pre
  have stopped : holds (if bus.stops then s.manager.unload id else s.manager) := by
    split
    · exact inv.unload pre id
    · exact pre
  split
  · exact inv.resetFailed stopped id
  · exact stopped

structure WorkloadState where
  id : String := ""
  phase : String := ""
  exitCode : Int := 0
  finishedAt : Option Nat := none
  attempts : Int := 0
  reason : String := ""

/-- The manager's record of how the main process of a unit ended. -/
structure ExitRecord where
  code : Int := 0
  finishedAt : Option Nat := none
  result : String := ""

/-- How the bus answers a listing: whether at all, and for each unit how it ended, when that can be
read. -/
structure Listing where
  listed : Except String Unit := .ok ()
  exit : String → Option ExitRecord := fun _ => none

/-- Whether an id has the shape by which the units of workloads are listed. -/
def unitGlob (id : String) : Bool :=
  id.toList.length == 36 && [8, 13, 18, 23].all fun i => id.toList[i]? == some '-'

def unitPhase (status : Status) : String :=
  match status.state with
  | .active => if status.exited then appPhaseSucceeded else appPhaseRunning
  | .activating | .reloading | .deactivating => appPhaseRunning
  | .failed | .inactive => appPhaseFailed

def reasonDeadlineExceeded : String :=
  "DeadlineExceeded: the job outran spec.lifecycle.activeDeadlineSeconds and was killed"

def reasonBackoffLimitExceeded : String :=
  "BackoffLimitExceeded: the job failed and its spec.lifecycle.backoffLimit is spent"

def failureReason (runs : RunLedger) (id result : String) : String :=
  if result = "timeout" then reasonDeadlineExceeded
  else if result = "success" ∨ result = "" then ""
  else if runs.spent id && decide (0 < (runs.count id).2) && decide (0 < (runs.count id).1) then
    reasonBackoffLimitExceeded
  else ""

def stateOf (listing : Listing) (runs : RunLedger) (id : String)
    (loaded : Loaded (List Property)) : WorkloadState :=
  let phase := unitPhase loaded.status
  let base : WorkloadState := { id, phase, attempts := (runs.count id).1 }
  if phase = appPhaseRunning then base
  else
    let record := (listing.exit id).getD {}
    { base with
      exitCode := record.code, finishedAt := record.finishedAt
      reason := failureReason runs id record.result }

/-- The workloads the manager holds units for, whatever state they are in. -/
def Runtime.states (listing : Listing) (s : State) : List WorkloadState × Except String Unit :=
  match listing.listed with
  | .error e => ([], .error e)
  | .ok () =>
    ((s.manager.units.toList.filter fun entry => unitGlob entry.1).map fun entry =>
      stateOf listing s.runs entry.1 entry.2, .ok ())

/-- A node whose manager reports every property as it was given. -/
def plainRuntime : Runtime where
  stateDir := "/var/lib/horchestra"
  runtimeDir := "/run/user/990/horchestra"
  sandboxCmd := ["/usr/bin/horchestra-node", "sandbox"]
  network := false
  digest config := "+".intercalate config.command
  secretDirName mountPath := mountPath
  reports properties name := (properties.find? (·.name == name)).map (·.value)

end Horchestra.Agent
