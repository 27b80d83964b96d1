import Horchestra.Agent.Environment

/-!
# Applied means running as specified

A call of `Runtime.apply` that reports no error is taken as the workload running as specified.  What
tells it whether to restart is split in two: the digest of the configuration is read off the unit,
and the set of secret variables is compared with the file of the call before, which the same call
rewrites.  A call that rewrites the file and then fails leaves nothing behind to say that the
running process has never seen it.

* `applied_runs_as_specified`: in every run in which a call that finds the set changed, with a unit
  loaded, gets as far as the end of the old process, and in which no start is held off blindly, a
  call that reports no error and leaves the unit active leaves a process of this configuration and
  this set of variables.
* `failed_restart_forgotten`: a call fails to reach the manager, and the next one is content.
-/

namespace Horchestra.Agent

open Api Foundations Text Checks Assignments ServiceManager

/-! ## The names in an environment file -/

/-- The names an environment file sets, if there is one. -/
def fileNames : Option String → List String
  | none => []
  | some content => envNames content

def varNames (secretEnv : List String) : List String := (assignments secretEnv).map Prod.fst

theorem lines_of_rendered {entries : List String} {content : String}
    (made : renderSecretEnv entries = .ok content) :
    ((content.toList.splitOn '\n').filterMap fun line =>
      (cut '=' line).map fun (name, _) => String.ofList name) = varNames entries := by
  induction entries generalizing content with
  | nil =>
    cases made
    rfl
  | cons entry rest ih =>
    rw [renderSecretEnv] at made
    split at made
    · cases made
    rename_i pre after found
    simp only [bind_eq_ok_iff, pure, Except.pure, Except.ok.injEq] at made
    obtain ⟨_, validName, _, validValue, later, renderedRest, rfl⟩ := made
    obtain ⟨whole, -⟩ := eq_append_of_cut found
    have unbroken : '\n' ∉ entry.toList := by
      have inName := (plain_of_validEnvName validName).2.2
      have inValue := unbroken_of_validEnvValue validValue
      rw [String.toList_ofList] at inName inValue
      rw [whole, List.mem_append, List.mem_cons]
      rintro (first | sign | second)
      · exact inName first
      · cases sign
      · exact inValue second
    have text : (entry ++ "\n" ++ later).toList = entry.toList ++ '\n' :: later.toList := by simp
    rw [text, List.splitOn_append_cons_self, List.splitOn_eq_singleton unbroken,
      List.singleton_append, List.filterMap_cons, found, Option.map_some,
      ih renderedRest]
    simp [varNames, assignments, assignment, found]

theorem mem_envNames_iff {entries : List String} {content : String}
    (made : renderSecretEnv entries = .ok content) (name : String) :
    name ∈ envNames content ↔ name ∈ varNames entries := by
  rw [envNames, List.mem_insertionSort, lines_of_rendered made]

/-! ## What a call does before it looks at the unit -/

/-- The file of a workload was written, or removed where there is nothing to write, and the path
that goes into the configuration says which. -/
def Written (r : Runtime) (files : StringMap) (id : String) (secretEnv : List String)
    (path : String) :
    Prop :=
  secretEnv = [] ∧ path = "" ∧ files[id]? = none ∨
    secretEnv ≠ [] ∧ path = r.secretEnvFile id ∧
      ∃ content, renderSecretEnv secretEnv = .ok content ∧ files[id]? = some content

section

variable {r : Runtime} {answers : Answers} {files : StringMap} {id path : String}
  {secretEnv : List String}

theorem Written.mem_names (wrote : Written r files id secretEnv path) (name : String) :
    name ∈ fileNames files[id]? ↔ name ∈ varNames secretEnv := by
  obtain ⟨rfl, -, gone⟩ | ⟨-, -, content, made, kept⟩ := wrote
  · simp [gone, fileNames, varNames, assignments]
  rw [kept]
  exact mem_envNames_iff made name

theorem Written.none_iff (wrote : Written r files id secretEnv path) :
    files[id]? = none ↔ path = "" := by
  obtain ⟨-, rfl, gone⟩ | ⟨-, rfl, content, -, kept⟩ := wrote
  · simp [gone]
  · simp [kept, secretEnvFile_ne_empty]

/-- Where the set of variables is the one written last, the names in the file stay, and the file is
not made anew. -/
theorem Written.same_names {pre : StringMap} (wrote : Written r files id secretEnv path)
    (eq : secretEnvShapeChanged answers pre id secretEnv = false) :
    fileNames files[id]? = fileNames pre[id]? ∧ (pre[id]? = none → files[id]? = none) := by
  rw [secretEnvShapeChanged] at eq
  split at eq
  · cases eq
  cases found : pre[id]? with
  | none =>
    rw [found] at eq
    have none : secretEnv = [] := by simpa using eq
    obtain ⟨-, -, gone⟩ | ⟨some_, -⟩ := wrote
    · simp [gone]
    · contradiction
  | some onDisk =>
    simp only [found] at eq
    split at eq
    · cases eq
    rename_i want made
    have names : envNames onDisk = envNames want := by simpa using eq
    refine ⟨?_, by simp⟩
    obtain ⟨rfl, -, gone⟩ | ⟨-, -, content, renderedToo, kept⟩ := wrote
    · cases made
      rw [gone, fileNames, fileNames, names]
      decide
    rw [renderedToo, Except.ok.injEq] at made
    rw [kept, fileNames, fileNames, names, made]

/-- What becomes of the file: it is as it should be, or the write failed and it is as it was or
gone. -/
theorem writeSecretEnvFile_cases (r : Runtime) (answers : Answers) (files : StringMap) (id : String)
    (secretEnv : List String) :
    (∃ path, (r.writeSecretEnvFile answers files id secretEnv).2 = .ok path ∧
      Written r (r.writeSecretEnvFile answers files id secretEnv).1 id secretEnv path) ∨
    (∃ e, (r.writeSecretEnvFile answers files id secretEnv).2 = .error e) ∧
      ((r.writeSecretEnvFile answers files id secretEnv).1 = files ∨
        (r.writeSecretEnvFile answers files id secretEnv).1[id]? = none) := by
  rw [Runtime.writeSecretEnvFile]
  split
  next empty => exact .inl ⟨"", rfl, .inl ⟨List.isEmpty_iff.1 empty, rfl, by simp⟩⟩
  rename_i ne
  rw [List.isEmpty_iff] at ne
  cases made : renderSecretEnv secretEnv with
  | error e => exact .inr ⟨⟨e, rfl⟩, .inl rfl⟩
  | ok content =>
    dsimp only
    split
    next cur =>
      simp only [Bool.and_eq_true, beq_iff_eq] at cur
      exact .inl ⟨_, rfl, .inr ⟨ne, rfl, content, made, cur.2⟩⟩
    split
    · exact .inr ⟨⟨_, rfl⟩, .inl rfl⟩
    · exact .inr ⟨⟨_, rfl⟩, .inr (by simp)⟩
    · exact .inl ⟨_, rfl, .inr ⟨ne, rfl, content, made, by simp⟩⟩

end

/-- Everything between the file and the look at the unit goes through. -/
structure Renders (answers : Answers) (volumes : List Volume) : Prop where
  secretDirs : ∀ v ∈ volumes, v.kind = .secret → writeSecretDir answers v = .ok ()
  marshals : answers.marshals = .ok ()
  writesConfig : answers.writesConfig = .ok ()

theorem Renders.writeSecretVolumes {answers : Answers} {volumes : List Volume}
    (renders : Renders answers volumes) (r : Runtime) (id : String) :
    ∃ mounts, r.writeSecretVolumes answers id volumes = .ok mounts :=
  exists_writeSecretVolumes_iff.2 fun v mem sec _ => renders.secretDirs v mem sec

/-- What a call has when it looks at the unit. -/
structure Rendered.From (rendered : Rendered) (r : Runtime) (answers : Answers) (before : StringMap)
    (app : App) (path : String) : Prop where
  rotated : rendered.rotated = secretEnvShapeChanged answers before app.uid app.secretEnv
  digest : ∃ cfg : SandboxConfig, cfg.secretEnvFile = path ∧ rendered.sum = r.digest cfg
  properties : rendered.properties = r.unitProperties app.uid rendered.sum app

/-- **What a call does before it looks at the unit**: it fails and the file is as it was or gone; or
the file is as it should be, and the call goes on or fails later. -/
theorem prepare_cases (r : Runtime) (answers : Answers) (files : StringMap) (app : App)
    (volumes : List Volume) :
    (∃ e, (r.prepare answers files app volumes).2 = .error e) ∧
      ((r.prepare answers files app volumes).1 = files ∨
        (r.prepare answers files app volumes).1[app.uid]? = none) ∨
    ∃ path, Written r (r.prepare answers files app volumes).1 app.uid app.secretEnv path ∧
      ((∃ e, (r.prepare answers files app volumes).2 = .error e) ∧ ¬ Renders answers volumes ∨
        ∃ made, (r.prepare answers files app volumes).2 = .ok made ∧
          made.From r answers files app path) := by
  rw [Runtime.prepare]
  split
  · exact .inl ⟨⟨_, rfl⟩, .inl rfl⟩
  rename_i ls _
  dsimp only
  rcases writeSecretEnvFile_cases r answers files app.uid app.secretEnv with
    ⟨path, done, wrote⟩ | ⟨⟨e, failed⟩, after⟩
  · refine .inr ⟨path, wrote, ?_⟩
    rw [done]
    cases mounted : r.writeSecretVolumes answers app.uid volumes with
    | error e =>
      refine .inl ⟨⟨e, rfl⟩, fun renders => ?_⟩
      obtain ⟨mounts, other⟩ := renders.writeSecretVolumes r app.uid
      rw [mounted] at other
      cases other
    | ok mounts =>
      cases marshals : answers.marshals with
      | error e =>
        refine .inl ⟨⟨e, rfl⟩, fun renders => ?_⟩
        rw [renders.marshals] at marshals
        cases marshals
      | ok _ =>
        cases cfg : answers.writesConfig with
        | error e =>
          refine .inl ⟨⟨e, rfl⟩, fun renders => ?_⟩
          rw [renders.writesConfig] at cfg
          cases cfg
        | ok _ => exact .inr ⟨_, rfl, rfl, ⟨_, rfl, rfl⟩, rfl⟩
  rw [failed]
  exact .inl ⟨⟨e, rfl⟩, after⟩

/-! ## What a restart leaves -/

/-- A restart gets as far as the end of the old process: the manager is reached, and stops the unit
or replaces it. -/
def Ends (r : Runtime) (answers : Answers) (app : App) : Prop :=
  answers.bus.connects = .ok () ∧ (answers.bus.stops = true ∨
    r.prepareNetwork answers app = .ok () ∧ ∃ status waited,
      answers.start = .accepted status waited)

theorem unit_resetFailed {m : Manager (List Property) Origin} {unit : String}
    {loaded : Loaded (List Property)} (found : (m.resetFailed unit).units[unit]? = some loaded) :
    m.units[unit]? = some loaded := by
  rw [Manager.resetFailed] at found
  split at found
  · split at found
    · simp [Manager.unload] at found
    · exact found
  · exact found

/-- **What a restart leaves**: the unit started from what was rendered; or an error, the runs as
they were, and the unit as it was where the old process was not ended. -/
theorem relaunch_unit (r : Runtime) (answers : Answers) (s : State) (app : App) (made : Rendered) :
    (r.relaunch answers s app made).1.secretEnv = s.secretEnv ∧
    (((∃ e, (r.relaunch answers s app made).2 = .error e) ∧
      (r.relaunch answers s app made).1.manager.lastOrigin app.uid = s.manager.lastOrigin app.uid ∧
      ∀ loaded, (r.relaunch answers s app made).1.manager.units[app.uid]? = some loaded →
        s.manager.units[app.uid]? = some loaded ∧ ¬ Ends r answers app) ∨
    ∃ status, (r.relaunch answers s app made).1.manager.lastOrigin app.uid =
        some ⟨app.generation, made.properties, s.secretEnv[app.uid]?⟩ ∧
      (r.relaunch answers s app made).1.manager.units[app.uid]? =
        some ⟨status, made.properties⟩) := by
  -- the manager once the unit was to be stopped
  let stopped := answers.bus.stopped s.manager app.uid
  have origin : stopped.lastOrigin app.uid = s.manager.lastOrigin app.uid := by
    simp only [stopped, Bus.stopped]
    split <;> split <;> simp
  have unit {loaded : Loaded (List Property)} (found : stopped.units[app.uid]? = some loaded) :
      s.manager.units[app.uid]? = some loaded ∧ answers.bus.stops = false := by
    simp only [stopped, Bus.stopped] at found
    split at found
    · simp [Manager.unload] at found
    rename_i goesOn
    refine ⟨?_, by simpa using goesOn⟩
    split at found
    · exact unit_resetFailed found
    · exact found
  rw [Runtime.relaunch]
  split
  next e unreachable =>
    refine ⟨rfl, .inl ⟨⟨e, rfl⟩, rfl, fun loaded found => ⟨found, ?_⟩⟩⟩
    rintro ⟨reached, -⟩
    rw [unreachable] at reached
    cases reached
  dsimp only
  split
  next e unprepared =>
    refine ⟨rfl, .inl ⟨⟨e, rfl⟩, origin, fun loaded found => ⟨(unit found).1, ?_⟩⟩⟩
    rintro ⟨-, stops | ⟨prepared, -⟩⟩
    · rw [(unit found).2] at stops
      cases stops
    · rw [unprepared] at prepared
      cases prepared
  split
  next e refused =>
    refine ⟨rfl, .inl ⟨⟨_, rfl⟩, origin, fun loaded found => ⟨(unit found).1, ?_⟩⟩⟩
    rintro ⟨-, stops | ⟨-, status, waited, ok⟩⟩
    · rw [(unit found).2] at stops
      cases stops
    · rw [refused] at ok
      cases ok
  rename_i status waited ok
  exact ⟨rfl, .inr ⟨status, Manager.lastOrigin_start, by simp [Manager.start]⟩⟩

/-! ## Calls, and what happens between them -/

/-- What a process finds in its environment file when the manager starts it again: a configuration
with no such file is started as it was, and one with a file that is gone is not started. -/
def reread (file : Option String) (origin : Origin) : Option Origin :=
  match origin.secretEnv, file with
  | none, _ => some origin
  | some _, some content => some { origin with secretEnv := some content }
  | some _, none => none

inductive UnitEvent where
  | call (answers : Answers) (app : App) (volumes : List Volume)
  /-- The unit changes state by itself. -/
  | moves (status : Status)
  /-- The manager starts the process of the unit again. -/
  | respawns (status : Status)
  /-- The agent is started anew. -/
  | restarts
  | reboots

def Runtime.unitStep (r : Runtime) (id : String) (s : State) : UnitEvent → State
  | .call answers app volumes => (r.apply answers s app volumes).1
  | .moves status => { s with manager := s.manager.move id status }
  | .respawns status => { s with manager := s.manager.respawn id status (reread s.secretEnv[id]?) }
  | .restarts => { s with runs := {}, flap := {} }
  | .reboots => { manager := s.manager.reboot }

/-- The condition on a call: where it finds the set of variables changed and a unit loaded, nothing
keeps it from the end of the old process once the file is written; and it knows the state of the
unit, or holds no start off. -/
structure Fine (r : Runtime) (s : State) (answers : Answers) (app : App) (volumes : List Volume) :
    Prop where
  through : secretEnvShapeChanged answers s.secretEnv app.uid app.secretEnv = true →
    s.manager.units[app.uid]? ≠ none → Renders answers volumes ∧ Ends r answers app
  looks : answers.look.connects = true ∧ answers.look.activeState = true ∨
    ∀ sum, s.flap.holdsOff answers.now app.uid sum = false

/-- One step of a run of a service in which all calls meet the condition. -/
def FineStep (r : Runtime) (id : String) (s s' : State) : Prop :=
  ∃ event, s' = r.unitStep id s event ∧ ∀ answers app volumes, event = .call answers app volumes →
    app.uid = id ∧ app.lifecycle.runToCompletion = false ∧ Fine r s answers app volumes

/-! ## What holds along such a run -/

/-- What a process was started from: a configuration with a digest, which has an environment file
exactly when the process found one. -/
def Carries (r : Runtime) (id : String) (origin : Origin) : Prop :=
  ∃ (cfg : SandboxConfig) (app : App), origin.properties = r.unitProperties id (r.digest cfg) app ∧
    (origin.secretEnv = none ↔ cfg.secretEnvFile = "")

/-- The process of a loaded unit was started with the properties of the unit, and the names it found
in its file are in the file still, or the file is gone. -/
def InStep (r : Runtime) (id : String) (s : State) : Prop :=
  ∀ loaded, s.manager.units[id]? = some loaded →
    ∃ origin, s.manager.lastOrigin id = some origin ∧ origin.properties = loaded.properties ∧
      Carries r id origin ∧ (fileNames origin.secretEnv = fileNames s.secretEnv[id]? ∨
        s.secretEnv[id]? = none)

section

variable {r : Runtime} {id : String} {s s' : State}

theorem InStep.of_kept (inStep : InStep r id s)
    (unit : ∀ loaded, s'.manager.units[id]? = some loaded →
      ∃ pre, s.manager.units[id]? = some pre ∧ pre.properties = loaded.properties)
    (origin : s'.manager.lastOrigin id = s.manager.lastOrigin id)
    (files : fileNames s'.secretEnv[id]? = fileNames s.secretEnv[id]? ∧
      (s.secretEnv[id]? = none → s'.secretEnv[id]? = none) ∨ s'.secretEnv[id]? = none) :
    InStep r id s' := by
  intro loaded found
  obtain ⟨pre, foundBefore, eq⟩ := unit loaded found
  obtain ⟨first, last, properties, carries, names⟩ := inStep pre foundBefore
  refine ⟨first, origin.trans last, properties.trans eq, carries, ?_⟩
  rcases files with ⟨kept, stays⟩ | gone
  · exact names.imp (fun equal => equal.trans kept.symm) stays
  · exact .inr gone

variable {answers : Answers} {app : App} {volumes : List Volume}

/-- What becomes of the unit and of the file in a call that does not start the unit. -/
theorem InStep.of_unstarted {path : String} (answers : Answers) (inStep : InStep r app.uid s)
    (wrote : Written r s'.secretEnv app.uid app.secretEnv path)
    (unit : ∀ loaded, s'.manager.units[app.uid]? = some loaded →
      s.manager.units[app.uid]? = some loaded ∧
        secretEnvShapeChanged answers s.secretEnv app.uid app.secretEnv = false)
    (origin : s'.manager.lastOrigin app.uid = s.manager.lastOrigin app.uid) :
    InStep r app.uid s' := by
  intro loaded found
  refine inStep.of_kept (fun loaded found => ⟨loaded, (unit loaded found).1,
    rfl⟩) origin ?_ loaded found
  exact .inl (wrote.same_names (unit loaded found).2)

theorem InStep.relaunch {path : String} {made : Rendered} {pre : State}
    (inStep : InStep r app.uid pre) (fine : Fine r pre answers app volumes)
    (sameManager : s.manager = pre.manager)
    (wrote : Written r s.secretEnv app.uid app.secretEnv path)
    (from_ : made.From r answers pre.secretEnv app path) :
    InStep r app.uid (r.relaunch answers s app made).1 := by
  obtain ⟨sameFiles, ⟨-, origin, unit⟩ | ⟨status, origin, unit⟩⟩ :=
    relaunch_unit r answers s app made
  · rw [sameManager] at origin unit
    refine inStep.of_unstarted answers (sameFiles ▸ wrote) (fun loaded found => ?_) origin
    obtain ⟨was, notEnded⟩ := unit loaded found
    refine ⟨was, ?_⟩
    by_contra changed
    rw [Bool.not_eq_false] at changed
    exact notEnded (fine.through changed (by simp [was])).2
  intro loaded found
  rw [unit, Option.some.injEq] at found
  subst found
  obtain ⟨cfg, named, sum⟩ := from_.digest
  refine ⟨_, origin, rfl, ⟨cfg, app, ?_, ?_⟩, .inl (by rw [sameFiles])⟩
  · rw [from_.properties, sum]
  · rw [wrote.none_iff, named]

/-- **One call** keeps the process in step with the file. -/
theorem InStep.apply (inStep : InStep r app.uid s) (fine : Fine r s answers app volumes) :
    InStep r app.uid (r.apply answers s app volumes).1 := by
  have prepared := prepare_cases r answers s.secretEnv app volumes
  rw [Runtime.apply]
  rcases res : r.prepare answers s.secretEnv app volumes with ⟨files, failed | made⟩
  · rw [res] at prepared
    rcases prepared with ⟨-, eq | gone⟩ | ⟨path, wrote, ⟨-, stuck⟩ | ⟨made, done, -⟩⟩
    · exact inStep.of_kept (fun loaded found => ⟨loaded, found, rfl⟩) rfl
        (.inl ⟨by rw [← eq], by rw [← eq]; exact id⟩)
    · exact inStep.of_kept (fun loaded found => ⟨loaded, found, rfl⟩) rfl (.inr gone)
    · refine inStep.of_unstarted answers wrote (fun loaded found => ⟨found, ?_⟩) rfl
      by_contra changed
      rw [Bool.not_eq_false] at changed
      have hit : s.manager.units[app.uid]? = some loaded := found
      exact stuck (fine.through changed (by simp [hit])).1
    · cases done
  rw [res] at prepared
  rcases prepared with ⟨⟨e, failed⟩, -⟩ | ⟨path, wrote, ⟨⟨e, failed⟩, -⟩ | ⟨_, done, from_⟩⟩
  · cases failed
  · cases failed
  · cases done
    dsimp only
    split
    next left =>
      simp only [Bool.and_eq_true, Bool.not_eq_true'] at left
      have eq : secretEnvShapeChanged answers s.secretEnv app.uid app.secretEnv = false :=
        from_.rotated ▸ left.2
      split
      · exact inStep.of_unstarted answers wrote (fun loaded found => ⟨found, eq⟩) rfl
      · exact inStep.of_unstarted answers wrote (fun loaded found => ⟨found, eq⟩) rfl
    split
    · exact inStep.relaunch fine rfl wrote from_
    rename_i quiet
    split
    · exact inStep.relaunch fine rfl wrote from_
    have eq : secretEnvShapeChanged answers s.secretEnv app.uid app.secretEnv = false := by
      rw [← from_.rotated]
      simp only [Bool.or_eq_true, not_or, Bool.not_eq_true] at quiet
      exact quiet.1
    exact inStep.of_unstarted answers wrote (fun loaded found => ⟨found, eq⟩) rfl

/-- A process that is started again finds the file as it is. -/
theorem inStep_of_reread {pre origin : Origin} {file : Option String} {properties : List Property}
    (again : reread file pre = some origin) (eq : pre.properties = properties)
    (carries : Carries r id pre)
    (names : fileNames pre.secretEnv = fileNames file ∨ file = none) :
    origin.properties = properties ∧ Carries r id origin ∧
      (fileNames origin.secretEnv = fileNames file ∨ file = none) := by
  rw [reread.eq_def] at again
  split at again
  · cases again
    exact ⟨eq, carries, names⟩
  next old content carried =>
    cases again
    obtain ⟨cfg, app, made, path⟩ := carries
    refine ⟨eq, ⟨cfg, app, made, ?_⟩, .inl rfl⟩
    rw [carried] at path
    simpa using path
  · cases again

theorem InStep.step (inStep : InStep r id s) (step : FineStep r id s s') : InStep r id s' := by
  obtain ⟨ev, rfl, fine⟩ := step
  cases ev with
  | call answers app volumes =>
    obtain ⟨rfl, -, met⟩ := fine answers app volumes rfl
    exact inStep.apply met
  | moves status =>
    exact inStep.of_kept (fun loaded found => Manager.unit_of_move found) Manager.lastOrigin_move
      (.inl ⟨rfl, fun gone => gone⟩)
  | respawns status =>
    rcases s.manager.respawn_cases id status (reread s.secretEnv[id]?) with
      ⟨loaded, pre, origin, hit, last, again, up⟩ | failed
    · intro after found
      obtain ⟨same, lastToo, properties, carries, names⟩ := inStep loaded hit
      obtain rfl : pre = same := Option.mem_unique last lastToo
      simp only [Runtime.unitStep, up] at found ⊢
      rw [Manager.start, Std.ExtTreeMap.getElem?_insert_self, Option.some.injEq] at found
      subst found
      exact ⟨origin, Manager.lastOrigin_start, inStep_of_reread again properties carries names⟩
    refine inStep.of_kept (fun loaded found => ?_) ?_ (.inl ⟨rfl, fun gone => gone⟩)
    · simp only [Runtime.unitStep, failed] at found
      exact Manager.unit_of_move found
    · simp only [Runtime.unitStep, failed, Manager.lastOrigin_move]
  | restarts => exact inStep
  | reboots =>
    intro loaded found
    simp [Runtime.unitStep, Manager.reboot] at found

/-- **A whole run** keeps the process in step with the file. -/
theorem inStep_of_run (run : Relation.ReflTransGen (FineStep r id) {} s) : InStep r id s := by
  induction run with
  | refl =>
    intro loaded found
    simp at found
  | tail _ step ih => exact ih.step step

end

/-! ## Applied means running as specified -/

/-- The process a unit runs was started with this digest and found exactly these names. -/
def RunsAsSpecified (r : Runtime) (id : String) (s : State) (sum : String)
    (secretEnv : List String) :
    Prop :=
  ∃ origin, s.manager.lastOrigin id = some origin ∧
    ⟨"ExecStart", .exec (r.sandboxArgv id sum)⟩ ∈ origin.properties ∧
    ∀ name, name ∈ fileNames origin.secretEnv ↔ name ∈ varNames secretEnv

section

variable {r : Runtime} {s : State} {answers : Answers} {app : App} {volumes : List Volume}

theorem execStart_mem (r : Runtime) (id sum : String) (app : App) :
    ⟨"ExecStart", .exec (r.sandboxArgv id sum)⟩ ∈ r.unitProperties id sum app := by
  simp [Runtime.unitProperties]

theorem sandboxArgv_inj {id sum sum' : String} (eq : r.sandboxArgv id sum = r.sandboxArgv id sum') :
    sum = sum' := by
  simpa [Runtime.sandboxArgv] using eq

/-- A unit that is taken as converged carries the digest of the call. -/
theorem digest_of_converged (reported : ∀ id sum app,
      r.reports (r.unitProperties id sum app) "ExecStart" = some (.exec (r.sandboxArgv id sum)))
    {id sum sum' : String} {app' : App}
    (matches_ : appliedMatches (r.reports (r.unitProperties id sum app')) (r.unitProperties id sum' app)
      (r.sandboxArgv id sum') = true) : sum = sum' := by
  rw [appliedMatches, Bool.and_eq_true] at matches_
  have eq := List.all_eq_true.1 matches_.2 _ (execStart_mem r id sum' app)
  simp only [reported, sameProperty, if_true, beq_iff_eq] at eq
  exact sandboxArgv_inj (PropertyValue.exec.inj eq)

theorem unit_of_converged {made : Rendered} (svc : app.lifecycle.runToCompletion = false)
    (converged : (r.inspect answers s.runs s.manager app made).converged = true) :
    ∃ loaded, s.manager.units[app.uid]? = some loaded ∧
      appliedMatches (r.reports loaded.properties) made.properties
        (r.sandboxArgv app.uid made.sum) = true := by
  rw [Runtime.inspect] at converged
  split at converged
  · cases converged
  split at converged
  · cases converged
  rename_i loaded found
  refine ⟨loaded, found, ?_⟩
  split at converged
  · simp [svc] at converged
  simp only [Bool.and_eq_true] at converged
  exact converged.2

theorem notActive_of_notRunning {made : Rendered} {loaded : Loaded (List Property)}
    (looks : answers.look.connects = true ∧ answers.look.activeState = true)
    (quiet : (r.inspect answers s.runs s.manager app made).running = false)
    (unit : s.manager.units[app.uid]? = some loaded) : loaded.status.state ≠ .active := by
  intro active
  have up : loaded.status.up = true := by simp [Status.up, active]
  simp [Runtime.inspect, looks, unit, up] at quiet

theorem applied_runs_as_specified (r : Runtime)
    (reported : ∀ id sum app,
      r.reports (r.unitProperties id sum app) "ExecStart" = some (.exec (r.sandboxArgv id sum)))
    (tells : ∀ cfg cfg', r.digest cfg = r.digest cfg' →
      (cfg.secretEnvFile = "" ↔ cfg'.secretEnvFile = ""))
    (s : State) (answers : Answers) (app : App) (volumes : List Volume)
    (run : Relation.ReflTransGen (FineStep r app.uid) {} s)
    (service : app.lifecycle.runToCompletion = false) (fine : Fine r s answers app volumes)
    (applied : (r.apply answers s app volumes).2 = .ok ()) (loaded : Loaded (List Property))
    (unit : (r.apply answers s app volumes).1.manager.units[app.uid]? = some loaded)
    (active : loaded.status.state = .active) :
    ∃ rendered, (r.prepare answers s.secretEnv app volumes).2 = .ok rendered ∧
      RunsAsSpecified r app.uid (r.apply answers s app volumes).1 rendered.sum app.secretEnv := by
  have inStep := inStep_of_run run
  have prepared := prepare_cases r answers s.secretEnv app volumes
  rw [Runtime.apply] at applied unit ⊢
  rcases outcome : r.prepare answers s.secretEnv app volumes with ⟨files, failed | rendered⟩
  · rw [outcome] at applied
    cases applied
  rw [outcome] at prepared applied unit
  rcases prepared with ⟨⟨e, failed⟩, -⟩ | ⟨path, written, ⟨⟨e, failed⟩, -⟩ | ⟨_, done, from_⟩⟩
  · cases failed
  · cases failed
  · cases done
    refine ⟨rendered, rfl, ?_⟩
    obtain ⟨cfg, named, sum⟩ := from_.digest
    -- a start that was accepted carries what was rendered and reads what was written
    have launched {s₁ : State} (files₁ : s₁.secretEnv = files)
        (ok : (r.relaunch answers s₁ app rendered).2 = .ok ()) :
        RunsAsSpecified r app.uid (r.relaunch answers s₁ app rendered).1 rendered.sum app.secretEnv := by
      obtain ⟨-, ⟨⟨e, error⟩, -⟩ | ⟨status, origin, -⟩⟩ := relaunch_unit r answers s₁ app rendered
      · rw [error] at ok
        cases ok
      refine ⟨_, origin, ?_, ?_⟩
      · rw [from_.properties]
        exact execStart_mem r app.uid rendered.sum app
      rw [files₁]
      exact written.mem_names
    dsimp only at applied unit ⊢
    split at applied
    · -- the unit is taken as converged: its process is in step with the file, whose names are these
      rename_i left
      rw [if_pos left] at unit ⊢
      simp only [Bool.and_eq_true, Bool.not_eq_true'] at left
      have same : secretEnvShapeChanged answers s.secretEnv app.uid app.secretEnv = false :=
        from_.rotated ▸ left.2
      obtain ⟨found, present, matches_⟩ := unit_of_converged (s := { s with
        secretEnv := files, runs := seedRuns s.runs app }) service left.1
      obtain ⟨origin, last, properties, ⟨started, app', made, noFile⟩, names⟩ :=
        inStep found present
      rw [← properties, made, from_.properties] at matches_
      have digest := digest_of_converged reported matches_
      have specified : ⟨"ExecStart",
        .exec (r.sandboxArgv app.uid rendered.sum)⟩ ∈ origin.properties ∧
          ∀ name, name ∈ fileNames origin.secretEnv ↔ name ∈ varNames app.secretEnv := by
        refine ⟨?_, fun name => ?_⟩
        · rw [made, digest]
          exact execStart_mem r app.uid rendered.sum app'
        rw [← written.mem_names]
        obtain ⟨kept, stays⟩ := written.same_names same
        rcases names with equal | gone
        · rw [equal, kept]
        -- the file is gone, so there is none in this configuration and in the one that runs
        have none : path = "" := written.none_iff.1 (stays gone)
        have unset := (tells started cfg (digest.trans sum)).2 (named.trans none)
        rw [noFile.2 unset, stays gone]
      split
      · exact ⟨origin, last, specified⟩
      · exact ⟨origin, last, specified⟩
    rename_i drifted
    rw [if_neg drifted] at unit ⊢
    split at applied
    next restart =>
      rw [if_pos restart] at unit ⊢
      exact launched rfl applied
    rename_i quiet
    rw [if_neg quiet] at unit ⊢
    split at applied
    next allowed =>
      rw [if_pos allowed] at unit ⊢
      exact launched rfl applied
    -- the start is held off, and the look says that nothing runs
    rename_i held
    rw [if_neg held] at unit
    rcases fine.looks with looks | free
    · simp only [Bool.or_eq_true, not_or, Bool.not_eq_true] at quiet
      exact absurd active (notActive_of_notRunning looks quiet.2 unit)
    rw [mayStart_allows, free] at held
    contradiction

end

/-! ## A variable is added -/

/-- A small node whose digest is the path of the environment file. -/
def pathRuntime : Runtime :=
  { plainRuntime with stateDir := "/s", runtimeDir := "/r", digest := fun cfg => cfg.secretEnvFile }

theorem pathRuntime_reports (id sum : String) (app : App) :
    pathRuntime.reports (pathRuntime.unitProperties id sum app) "ExecStart" =
      some (.exec (pathRuntime.sandboxArgv id sum)) := rfl

def workerWith (secretEnv : List String) : App := { uid := "w", secretEnv }

def comesUp : Answers := { start := .accepted { state := .active } (.ok ()) }

def startedWithOne : State := (pathRuntime.apply comesUp {} (workerWith ["A=1"]) []).1

theorem comesUp_fine (s : State) (secretEnv : List String) :
    Fine pathRuntime s comesUp (workerWith secretEnv) [] where
  through _ _ := ⟨⟨by simp, rfl, rfl⟩, rfl, .inl rfl⟩
  looks := .inl ⟨rfl, rfl⟩

theorem startedWithOne_run :
    Relation.ReflTransGen (FineStep pathRuntime "w") {} startedWithOne := by
  refine .single ⟨.call comesUp (workerWith ["A=1"]) [], rfl, ?_⟩
  rintro answers app volumes ⟨⟩
  exact ⟨rfl, by decide, comesUp_fine _ _⟩

/-- The main result where a second variable is added and nothing fails. -/
theorem applied_runs_as_specified_worker :
    ∃ rendered, (pathRuntime.prepare comesUp startedWithOne.secretEnv (workerWith ["A=1", "B=2"])
        []).2 = .ok rendered ∧
      RunsAsSpecified pathRuntime (workerWith ["A=1", "B=2"]).uid
        (pathRuntime.apply comesUp startedWithOne (workerWith ["A=1", "B=2"]) []).1 rendered.sum
        (workerWith ["A=1", "B=2"]).secretEnv := by
  have active :
      ((pathRuntime.apply comesUp startedWithOne (workerWith ["A=1", "B=2"]) []).1.manager.units[
        (workerWith ["A=1", "B=2"]).uid]?.map fun loaded => loaded.status.state) =
      some .active := by
    decide +kernel
  obtain ⟨loaded, unit, up⟩ := Option.map_eq_some_iff.1 active
  exact applied_runs_as_specified pathRuntime pathRuntime_reports
    (fun _ _ same => iff_of_eq (congrArg (· = "") same)) startedWithOne comesUp
    (workerWith ["A=1", "B=2"]) [] startedWithOne_run (by decide) (comesUp_fine _ _)
    (by decide +kernel) loaded unit up

/-- The same call with a manager that cannot be reached for the restart, after which the next call
finds nothing to do. -/
def restartFailed : State × Except String Unit :=
  pathRuntime.apply { comesUp with bus := { connects := .error "connection refused" } } startedWithOne
    (workerWith ["A=1", "B=2"]) []

def nextCall : State × Except String Unit :=
  pathRuntime.apply comesUp restartFailed.1 (workerWith ["A=1", "B=2"]) []

/-- **A restart that failed once is forgotten.**  The second variable is in the file, the next call
reports no error, and the process that is running has never seen it. -/
theorem failed_restart_forgotten :
    restartFailed.2 = .error "connection refused" ∧ nextCall.2 = .ok () ∧
    (nextCall.1.manager.units["w"]?.map fun loaded => loaded.status.state) = some .active ∧
    ∀ sum, ¬ RunsAsSpecified pathRuntime "w" nextCall.1 sum ["A=1", "B=2"] := by
  refine ⟨by decide +kernel, by decide +kernel, by decide +kernel, ?_⟩
  rintro sum ⟨origin, last, -, names⟩
  have found : (nextCall.1.manager.lastOrigin "w").map (fileNames ·.secretEnv) =
      some ["A"] := by decide +kernel
  rw [last, Option.map_some, Option.some.injEq] at found
  have missing := (names "B").2 (by decide +kernel)
  rw [found] at missing
  exact absurd missing (by decide)

end Horchestra.Agent
