import Horchestra.Admission.Chain
import Horchestra.Api.Validation

/-!
# Admission of applications: the shape of a spec and the no-root floor

Two plugins look at an application by itself.  `appPolicy` refuses a spec whose fields do not
go together: job fields on a service, requests over limits, volumes and variables no node
could set up.  `policyEnforcement` is the floor under every workload: it fills in a non-root
user and group where none is set, and refuses root, ids that only become root on the node, and
text that would inject a directive into the unit.

Both judge the spec and nothing else, through `checkAppSpec` and `checkFloor`, and the floor
leaves a spec that already names its ids alone (`floored_of_ids`).  Both walk the environment: what
`validateEnv` accepts the floor accepts too exactly when it imports at most one whole secret
(`validateExecInputs_iff_wildcards`).
-/

namespace Horchestra.Admission

open Api Foundations Text Checks

/-! ## Fields that go together -/

/-- A text error at a position of a list field. -/
def atIndex (field : String) (i : Nat) (message : String) : String :=
  field ++ "[" ++ Nat.repr i ++ "]" ++ message

/-- A check of an entry, with its refusal prefixed by the position of the entry. -/
def within (where' : String) (check : Except String Unit) : Except String Unit :=
  match check with
  | .ok () => .ok ()
  | .error e => .error (where' ++ ": " ++ e)

@[simp] theorem within_eq_ok_iff {where' : String} {check : Except String Unit} :
    within where' check = .ok () ↔ check = .ok () := by
  cases check <;> simp [within]

def jobField (path : String) : String :=
  "spec.lifecycle." ++ path ++ ": only a run-to-completion workload has one — set restartPolicy: " ++
    restartNever

def jobFieldsAreForJobs (lc : Lifecycle) : Except String Unit :=
  if lc.runToCompletion then .ok ()
  else
    andThen (require lc.activeDeadlineSeconds.isNone (jobField "activeDeadlineSeconds"))
      (require lc.backoffLimit.isNone (jobField "backoffLimit"))

/-- One resource's request against its limit; a zero limit is no limit. -/
def withinLimit (render : Quantity → String) (resource : String) (request limit : Quantity) :
    Except String Unit :=
  require (limit == 0 || decide (request ≤ limit))
    ("spec.resources: " ++ resource ++ " request " ++ render request ++ " exceeds limit " ++
      render limit)

def checkResources (render : Quantity → String) (r : ResourceRequirements) : Except String Unit :=
  andThen
    (require (decide (0 ≤ r.requests.cpu) && decide (0 ≤ r.requests.memory) &&
        decide (0 ≤ r.limits.cpu) && decide (0 ≤ r.limits.memory))
      "spec.resources: requests and limits must not be negative") <|
  andThen (withinLimit render "cpu" r.requests.cpu r.limits.cpu) <|
  withinLimit render "memory" r.requests.memory r.limits.memory

def maxVolumesPerApp : Nat := 64

def checkVolumeType (i : Nat) (v : VolumeSource) : Except String Unit :=
  let located := atIndex "spec.volumes" i
  if v.type = volumeTypePV ∨ v.type = volumeTypeTmpfs then .ok ()
  else if v.type = volumeTypeToken then
    andThen (require (v.name == "")
      (located ": a token volume names no object — the token is this workload's own")) <|
    andThen (require v.items.isEmpty (located ": a token volume has no keys to select")) <|
    andThen (require (v.size == 0) (located ": a token volume must not set size")) <|
    require (v.audience == "" || (validBaseName v.audience "volume.audience").isOk)
      (located (": " ++ quote v.audience ++ " is not a usable audience"))
  else if v.type = volumeTypeSecret then
    andThen (require (v.name ≠ "") (located ": a secret volume requires volume.name")) <|
    andThen (require (v.size == 0) (located ": a secret volume must not set size")) <|
    checkIndexed (fun j item =>
      within (located (atIndex ".items" j "")) (validRelPath item.path)) 0 v.items
  else
    .error (located (": unknown volume type " ++ quote v.type ++ " (want " ++ quote volumeTypePV ++
      ", " ++ quote volumeTypeTmpfs ++ ", " ++ quote volumeTypeSecret ++ " or " ++
      quote volumeTypeToken ++ ")"))

def checkVolume (i : Nat) (m : VolumeMount) : Except String Unit :=
  andThen (checkVolumeType i m.volume)
    (within (atIndex "spec.volumes" i "") (validMountPath m.mountPath))

/-! ## Environment variables -/

def maxEnvPerApp : Nat := 256

def checkEnvSource (v : EnvVar) : Except String Unit :=
  match v.secretRef with
  | none => andThen (validEnvName v.name "name") (validEnvValue v.name v.value)
  | some ref =>
    andThen (require (v.value == "") "set either value or secretRef, not both") <|
    andThen (require (ref.name ≠ "") "secretRef requires name") <|
    andThen (require (ref.key ≠ "") ("secretRef requires key (a data key, or " ++
      quote envSecretAllKeys ++ " for every key)")) <|
    andThen (validEnvPrefix ref.namePrefix) <|
    if ref.isWildcard then
      require (v.name == "") ("a wildcard secretRef must not set name; its names come from the " ++
        "secret's keys (use prefix to scope them)")
    else
      andThen (validEnvName v.name "name") <|
      andThen (validBaseName ref.key "secretRef.key") <|
      require (ref.namePrefix == "") ("secretRef.prefix applies only to a wildcard key (" ++
        quote envSecretAllKeys ++ ")")

def claimsName (v : EnvVar) : Bool := !(v.secretRef.any (·.isWildcard))

/-- The variables in order, with the names claimed so far. -/
def validateEnvFrom : Nat → List String → List EnvVar → Except String Unit
  | _, _, [] => .ok ()
  | i, claimed, v :: rest =>
    andThen (within (atIndex "spec.env" i "") (checkEnvSource v)) <|
    if claimsName v then
      andThen (require (!claimed.contains v.name)
        (atIndex "spec.env" i (": " ++ quote v.name ++ " is declared twice")))
        (validateEnvFrom (i + 1) (v.name :: claimed) rest)
    else validateEnvFrom (i + 1) claimed rest

def validateEnv (env : List EnvVar) : Except String Unit :=
  andThen (require (decide (env.length ≤ maxEnvPerApp))
    ("spec.env: " ++ Nat.repr env.length ++ " entries is more than the " ++ Nat.repr maxEnvPerApp ++
      " an application may declare"))
    (validateEnvFrom 0 [] env)

/-! ## The plugin -/

/-- Everything `appPolicy` asks of a spec.  `routedNetwork` says whether the cluster can give a
workload a network of its own. -/
def checkAppSpec (render : Quantity → String) (routedNetwork : Bool) (spec : ApplicationSpec) :
    Except String Unit :=
  andThen (require (spec.hostNetwork ≠ some false || routedNetwork)
    ("spec.hostNetwork: this cluster has no routed network — start the controller with " ++
      "--routed-cidr and give the nodes a network helper, or leave the workload on the host's " ++
      "network. Accepting `false` here would promise an isolation nothing on any node provides")) <|
  andThen (jobFieldsAreForJobs spec.lifecycle) <|
  andThen (checkResources render spec.resources) <|
  andThen (require (decide (spec.volumes.length ≤ maxVolumesPerApp))
    ("spec.volumes: " ++ Nat.repr spec.volumes.length ++ " volumes is more than the " ++
      Nat.repr maxVolumesPerApp ++ " an application may declare")) <|
  andThen (checkIndexed checkVolume 0 spec.volumes) <|
  validateEnv spec.env

def invalid (check : Except String Unit) : Except AdmissionError Unit :=
  match check with
  | .ok () => .ok ()
  | .error e => .error (.invalid e)

/-- A refusal on authorization grounds, as the chain reports it. -/
def forbid (check : Except String Unit) : Except AdmissionError Unit :=
  match check with
  | .ok () => .ok ()
  | .error e => .error (.forbidden e)

@[simp] theorem invalid_eq_ok_iff {check : Except String Unit} :
    invalid check = .ok () ↔ check = .ok () := by
  cases check <;> simp [invalid]

@[simp] theorem forbid_eq_ok_iff {check : Except String Unit} :
    forbid check = .ok () ↔ check = .ok () := by
  cases check <;> simp [forbid]

def appPolicy (render : Quantity → String) (routedNetwork : Bool) : Plugin where
  admitPass := keep
  validate
    | .application, _, a =>
      if a.operation = .delete || a.isSubresource then .ok ()
      else invalid (checkAppSpec render routedNetwork (Application.spec a.object))
    | _, _, _ => .ok ()

/-! ## The floor -/

/-- The characters that would start a new line of a unit file. -/
def controlChars : List Char := ['\n', '\r', '\x00']

def execModifiers : List Char := ['@', '-', ':', '+', '!']

def noControl (field : String) (i : Nat) (text : String) : Except String Unit :=
  require (!containsAny text controlChars) (atIndex field i
    ": control characters are not allowed (they can inject a systemd directive)")

/-- The environment in order, with the names seen so far. -/
def execEnvFrom : Nat → List String → List EnvVar → Except String Unit
  | _, _, [] => .ok ()
  | i, seen, e :: rest =>
    andThen (require (!(containsAny e.name controlChars || containsAny e.value controlChars))
      (atIndex "spec.env" i (" (" ++ quote e.name ++
        "): control characters are not allowed (they can inject a systemd directive)"))) <|
    andThen (require (!seen.contains e.name)
      (atIndex "spec.env" i (": duplicate name " ++ quote e.name))) <|
    execEnvFrom (i + 1) (e.name :: seen) rest

/-- The program must not start with a character that raises its privileges. -/
def checkProgram (command : List String) : Except String Unit :=
  match command.head?.bind (·.toList.head?) with
  | none => .ok ()
  | some c =>
    require (!execModifiers.contains c) ("spec.command[0] " ++ quote (command.headD "") ++
      ": a leading " ++ quote (String.ofList [c]) ++ " is a systemd ExecStart modifier " ++
      "('+'/'!' run as root) — use an absolute or bare program path")

def validateExecInputs (spec : ApplicationSpec) : Except String Unit :=
  andThen (checkProgram spec.command) <|
  andThen (checkIndexed (noControl "spec.command") 0 spec.command) <|
  andThen (checkIndexed (noControl "spec.args") 0 spec.args) <|
  execEnvFrom 0 [] spec.env

/-- The ids the floor fills in where an author left them unset. -/
def floored (spec : ApplicationSpec) : ApplicationSpec :=
  let sc := spec.securityContext.getD {}
  { spec with securityContext := some {
      runAsUser := some (sc.runAsUser.getD defaultRunAsID)
      runAsGroup := some (sc.runAsGroup.getD defaultRunAsID) } }

def checkFloor (spec : ApplicationSpec) : Except String Unit :=
  match spec.securityContext.bind (·.runAsUser) with
  | none =>
    .error ("spec.securityContext.runAsUser: the no-root floor forbids running as uid 0 — " ++
      "set a non-zero runAsUser")
  | some user =>
    andThen (validRunAsID "spec.securityContext.runAsUser" user) <|
    andThen
      (match spec.securityContext.bind (·.runAsGroup) with
        | none => .ok ()
        | some group => validRunAsID "spec.securityContext.runAsGroup" group)
      (validateExecInputs spec)

def policyEnforcement : Plugin where
  admitPass
    | .application, _, a =>
      if a.operation = .delete then .ok a.object
      else .ok { (a.object : Application) with spec := floored (Application.spec a.object) }
    | _, _, a => .ok a.object
  validate
    | .application, _, a =>
      if a.operation = .delete then .ok () else forbid (checkFloor (Application.spec a.object))
    | _, _, _ => .ok ()

/-! ## What the two judge -/

def HasIDs (spec : ApplicationSpec) : Prop :=
  ∃ user group, spec.securityContext = some { runAsUser := some user, runAsGroup := some group }

theorem floored_hasIDs (spec : ApplicationSpec) : HasIDs (floored spec) := ⟨_, _, rfl⟩

theorem floored_of_ids {spec : ApplicationSpec} (ids : HasIDs spec) : floored spec = spec := by
  obtain ⟨user, group, context⟩ := ids
  cases spec
  simp only at context
  simp [floored, context]

/-! ## The two checks of an environment -/

theorem worded_of_validEnvName {name what : String} (valid : validEnvName name what = .ok ()) :
    name ≠ "" ∧ ∀ c ∈ name.toList, isNameChar c = true := by
  simp only [validEnvName, andThen_eq_ok_iff, require_eq_ok_iff, Bool.and_eq_true, List.all_eq_true,
    decide_eq_true_eq] at valid
  exact ⟨valid.1, valid.2.2⟩

theorem clean_of_validEnvName {name what : String} (valid : validEnvName name what = .ok ()) :
    containsAny name controlChars = false := by
  refine List.any_eq_false.2 fun c mem control => ?_
  have ne : ∀ c ∈ controlChars, ¬ isNameChar c := by
    simp [controlChars, isNameChar, isNameStart]
  exact ne c (of_decide_eq_true control) ((worded_of_validEnvName valid).2 c mem)

theorem clean_of_validEnvValue {name v : String} (valid : validEnvValue name v = .ok ()) :
    containsAny v controlChars = false := by
  rw [validEnvValue] at valid
  split at valid
  next clean =>
    rw [firstBadByte] at clean
    split at clean
    next whole =>
      have all := (List.takeWhile_prefix _).eq_of_length whole
      rw [List.takeWhile_eq_self_iff] at all
      exact List.any_eq_false.2 fun c mem => by simpa [controlChars] using all c mem
    · cases clean
  · cases valid

/-- The name and the value of a variable that is accepted by itself are clean, and it has no name
exactly when it claims none. -/
theorem clean_of_checkEnvSource {v : EnvVar} (valid : checkEnvSource v = .ok ()) :
    containsAny v.name controlChars = false ∧ containsAny v.value controlChars = false ∧
      (v.name = "" ↔ claimsName v = false) := by
  cases reference : v.secretRef with
  | none =>
    simp only [checkEnvSource, reference, andThen_eq_ok_iff] at valid
    have ne := (worded_of_validEnvName valid.1).1
    exact ⟨clean_of_validEnvName valid.1, clean_of_validEnvValue valid.2,
      by simp [claimsName, reference, ne]⟩
  | some ref =>
    simp only [checkEnvSource, reference, andThen_eq_ok_iff, require_eq_ok_iff, beq_iff_eq] at valid
    obtain ⟨empty, -, -, -, named⟩ := valid
    rw [empty]
    split at named
    next whole =>
      rw [require_eq_ok_iff, beq_iff_eq] at named
      simp [named, claimsName, reference, whole, containsAny]
    rename_i single
    rw [andThen_eq_ok_iff] at named
    refine ⟨clean_of_validEnvName named.1, rfl, ?_⟩
    simp [(worded_of_validEnvName named.1).1, claimsName, reference, single]

def wildcards (env : List EnvVar) : Nat := env.countP fun v => !claimsName v

/-- An environment that the shape check accepts passes the floor's walk exactly when no more than
one of its entries, with one seen before, has no name. -/
theorem execEnvFrom_iff_wildcards {env : List EnvVar} {i j : Nat} {claimed seen : List String}
    (ok : validateEnvFrom i claimed env = .ok ())
    (agree : ∀ name ≠ "", name ∈ seen ↔ name ∈ claimed) :
    execEnvFrom j seen env = .ok () ↔ wildcards env + (if "" ∈ seen then 1 else 0) ≤ 1 := by
  induction env generalizing i j claimed seen with
  | nil =>
    simp only [execEnvFrom, wildcards, List.countP_nil, true_iff]
    split <;> omega
  | cons v rest ih =>
    rw [validateEnvFrom, andThen_eq_ok_iff, within_eq_ok_iff] at ok
    obtain ⟨src, later⟩ := ok
    obtain ⟨cleanName, cleanValue, nameless⟩ := clean_of_checkEnvSource src
    simp only [execEnvFrom, andThen_eq_ok_iff, require_eq_ok_iff, cleanName, cleanValue, wildcards,
      List.countP_cons, Bool.or_self, Bool.not_false, true_and]
    cases claims : claimsName v with
    | true =>
      have named : v.name ≠ "" := fun empty => by simp [nameless.1 empty] at claims
      rw [if_pos claims, andThen_eq_ok_iff, require_eq_ok_iff] at later
      have fresh : v.name ∉ seen := by simpa [agree v.name named] using later.1
      have kept : ∀ name ≠ "", name ∈ v.name :: seen ↔ name ∈ v.name :: claimed := by
        intro name ne
        rw [List.mem_cons, List.mem_cons, agree name ne]
      rw [ih later.2 kept]
      simp [fresh, wildcards, named.symm]
    | false =>
      have empty := nameless.2 claims
      rw [if_neg (by simp [claims])] at later
      have kept : ∀ name ≠ "", name ∈ v.name :: seen ↔ name ∈ claimed := by
        intro name ne
        rw [List.mem_cons, empty, agree name ne, or_iff_right ne]
      rw [ih later kept, empty]
      by_cases pre : "" ∈ seen <;> simp [pre, wildcards]

/-- **The two checks agree on every environment that imports at most one whole secret**, and on no
other, where command and arguments pass. -/
theorem validateExecInputs_iff_wildcards {spec : ApplicationSpec}
    (accepted : validateEnv spec.env = .ok ())
    (runs : validateExecInputs { spec with env := [] } = .ok ()) :
    validateExecInputs spec = .ok () ↔ wildcards spec.env ≤ 1 := by
  simp only [validateExecInputs, validateEnv, andThen_eq_ok_iff] at accepted runs ⊢
  rw [execEnvFrom_iff_wildcards accepted.2 (by simp)]
  simp [runs.1, runs.2.1, runs.2.2.1]

def wholeSecret (name : String) : EnvVar where
  secretRef := some { name, key := envSecretAllKeys }

theorem validateExecInputs_iff_wildcards_one :
    validateExecInputs { env := [wholeSecret "tls"] } = .ok () ↔ wildcards [wholeSecret "tls"] ≤ 1 :=
  validateExecInputs_iff_wildcards (by decide +kernel) (by decide +kernel)

/-- Two imports are of a documented shape, and the floor takes them for one name declared twice. -/
theorem second_import_is_refused :
    validateEnv [wholeSecret "tls", wholeSecret "db"] = .ok () ∧
      validateExecInputs { env := [wholeSecret "tls", wholeSecret "db"] } =
        .error "spec.env[1]: duplicate name \"\"" := by
  decide +kernel

end Horchestra.Admission
