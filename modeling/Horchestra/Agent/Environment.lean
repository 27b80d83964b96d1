import Horchestra.Admission.AppPolicy
import Horchestra.Agent.Runtime
import Horchestra.Agent.Secrets
import Horchestra.Sandbox.Environment

/-!
# Which value of a variable a workload sees

The environment of a workload comes from three places and is put together in two processes.  The
agent renders the variables of the image and, after them, those the application spells out into the
configuration of the sandbox; the variables that come from secrets travel in a file of their own,
and the sandbox appends them.  The application is meant to have the last word, but nothing is ever
taken out of the list: a variable that the image sets as well is in it twice.

* `declared_env_overrides_iff`: every name is there once, with the value of the secret, of the
  application or of the image, in this order, and the program is looked up along that search path,
  exactly when the image sets no name twice and none that the application declares, and the search
  path is not empty.
* `image_value_comes_first`: an application that sets a variable of its image differently.
-/

namespace Horchestra.Agent

open Api Admission Sandbox
open Foundations Text Checks Paths Assignments

/-! ## What an accepted environment spells out -/

def literalVars (vars : List EnvVar) : List (String × String) :=
  vars.filterMap fun v => if v.secretRef.isSome then none else some (v.name, v.value)

theorem envStrings_eq (vars : List EnvVar) :
    envStrings vars = (literalVars vars).map fun var => assign var.1 var.2 := by
  rw [envStrings, literalVars, List.map_filterMap]
  apply List.filterMap_congr
  intro v _
  split <;> rfl

theorem plain_of_validEnvName {name what : String} (valid : validEnvName name what = .ok ()) :
    name ≠ "" ∧ '=' ∉ name.toList ∧ '\n' ∉ name.toList := by
  obtain ⟨ne, worded⟩ := worded_of_validEnvName valid
  exact ⟨ne, fun mem => absurd (worded '=' mem) (by decide),
    fun mem => absurd (worded '\n' mem) (by decide)⟩

theorem unbroken_of_validEnvValue {name v : String} (valid : validEnvValue name v = .ok ()) :
    '\n' ∉ v.toList := by
  intro mem
  have clean := List.any_eq_false.1 (clean_of_validEnvValue valid) '\n' mem
  simp [controlChars] at clean

/-- In an accepted environment the names that are spelled out are valid and distinct. -/
theorem literalVars_of_accepted {vars : List EnvVar} {i : Nat} {claimed : List String}
    (ok : validateEnvFrom i claimed vars = .ok ()) :
    ((literalVars vars).map Prod.fst).Nodup ∧
      ∀ var ∈ literalVars vars, var.1 ∉ claimed ∧ validEnvName var.1 "name" = .ok () := by
  induction vars generalizing i claimed with
  | nil => exact ⟨List.nodup_nil, by simp [literalVars]⟩
  | cons v rest ih =>
    rw [validateEnvFrom, andThen_eq_ok_iff] at ok
    obtain ⟨src, later⟩ := ok
    cases reference : v.secretRef with
    | some ref =>
      have skipped : literalVars (v :: rest) = literalVars rest := by simp [literalVars, reference]
      rw [skipped]
      split at later
      · rw [andThen_eq_ok_iff] at later
        obtain ⟨nodup, valid⟩ := ih later.2
        exact ⟨nodup, fun var mem =>
          (valid var mem).imp_left fun fresh old => fresh (.tail _ old)⟩
      · exact ih later
    | none =>
      have spelled : literalVars (v :: rest) = (v.name, v.value) :: literalVars rest := by
        simp [literalVars, reference]
      have claims : claimsName v = true := by simp [claimsName, reference]
      rw [if_pos claims, andThen_eq_ok_iff, require_eq_ok_iff] at later
      obtain ⟨fresh, onward⟩ := later
      obtain ⟨nodup, valid⟩ := ih onward
      have named : validEnvName v.name "name" = .ok () := by
        simp only [within_eq_ok_iff, checkEnvSource, reference, andThen_eq_ok_iff] at src
        exact src.1
      rw [spelled]
      refine ⟨List.nodup_cons.2 ⟨?_, nodup⟩, ?_⟩
      · intro again
        obtain ⟨var, mem, eq⟩ := List.mem_map.1 again
        exact (valid var mem).1 (by rw [eq]; exact .head _)
      intro var mem
      rcases List.mem_cons.1 mem with rfl | old
      · exact ⟨by simpa using fresh, named⟩
      · exact (valid var old).imp_left fun fresh old => fresh (.tail _ old)

/-! ## The file between the two processes -/

theorem renderSecretEnv_eq {es : List String} {content : String}
    (made : renderSecretEnv es = .ok content) :
    content.toList = unlines (es.map String.toList) := by
  induction es generalizing content with
  | nil =>
    cases made
    rfl
  | cons entry rest ih =>
    rw [renderSecretEnv] at made
    split at made
    · cases made
    simp only [bind_eq_ok_iff, pure, Except.pure, Except.ok.injEq] at made
    obtain ⟨_, _, _, _, later, renderedRest, rfl⟩ := made
    have tail := ih renderedRest
    rw [unlines, List.map_cons, List.flatMap_cons, ← unlines, ← tail]
    simp

/-- The path that is handed on is empty where there is nothing to write; otherwise the file under it
has what was to be written. -/
theorem writeSecretEnvFile_spec {r : Runtime} {ans : Answers} {files files' : StringMap}
    {id path : String} {env : List String}
    (wrote : r.writeSecretEnvFile ans files id env = (files', .ok path)) :
    (env = [] ∧ path = "") ∨
      ∃ content, renderSecretEnv env = .ok content ∧ files'[id]? = some content ∧
        path = r.secretEnvFile id := by
  rw [Runtime.writeSecretEnvFile] at wrote
  split at wrote
  next empty =>
    cases wrote
    exact .inl ⟨List.isEmpty_iff.1 empty, rfl⟩
  split at wrote
  · cases wrote
  rename_i content made
  split at wrote
  next cur =>
    cases wrote
    simp only [Bool.and_eq_true, beq_iff_eq] at cur
    exact .inr ⟨content, made, cur.2, rfl⟩
  split at wrote
  · cases wrote
  · cases wrote
  · cases wrote
    exact .inr ⟨content, made, by simp, rfl⟩

theorem secretEnvFile_ne_empty (r : Runtime) (id : String) : r.secretEnvFile id ≠ "" := by
  rw [Runtime.secretEnvFile, joinPath]
  split
  next empty =>
    simp only [List.isEmpty_iff, List.filter_eq_nil_iff] at empty
    exact absurd (empty "secretenv" (by simp)) (by simp)
  · exact clean_ne_empty _

/-- **The sandbox reads the variables the agent wrote.** -/
theorem readSecretEnv_of_written {r : Runtime} {ans : Answers} {files files' : StringMap}
    {id path : String} {vars : List (String × String)} (carried : ∀ var ∈ vars, Carried var)
    (wrote : r.writeSecretEnvFile ans files id (vars.map fun var => assign var.1 var.2) =
      (files', .ok path))
    {readFile : String → Except String String}
    (reads : ∀ content, files'[id]? = some content → readFile (r.secretEnvFile id) = .ok content) :
    readSecretEnv readFile path = .ok (vars.map fun var => assign var.1 var.2) := by
  obtain ⟨none, rfl⟩ | ⟨content, made, kept, rfl⟩ := writeSecretEnvFile_spec wrote
  · rw [none, readSecretEnv, if_pos rfl]
  apply readSecretEnv_unlines (secretEnvFile_ne_empty r id) (reads content kept)
  · rw [renderSecretEnv_eq made, List.map_map]
    rfl
  · intro var mem
    obtain ⟨name, v⟩ := carried var mem
    obtain ⟨ne, unsigned, unbroken⟩ := plain_of_validEnvName name
    refine ⟨ne, unsigned, ?_⟩
    have text : (assign var.1 var.2).toList = var.1.toList ++ '=' :: var.2.toList := by
      simp [assign]
    rw [text, List.mem_append, List.mem_cons]
    rintro (inName | sign | inValue)
    · exact unbroken inName
    · cases sign
    · exact unbroken_of_validEnvValue v inValue

/-! ## The list the program gets -/

/-- What a workload should see under a name: the value of the secret, of the application or of the
image, in this order, and the default search path. -/
def declared (image literals secrets : List (String × String)) (name : String) : Option String :=
  (secrets.lookup name).or <| (literals.lookup name).or <| (image.lookup name).or <|
    if name = "PATH" then some defaultDirs else none

section

variable {image literals secrets : List (String × String)}

theorem nodup_withDefault_iff {vars : List (String × String)} :
    ((withDefault vars).map Prod.fst).Nodup ↔ (vars.map Prod.fst).Nodup := by
  rw [withDefault]
  split
  · rfl
  rename_i unset
  rw [List.map_append, List.map_singleton, ← List.concat_eq_append, List.nodup_concat]
  constructor
  · rintro ⟨-, nodup⟩
    exact nodup
  intro nodup
  exact ⟨unset, nodup⟩

theorem lookup_withDefault (vars : List (String × String)) (name : String) :
    (withDefault vars).lookup name =
      (vars.lookup name).or (if name = "PATH" then some defaultDirs else none) := by
  have default_ : List.lookup name [("PATH", defaultDirs)] =
      if name = "PATH" then some defaultDirs else none := by
    rw [List.lookup_cons, List.lookup_nil]
    by_cases own : name = "PATH"
    · simp [own]
    · rw [beq_eq_false_iff_ne.2 own, if_neg own]
  rw [withDefault]
  split
  next set =>
    by_cases own : name = "PATH"
    · subst own
      obtain ⟨path, found⟩ := Option.isSome_iff_exists.1 (lookup_isSome_iff_mem.2 set)
      rw [found, Option.some_or]
    · rw [if_neg own, Option.or_none]
  · rw [List.lookup_append, default_]

theorem nodup_iff (distinctLiterals : (literals.map Prod.fst).Nodup)
    (distinctSecrets : (secrets.map Prod.fst).Nodup)
    (apart : ∀ name ∈ secrets.map Prod.fst, name ∉ literals.map Prod.fst) :
    ((image ++ literals ++ secrets).map Prod.fst).Nodup ↔ (image.map Prod.fst).Nodup ∧
      ∀ name ∈ image.map Prod.fst, name ∉ (literals ++ secrets).map Prod.fst := by
  have declaredOnce : ((literals ++ secrets).map Prod.fst).Nodup := by
    rw [List.map_append, List.nodup_append]
    refine ⟨distinctLiterals, distinctSecrets, ?_⟩
    rintro name spelled _ sec rfl
    exact apart name sec spelled
  rw [List.append_assoc, List.map_append, List.nodup_append]
  constructor
  · rintro ⟨nodup, -, ne⟩
    exact ⟨nodup, fun name own given => ne name own name given rfl⟩
  rintro ⟨nodup, own⟩
  refine ⟨nodup, declaredOnce, ?_⟩
  rintro name inImage _ given rfl
  exact own name inImage given

theorem lookup_eq_declared
    (ne : ∀ name ∈ secrets.map Prod.fst, name ∉ literals.map Prod.fst)
    (own : ∀ name ∈ image.map Prod.fst, name ∉ (literals ++ secrets).map Prod.fst) (name : String) :
    (withDefault (image ++ literals ++ secrets)).lookup name =
      declared image literals secrets name := by
  have spelledOnly : ∀ name ∈ literals.map Prod.fst, name ∉ secrets.map Prod.fst :=
    fun name spelled sec => ne name sec spelled
  rw [lookup_withDefault, List.append_assoc, lookup_append_comm own, lookup_append_comm spelledOnly,
    Option.or_assoc, Option.or_assoc, declared]

theorem declared_path_isSome (image literals secrets : List (String × String)) :
    (declared image literals secrets "PATH").isSome = true := by
  simp [declared]

end

theorem search_default_ne_search_empty :
    search (· == "/usr/local/sbin/sh") "sh" defaultDirs ≠
      search (· == "/usr/local/sbin/sh") "sh" "" := by
  decide +kernel

/-- **Declared variables override the image's**: every name occurs once, with the value it should
have, and the program is looked up along the search path among them. -/
structure Overrides (image literals secrets : List (String × String)) (envp : List String) :
    Prop where
  once : ((assignments envp).map Prod.fst).Nodup
  value : ∀ name, (assignments envp).lookup name = declared image literals secrets name
  path : ∀ isFile argv0, '/' ∉ argv0.toList → lookPath isFile argv0 envp =
    search isFile argv0 ((declared image literals secrets "PATH").getD "")

theorem overrides_iff {image literals secrets : List (String × String)} {envp : List String}
    (distinctLiterals : (literals.map Prod.fst).Nodup)
    (distinctSecrets : (secrets.map Prod.fst).Nodup)
    (apart : ∀ name ∈ secrets.map Prod.fst, name ∉ literals.map Prod.fst)
    (passed : assignments envp = withDefault (image ++ literals ++ secrets)) :
    Overrides image literals secrets envp ↔ (image.map Prod.fst).Nodup ∧
      (∀ name ∈ image.map Prod.fst, name ∉ (literals ++ secrets).map Prod.fst) ∧
      declared image literals secrets "PATH" ≠ some "" := by
  have once : ((assignments envp).map Prod.fst).Nodup ↔ (image.map Prod.fst).Nodup ∧
      ∀ name ∈ image.map Prod.fst, name ∉ (literals ++ secrets).map Prod.fst := by
    rw [passed, nodup_withDefault_iff, nodup_iff distinctLiterals distinctSecrets apart]
  obtain ⟨path, along⟩ := Option.isSome_iff_exists.1 (declared_path_isSome image literals secrets)
  constructor
  · intro overrides
    obtain ⟨nodup, own⟩ := once.1 overrides.once
    refine ⟨nodup, own, ?_⟩
    intro empty
    have found := overrides.path (· == "/usr/local/sbin/sh") "sh" (by decide)
    rw [lookPath_eq _ (by decide), overrides.value, empty] at found
    exact search_default_ne_search_empty found
  rintro ⟨nodup, own, ne⟩
  have v (name : String) :
      (assignments envp).lookup name = declared image literals secrets name := by
    rw [passed, lookup_eq_declared apart own]
  refine ⟨once.2 ⟨nodup, own⟩, v, ?_⟩
  intro isFile argv0 bare
  rw [along, ne_eq, Option.some.injEq] at ne
  rw [lookPath_eq isFile bare, v, along]
  simp [ne]

/-! ## From the object to the program -/

/-- A pushed application with the tokens that came beside it. -/
def withTokens (it : Application) (tokens : StringMap) : App := { fromApplication it with tokens }

/-- **Declared variables override the image's, where the image keeps to its own names.**  For every
image, every accepted environment of an application and all variables its references resolve to. -/
theorem declared_env_overrides_iff (r : Runtime) (store : ControllerStore) (it : Application)
    (tokens : StringMap) (pushed : List Secret) (ls : LaunchSpec) (volumes : List Volume)
    (mounts : List SecretMount) (answers : Answers) (files files' : StringMap)
    (secretEnv : List String) (envFile : String) (readFile : String → Except String String)
    (accepted : validateEnv it.spec.env = .ok ())
    (materialized : store.materializeEnv (withTokens it tokens) pushed = .ok secretEnv)
    (written : r.writeSecretEnvFile answers files it.metadata.uid secretEnv = (files', .ok envFile))
    (reads : ∀ content, files'[it.metadata.uid]? = some content →
      readFile (r.secretEnvFile it.metadata.uid) = .ok content) :
    let image := assignments ls.env
    let literals := literalVars it.spec.env
    let secrets := store.secretVars (withTokens it tokens) pushed
    ∃ envp, environment readFile (r.buildConfig it.metadata.uid ls
        { withTokens it tokens with secretEnv } volumes envFile mounts) = .ok envp ∧
      (Overrides image literals secrets envp ↔ (image.map Prod.fst).Nodup ∧
        (∀ name ∈ image.map Prod.fst, name ∉ (literals ++ secrets).map Prod.fst) ∧
        declared image literals secrets "PATH" ≠ some "") := by
  intro image literals secrets
  rw [validateEnv, andThen_eq_ok_iff] at accepted
  obtain ⟨distinctLiterals, validLiterals⟩ := literalVars_of_accepted accepted.2
  obtain ⟨rfl, distinctSecrets, apart, carried⟩ := materializeEnv_spec materialized
  have plainLiterals : ∀ var ∈ literals, '=' ∉ var.1.toList := fun var member =>
    (plain_of_validEnvName (validLiterals var member).2).2.1
  have plainSecrets : ∀ var ∈ secrets, '=' ∉ var.1.toList := fun var member =>
    (plain_of_validEnvName (carried var member).name).2.1
  have spelled : assignments (withTokens it tokens).env = literals := by
    rw [withTokens, fromApplication, envStrings_eq, assignments_map_assign plainLiterals]
  have listed : assignments (ls.env ++ (withTokens it tokens).env ++
      secrets.map fun var => assign var.1 var.2) = image ++ literals ++ secrets := by
    rw [assignments_append, assignments_append, spelled, assignments_map_assign plainSecrets]
  obtain ⟨envp, built, passed⟩ := assignments_environment
    (r.buildConfig it.metadata.uid ls _ volumes envFile mounts)
    (readSecretEnv_of_written carried written reads)
  rw [spelled] at apart
  exact ⟨envp, built, overrides_iff distinctLiterals distinctSecrets apart (passed.trans
    (congrArg withDefault listed))⟩

/-! ## A worker and its image -/

/-- An application that sets its mode itself and takes a password from a secret. -/
def worker : Application where
  metadata := { ns := "team", name := "worker", uid := "5a3f0c1e-7b2d-4e69-8c10-2f9d4b6a7e31" }
  spec :=
    { image := "registry.local/worker", placement := { nodeName := "node-a" }
      env := [{ name := "MODE", value := "batch" },
        { name := "PASSWORD", secretRef := some { name := "db", key := "password" } }] }

def dbSecret : Secret where
  metadata := { ns := "team", name := "db" }
  data := (∅ : SecretData).insert "password" [115, 51]

def nodeStore : ControllerStore := { cn := "node-a" }

/-- The environment files of the node once that of the worker is written. -/
def workerFiles : StringMap :=
  (plainRuntime.writeSecretEnvFile {} ∅ worker.metadata.uid ["PASSWORD=s3"]).1

/-- What the sandbox of the worker reads under any path. -/
def workerFile (_ : String) : Except String String :=
  match workerFiles[worker.metadata.uid]? with
  | some content => .ok content
  | none => .error "no such file"

/-- The environment of the worker with an image that sets the given variables. -/
def workerEnv (imageEnv : List String) : Except String (List String) :=
  environment workerFile (plainRuntime.buildConfig worker.metadata.uid { env := imageEnv }
    { withTokens worker ∅ with secretEnv := ["PASSWORD=s3"] } []
    (plainRuntime.secretEnvFile worker.metadata.uid) [])

theorem worker_written : plainRuntime.writeSecretEnvFile {} ∅ worker.metadata.uid ["PASSWORD=s3"] =
    (workerFiles, .ok (plainRuntime.secretEnvFile worker.metadata.uid)) :=
  Prod.ext rfl (by decide +kernel)

theorem workerFile_reads (content : String)
    (kept : workerFiles[worker.metadata.uid]? = some content) :
    workerFile (plainRuntime.secretEnvFile worker.metadata.uid) = .ok content := by
  rw [workerFile, kept]

/-- The main result at a worker whose image sets other variables. -/
theorem declared_env_overrides_iff_worker :
    ∃ envp, workerEnv ["LANG=C", "PATH=/bin"] = .ok envp ∧
      Overrides [("LANG", "C"), ("PATH", "/bin")] [("MODE", "batch")] [("PASSWORD", "s3")] envp := by
  have image : assignments ["LANG=C", "PATH=/bin"] = [("LANG", "C"), ("PATH", "/bin")] := by
    decide +kernel
  have literals : literalVars worker.spec.env = [("MODE", "batch")] := by decide +kernel
  have secrets : nodeStore.secretVars (withTokens worker ∅) [dbSecret] = [("PASSWORD", "s3")] := by
    decide +kernel
  obtain ⟨envp, started, overrides⟩ := declared_env_overrides_iff plainRuntime nodeStore worker ∅
    [dbSecret] { env := ["LANG=C", "PATH=/bin"] } [] [] {} ∅ workerFiles ["PASSWORD=s3"]
    (plainRuntime.secretEnvFile worker.metadata.uid) workerFile (by decide +kernel)
    (by decide +kernel) worker_written workerFile_reads
  rw [image, literals, secrets] at overrides
  exact ⟨envp, started, overrides.2 (by decide +kernel)⟩

/-- **The value of the image comes first.**  With an image that sets the mode as well, the mode is in
the list twice, and first with the value of the image. -/
theorem image_value_comes_first : validateEnv worker.spec.env = .ok () ∧
    nodeStore.materializeEnv (withTokens worker ∅) [dbSecret] = .ok ["PASSWORD=s3"] ∧
    workerEnv ["MODE=image", "PATH=/bin"] =
      .ok ["MODE=image", "PATH=/bin", "MODE=batch", "PASSWORD=s3"] ∧
    ¬ Overrides [("MODE", "image"), ("PATH", "/bin")] [("MODE", "batch")] [("PASSWORD", "s3")]
      ["MODE=image", "PATH=/bin", "MODE=batch", "PASSWORD=s3"] := by
  refine ⟨by decide +kernel, by decide +kernel, by decide +kernel, ?_⟩
  intro overrides
  exact absurd (overrides.value "MODE") (by decide +kernel)

/-! ## The round trip of the file -/

theorem exists_vars_of_rendered {es : List String} {content : String}
    (made : renderSecretEnv es = .ok content) :
    ∃ vars : List (String × String), (∀ var ∈ vars, Carried var) ∧
      es = vars.map fun var => assign var.1 var.2 := by
  induction es generalizing content with
  | nil => exact ⟨[], by simp, rfl⟩
  | cons entry rest ih =>
    rw [renderSecretEnv] at made
    split at made
    · cases made
    rename_i name v parted
    simp only [bind_eq_ok_iff] at made
    obtain ⟨_, named, _, valued, later, rendered, -⟩ := made
    obtain ⟨vars, carried, rfl⟩ := ih rendered
    refine ⟨(String.ofList name, String.ofList v) :: vars, ?_, ?_⟩
    · exact List.forall_mem_cons.2 ⟨⟨named, valued⟩, carried⟩
    · have whole : entry = assign (String.ofList name) (String.ofList v) := by
        apply String.toList_injective
        simp [assign, (eq_append_of_cut parted).1]
      rw [List.map_cons, whole]

/-- **What the agent writes, the sandbox reads back**, whatever the assignments are. -/
theorem secret_env_round_trip {r : Runtime} {ans : Answers} {files files' : StringMap} {id path : String}
    {es : List String} (wrote : r.writeSecretEnvFile ans files id es = (files', .ok path))
    {readFile : String → Except String String}
    (reads : ∀ content, files'[id]? = some content → readFile (r.secretEnvFile id) = .ok content) :
    readSecretEnv readFile path = .ok es := by
  obtain ⟨content, made⟩ : ∃ content, renderSecretEnv es = .ok content := by
    obtain ⟨rfl, -⟩ | ⟨content, made, -⟩ := writeSecretEnvFile_spec wrote
    · exact ⟨_, rfl⟩
    · exact ⟨content, made⟩
  obtain ⟨vars, carried, rfl⟩ := exists_vars_of_rendered made
  exact readSecretEnv_of_written carried wrote reads

theorem secret_env_round_trip_worker :
    readSecretEnv workerFile (plainRuntime.secretEnvFile worker.metadata.uid) = .ok ["PASSWORD=s3"] :=
  secret_env_round_trip worker_written workerFile_reads

end Horchestra.Agent
