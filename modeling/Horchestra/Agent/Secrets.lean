import Horchestra.Agent.Workload
import Horchestra.Foundations.Assignments
import Horchestra.Foundations.NameMap

/-!
# The secrets of a workload

The agent turns what an application says about secrets into values: the files of its secret and
token volumes, and the variables of its environment that come from a secret.  An inline secret
carries its data; the data of one that is kept in a vault is fetched by a client of the node.  What
is missing is an error, unless the reference is optional.

`materializeEnv_spec` says what the variables are: those the references define, in order, every name
once and none that the application spells out itself.
-/

namespace Horchestra.Agent

open Api Foundations Text Checks NameMap Assignments

abbrev SecretData := Std.ExtTreeMap String (List UInt8)

/-- The bytes of a value as text, a character a byte. -/
def textOf (value : List UInt8) : String :=
  String.ofList (value.map fun byte => Char.ofNat byte.toNat)

/-- The secrets mechanism of a node: the node it serves, the authority it hands out with a token, and
its client of the vault, which is given the secret and the token of the workload. -/
structure ControllerStore where
  cn : String := ""
  ca : List UInt8 := []
  vault : Option (Secret → String → Except String SecretData) := none

def tokenAudienceAPI : String := "horchestra"
def tokenAudienceVault : String := "vault"

def App.token (app : App) (audience : String) : String := app.tokens.getD audience ""
def App.vaultToken (app : App) : String := app.token tokenAudienceVault

def VolumeMount.tokenAudience (m : VolumeMount) : String :=
  if m.volume.audience ≠ "" then m.volume.audience else tokenAudienceAPI

/-- Secrets are handed out only for a workload of the node itself. -/
def ControllerStore.ownWorkload (s : ControllerStore) (app : App) : Except String Unit :=
  andThen (require (s.cn ≠ "") ("refusing secrets for " ++ app.uid ++
    ": this mechanism was never bound to a node identity")) <|
  andThen (require (app.node ≠ "") ("refusing secrets for " ++ app.uid ++
    ": it names no node, so agent " ++ quote s.cn ++ " is not the one deploying it")) <|
  require (app.node == s.cn) ("refusing secrets for " ++ app.uid ++ ": its nodeName is " ++
    quote app.node ++ ", not this agent's identity " ++ quote s.cn)

def index (pushed : List Secret) : Std.ExtTreeMap String Secret :=
  indexBy (fun secret => workloadID secret.metadata.ns secret.metadata.name) id pushed

def ControllerStore.resolveData (s : ControllerStore) (secret : Secret) (token : String) :
    Except String SecretData :=
  if secret.type ≠ secretTypeVault then .ok secret.data
  else
    match s.vault with
    | none => .error ("type " ++ secret.type ++ " needs a vault client this node does not have")
    | some fetch => fetch secret token

/-! ## Variables -/

/-- The names that are taken, and the variables so far. -/
structure Claims where
  claimed : List String
  out : List String

def Claims.add (st : Claims) (name value : String) : Except String Claims := do
  validEnvName name "env name"
  validEnvValue name value
  require (!st.claimed.contains name) ("env name " ++ quote name ++ " is already set by another entry")
  return ⟨name :: st.claimed, st.out ++ [assign name value]⟩

/-- The same outcome with a longer error. -/
def located {α : Type} (place : String) (outcome : Except String α) : Except String α :=
  outcome.mapError fun e => place ++ ": " ++ e

/-- The variables of one reference, onto the ones before it. -/
def ControllerStore.addRef (s : ControllerStore) (app : App) (byID : Std.ExtTreeMap String Secret)
    (st : Claims) (v : EnvVar) : Except String Claims :=
  match v.secretRef with
  | none => .ok st
  | some ref =>
    let place := "secret " ++ quote ref.name
    match byID[workloadID app.ns ref.name]? with
    | none => if ref.isOptional then .ok st else .error (place ++ " not available")
    | some secret =>
      match s.resolveData secret app.vaultToken with
      | .error e => if ref.isOptional then .ok st else .error (place ++ ": " ++ e)
      | .ok data =>
        if ref.isWildcard then
          data.toList.foldlM (fun st (key, value) =>
            located (place ++ " key " ++ quote key)
              (st.add (ref.namePrefix ++ key) (textOf value))) st
        else
          match data[ref.key]? with
          | none =>
            if ref.isOptional then .ok st
            else .error (place ++ ": key " ++ quote ref.key ++ " not found")
          | some value => located (place ++ " key " ++ quote ref.key) (st.add v.name (textOf value))

def ControllerStore.materializeEnv (s : ControllerStore) (app : App) (pushed : List Secret) :
    Except String (List String) :=
  if app.envRefs.isEmpty then .ok []
  else do
    s.ownWorkload app
    let st ← app.envRefs.foldlM (s.addRef app (index pushed))
      ⟨(assignments app.env).map Prod.fst, []⟩
    return st.out

/-! ## What the variables are -/

def ControllerStore.refVars (s : ControllerStore) (app : App) (byID : Std.ExtTreeMap String Secret)
    (v : EnvVar) : List (String × String) :=
  match v.secretRef with
  | none => []
  | some ref =>
    match byID[workloadID app.ns ref.name]? with
    | none => []
    | some secret =>
      match s.resolveData secret app.vaultToken with
      | .error _ => []
      | .ok data =>
        if ref.isWildcard then
          data.toList.map fun (key, value) => (ref.namePrefix ++ key, textOf value)
        else
          match data[ref.key]? with
          | none => []
          | some value => [(v.name, textOf value)]

/-- A name and a value an environment file can carry. -/
structure Carried (var : String × String) : Prop where
  name : validEnvName var.1 "env name" = .ok ()
  value : validEnvValue var.1 var.2 = .ok ()

/-- What the loop over the references keeps: the variables so far are `vars`, no name twice, and
the claimed names are theirs and the ones taken at the start. -/
structure Claims.Holds (taken : List String) (vars : List (String × String)) (st : Claims) : Prop where
  out : st.out = vars.map fun var => assign var.1 var.2
  claimed : ∀ name, name ∈ st.claimed ↔ name ∈ taken ∨ name ∈ vars.map Prod.fst
  distinct : (vars.map Prod.fst).Nodup
  apart : ∀ name ∈ vars.map Prod.fst, name ∉ taken
  carried : ∀ var ∈ vars, Carried var

section

variable {taken : List String} {vars : List (String × String)} {st st' : Claims}

@[simp] theorem located_eq_ok_iff {α : Type} {place : String} {res : Except String α} {a : α} :
    located place res = .ok a ↔ res = .ok a := by
  cases res <;> simp [located, Except.mapError]

theorem Claims.Holds.add (holds : st.Holds taken vars) {name v : String}
    (added : st.add name v = .ok st') : st'.Holds taken (vars ++ [(name, v)]) := by
  simp only [Claims.add, bind_eq_ok_iff, pure, Except.pure, Except.ok.injEq] at added
  obtain ⟨_, validName, _, validValue, _, fresh, rfl⟩ := added
  have unclaimed : name ∉ st.claimed := by simpa using require_eq_ok_iff.1 fresh
  rw [holds.claimed, not_or] at unclaimed
  obtain ⟨untaken, unused⟩ := unclaimed
  refine ⟨?_, ?_, ?_, ?_, ?_⟩
  · simp [holds.out]
  · intro other
    simp only [List.mem_cons, holds.claimed, List.map_append, List.mem_append, List.map_cons,
      List.map_nil, List.not_mem_nil, or_false]
    tauto
  · rw [List.map_append, List.map_singleton]
    exact holds.distinct.append (List.nodup_singleton _) (by simpa using unused)
  · intro other mem
    rw [List.map_append, List.mem_append] at mem
    rcases mem with pre | last
    · exact holds.apart other pre
    obtain rfl : other = name := by simpa using last
    exact untaken
  · intro var mem
    rcases List.mem_append.1 mem with pre | last
    · exact holds.carried var pre
    obtain rfl : var = (name, v) := by simpa using last
    exact ⟨validName, validValue⟩

theorem Claims.Holds.addAll {es : List (String × List UInt8)}
    {place name : String × List UInt8 → String} (holds : st.Holds taken vars)
    (done : es.foldlM (fun st e =>
      located (place e) (st.add (name e) (textOf e.2))) st = .ok st') :
    st'.Holds taken (vars ++ es.map fun e => (name e, textOf e.2)) := by
  induction es generalizing st vars with
  | nil =>
    cases done
    simpa using holds
  | cons e rest ih =>
    rw [List.foldlM_cons, bind_eq_ok_iff] at done
    obtain ⟨next, added, finished⟩ := done
    have after := ih (holds.add (located_eq_ok_iff.1 added)) finished
    rwa [List.append_assoc, List.singleton_append] at after

theorem Claims.Holds.addRef {s : ControllerStore} {app : App}
    {byID : Std.ExtTreeMap String Secret} {v : EnvVar} (holds : st.Holds taken vars)
    (added : s.addRef app byID st v = .ok st') :
    st'.Holds taken (vars ++ s.refVars app byID v) := by
  -- a reference that is optional and cannot be resolved adds nothing
  have skipped {optional : Bool} {e : String}
      (passed : (if optional then .ok st else .error e : Except String Claims) = .ok st') :
      st'.Holds taken (vars ++ []) := by
    split at passed
    · cases passed
      simpa using holds
    · cases passed
  rw [ControllerStore.addRef] at added
  rw [ControllerStore.refVars]
  cases source : v.secretRef with
  | none =>
    rw [source] at added
    cases added
    simpa using holds
  | some ref =>
    simp only [source] at added ⊢
    cases known : byID[workloadID app.ns ref.name]? with
    | none =>
      simp only [known] at added ⊢
      exact skipped added
    | some sec =>
      simp only [known] at added ⊢
      cases resolved : s.resolveData sec app.vaultToken with
      | error e =>
        simp only [resolved] at added ⊢
        exact skipped added
      | ok data =>
        simp only [resolved] at added ⊢
        split at added
        next wildcard =>
          rw [if_pos wildcard]
          exact holds.addAll added
        rename_i single
        rw [if_neg single]
        cases found : data[ref.key]? with
        | none =>
          simp only [found] at added ⊢
          exact skipped added
        | some value =>
          simp only [found] at added ⊢
          exact holds.add (located_eq_ok_iff.1 added)

end

/-- The variables the references of a workload define. -/
def ControllerStore.secretVars (s : ControllerStore) (app : App) (pushed : List Secret) :
    List (String × String) :=
  app.envRefs.flatMap (s.refVars app (index pushed))

/-- **The variables that come from secrets** are the ones the references define; their names are
distinct, and none is a name the workload spells out itself. -/
theorem materializeEnv_spec {s : ControllerStore} {app : App} {pushed : List Secret}
    {env : List String} (done : s.materializeEnv app pushed = .ok env) :
    env = (s.secretVars app pushed).map (fun var => assign var.1 var.2) ∧
      ((s.secretVars app pushed).map Prod.fst).Nodup ∧
      (∀ name ∈ (s.secretVars app pushed).map Prod.fst, name ∉ (assignments app.env).map Prod.fst) ∧
      ∀ var ∈ s.secretVars app pushed, Carried var := by
  rw [ControllerStore.materializeEnv] at done
  split at done
  next none =>
    cases done
    rw [List.isEmpty_iff] at none
    simp [ControllerStore.secretVars, none]
  simp only [bind_eq_ok_iff, pure, Except.pure, Except.ok.injEq] at done
  obtain ⟨_, _, st, looped, rfl⟩ := done
  have start : Claims.Holds ((assignments app.env).map Prod.fst) []
      ⟨(assignments app.env).map Prod.fst, []⟩ := by
    refine ⟨rfl, ?_, List.nodup_nil, ?_, ?_⟩ <;> simp
  have loop (refs : List EnvVar) (vars : List (String × String)) (pre after : Claims)
      (holds : pre.Holds ((assignments app.env).map Prod.fst) vars)
      (ran : refs.foldlM (s.addRef app (index pushed)) pre = .ok after) :
      after.Holds ((assignments app.env).map Prod.fst)
        (vars ++ refs.flatMap (s.refVars app (index pushed))) := by
    induction refs generalizing vars pre with
    | nil =>
      cases ran
      simpa using holds
    | cons v rest ih =>
      rw [List.foldlM_cons, bind_eq_ok_iff] at ran
      obtain ⟨next, added, finished⟩ := ran
      have done := ih _ next (holds.addRef added) finished
      rwa [List.append_assoc, ← List.flatMap_cons] at done
  have holds := loop app.envRefs [] _ st start looped
  rw [List.nil_append] at holds
  exact ⟨holds.out, holds.distinct, holds.apart, holds.carried⟩

end Horchestra.Agent
