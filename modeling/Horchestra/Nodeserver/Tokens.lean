import Horchestra.Agent.Secrets

/-!
# The identity tokens of workloads

The control plane mints an identity token for each audience a workload needs one at, and pushes it
beside the desired state of the workload's node.  A minted token is kept under the identity of the
workload and the audience, and pushed again until little of its life is left.  A token is modelled
by the claims it signs, time is counted in nanoseconds, and the claims carry whole seconds.

A desired state asks for one token after the other, and the desired states of different nodes are
computed beside each other, so a run is a list of such requests, each made for a pinned application
as it is stored at that moment.

`token_names_workload_iff`: a pushed token names the application it is pushed for and will live for
the margin exactly when the earlier request it was signed for, if there is one whose token is still
used, was made for the object that has the name now, and the token's last second is not the one in
which the margin begins.
`recreated_application_gets_old_token` is the run in which it does not.
-/

namespace Horchestra.Nodeserver

open Api
open Agent (tokenAudienceVault VolumeMount.tokenAudience)
open Foundations Text NameMap

/-! ## The issuer -/

def nanosPerSecond : Nat := 1000000000

def workloadTokenTTL : Time := 15 * 60 * nanosPerSecond

structure TokenClaims where
  iss : String
  sub : String
  aud : List String
  iat : Nat
  nbf : Nat
  exp : Nat
  ns : String
  name : String
  uid : String
  deriving DecidableEq

structure MintedToken where
  token : TokenClaims
  exp : Time

/-- The namespace and the name in the identity of a workload. -/
def cutWorkload (workload : String) : String × String :=
  match cut '_' workload.toList with
  | some (ns, name) => (String.ofList ns, String.ofList name)
  | none => (workload, "")

def workloadSubject (workload : String) : String :=
  match cut '_' workload.toList with
  | some (ns, name) => "system:serviceaccount:" ++ String.ofList ns ++ ":" ++ String.ofList name
  | none => "system:serviceaccount::" ++ workload

/-- The token the issuer signs, when signing succeeds. -/
def mintWorkloadToken (issuer : String) (now : Time)
    (workload uid audience : String) : MintedToken :=
  let audience := if audience = "" then tokenAudienceVault else audience
  let exp := now + workloadTokenTTL
  { token :=
      { iss := issuer
        sub := workloadSubject workload
        aud := [audience]
        iat := now / nanosPerSecond
        nbf := now / nanosPerSecond
        exp := exp / nanosPerSecond
        ns := (cutWorkload workload).1
        name := (cutWorkload workload).2
        uid }
    exp }

/-! ## The cache -/

def tokenRefreshMargin : Time := 5 * 60 * nanosPerSecond

structure TokenKey where
  workload : String
  audience : String
  deriving DecidableEq

abbrev TokenCache := AList fun _ : TokenKey => MintedToken

/-- The clock as one request reads it, first against a kept token and then to mint a new one, and
the failure of the signature, if it fails. -/
structure Reading where
  checked : Time
  minted : Time
  fault : Option String := none

/-- The token that is kept for a key and still has more than the margin to live. -/
def liveToken (cache : TokenCache) (key : TokenKey) (now : Time) : Option MintedToken :=
  (cache.lookup key).filter fun t => decide (now + tokenRefreshMargin < t.exp)

/-- A token, and the moment the request for it is answered. -/
structure Answer where
  token : TokenClaims
  moment : Time

def workloadToken (issuer : String) (reading : Reading) (workload uid audience : String)
    (cache : TokenCache) : Except String Answer × TokenCache :=
  let key : TokenKey := ⟨workload, audience⟩
  match liveToken cache key reading.checked with
  | some t => (.ok ⟨t.token, reading.checked⟩, cache)
  | none =>
    match reading.fault with
    | some e => (.error e, cache)
    | none =>
      let t := mintWorkloadToken issuer reading.minted workload uid audience
      (.ok ⟨t.token, reading.minted⟩, cache.insert key t)

/-! ## What a desired state asks for -/

def appID (app : Application) : String := workloadID app.metadata.ns app.metadata.name

/-- The objects a desired state is computed from.  An application has the name of an object, in a
namespace, and no other application has both. -/
structure Stored where
  apps : List Application := []
  secrets : List Secret := []
  stores : List SecretStore := []
  named : ∀ app ∈ apps, isDNS1123Label app.metadata.ns = true ∧
    isDNS1123Subdomain app.metadata.name = true
  distinct : (apps.map fun app => (app.metadata.ns, app.metadata.name)).Nodup

def tokenAudiences (app : Application) : List String :=
  ((app.spec.volumes.filter (·.isToken)).map VolumeMount.tokenAudience).dedup.insertionSort (· ≤ ·)

/-- The applications a node is sent: those pinned to it, but for the ones that have finished and are
not going. -/
def pinned (stored : Stored) (node : String) : List Application :=
  stored.apps.filter fun app =>
    app.spec.placement.nodeName == node && !(app.finished && !app.deleting)

/-- The identities of the secrets an application consumes. -/
def appRefs (app : Application) : List String := app.secretRefs.map (workloadID app.metadata.ns)

/-- The vault secrets a node is sent that name a store, with the store's identity. -/
def vaultSecretStore (stored : Stored) (node : String) : Std.ExtTreeMap String String :=
  let referenced := (pinned stored node).flatMap appRefs
  indexBy (fun secret => workloadID secret.metadata.ns secret.metadata.name)
    (fun secret => workloadID secret.metadata.ns (secret.metadata.annValue annExternalSecretStore))
    (stored.secrets.filter fun secret =>
      referenced.contains (workloadID secret.metadata.ns secret.metadata.name) &&
        secret.type == secretTypeVault && secret.metadata.annValue annExternalSecretStore != "")

/-- The stores a node is sent that take a workload token. -/
def tokenStores (stored : Stored) (node : String) : List String :=
  let named := (vaultSecretStore stored node).values
  (stored.stores.filter fun store =>
    named.contains (workloadID store.metadata.ns store.metadata.name) &&
      store.spec.authMethod == authMethodKubernetes).map
    fun store => workloadID store.metadata.ns store.metadata.name

/-- The audiences an application is owed a token at: the vault's when one of its secrets is behind a
store that takes one, and those of its token volumes. -/
def wanted (stored : Stored) (node : String) (app : Application) : List String :=
  let vault := (appRefs app).any fun ref =>
    match (vaultSecretStore stored node)[ref]? with
    | some store => (tokenStores stored node).contains store
    | none => false
  ((if vault then [tokenAudienceVault] else []) ++ tokenAudiences app).dedup.insertionSort (· ≤ ·)

/-- A request for a token, made while the desired state of a node is computed. -/
structure TokenRequest where
  stored : Stored
  node : String
  app : Application
  audience : String
  reading : Reading
  asked : app ∈ pinned stored node
  owed : audience ∈ wanted stored node app

def TokenRequest.key (request : TokenRequest) : TokenKey := ⟨appID request.app, request.audience⟩

/-- A token in a desired state: the object it is addressed to, the token, the audience it is filed
under, and when it was put there. -/
structure WorkloadToken where
  workload : String
  token : TokenClaims
  audience : String
  moment : Time
  deriving DecidableEq

def TokenRequest.answer (issuer : String) (request : TokenRequest) (cache : TokenCache) :
    Except String Answer × TokenCache :=
  workloadToken issuer request.reading (appID request.app) request.app.metadata.uid request.audience
    cache

/-- What a request puts into the desired state; nothing when minting failed. -/
def TokenRequest.pushed (issuer : String) (request : TokenRequest) (cache : TokenCache) :
    Option WorkloadToken :=
  match (request.answer issuer cache).1 with
  | .ok answer => some ⟨request.app.metadata.uid, answer.token, request.audience, answer.moment⟩
  | .error _ => none

/-- The cache after the requests of a run, which starts with none. -/
def cacheAfter (issuer : String) (history : List TokenRequest) : TokenCache :=
  history.foldl (fun cache request => (request.answer issuer cache).2) ∅

/-! ## Whom a token names -/

/-- The token names the application, its namespace, its name and the audience it is filed under, and
its last second is the margin away. -/
structure WorkloadToken.Names (t : WorkloadToken) (app : Application) : Prop where
  addressed : t.workload = app.metadata.uid
  uid : t.token.uid = app.metadata.uid
  ns : t.token.ns = app.metadata.ns
  name : t.token.name = app.metadata.name
  subject : t.token.sub = "system:serviceaccount:" ++ app.metadata.ns ++ ":" ++ app.metadata.name
  audience : t.token.aud = [t.audience]
  lives : t.moment + tokenRefreshMargin ≤ t.token.exp * nanosPerSecond

theorem cut_workloadID {ns name : String} (label : isDNS1123Label ns = true) :
    cut '_' (workloadID ns name).toList = some (ns.toList, name.toList) := by
  simp only [isDNS1123Label, isDNS1123, Bool.and_eq_true] at label
  have inNs : '_' ∉ ns.toList := notMem_of_isDNSLabel label.1 (by decide)
  have some_ : ns ≠ "" := by
    rintro rfl
    cases label.1
  rw [workloadID, if_neg some_, String.toList_append, String.toList_append, List.append_assoc]
  exact cut_append '_' ns.toList name.toList inNs

theorem cutWorkload_workloadID {ns name : String} (label : isDNS1123Label ns = true) :
    cutWorkload (workloadID ns name) = (ns, name) := by
  simp [cutWorkload, cut_workloadID label]

theorem workloadSubject_workloadID {ns name : String} (label : isDNS1123Label ns = true) :
    workloadSubject (workloadID ns name) = "system:serviceaccount:" ++ ns ++ ":" ++ name := by
  simp [workloadSubject, cut_workloadID label]

theorem tokenAudience_ne_empty (m : VolumeMount) : VolumeMount.tokenAudience m ≠ "" := by
  rw [VolumeMount.tokenAudience]
  split
  · assumption
  · decide

theorem TokenRequest.audience_ne_empty (req : TokenRequest) : req.audience ≠ "" := by
  have owed := req.owed
  simp only [wanted, List.mem_insertionSort, List.mem_dedup, List.mem_append, tokenAudiences,
    List.mem_map] at owed
  rcases owed with vault | ⟨m, -, eq⟩
  · split at vault
    · rw [List.mem_singleton.1 vault]
      decide
    · cases vault
  · exact eq ▸ tokenAudience_ne_empty m

theorem TokenRequest.label (req : TokenRequest) : isDNS1123Label req.app.metadata.ns = true :=
  (req.stored.named _ (List.mem_of_mem_filter req.asked)).1

theorem names_iff_of_minted (issuer : String) (req : TokenRequest) (uid : String)
    (minted moment : Time) :
    WorkloadToken.Names
        ⟨req.app.metadata.uid, (mintWorkloadToken issuer minted req.key.workload uid
          req.key.audience).token, req.audience, moment⟩ req.app ↔
      uid = req.app.metadata.uid ∧
        moment + tokenRefreshMargin ≤
          (minted + workloadTokenTTL) / nanosPerSecond * nanosPerSecond := by
  constructor
  · intro names
    exact ⟨names.uid, names.lives⟩
  rintro ⟨eq, lives⟩
  have parts : cutWorkload req.key.workload =
      (req.app.metadata.ns, req.app.metadata.name) := cutWorkload_workloadID req.label
  exact
    { addressed := rfl
      uid := eq
      ns := congrArg Prod.fst parts
      name := congrArg Prod.snd parts
      subject := workloadSubject_workloadID req.label
      audience := by
        show [if req.audience = "" then tokenAudienceVault else req.audience] = _
        rw [if_neg req.audience_ne_empty]
      lives }

/-- A new token outlives the margin, whatever the fraction of a second its claims drop. -/
theorem fresh_lives (minted : Nat) : minted + tokenRefreshMargin ≤
    (minted + workloadTokenTTL) / nanosPerSecond * nanosPerSecond := by
  simp only [tokenRefreshMargin, workloadTokenTTL, nanosPerSecond]
  omega

/-! ## The cache over a run -/

/-- What was signed for one request is still pushed for another. -/
def TokenRequest.covers (signed request : TokenRequest) : Bool :=
  request.reading.checked + tokenRefreshMargin < signed.reading.minted + workloadTokenTTL

/-- The last of the requests for a key that a token was signed for. -/
def signer (key : TokenKey) (history : List TokenRequest) : Option TokenRequest :=
  history.foldl (fun last request =>
    if request.key = key ∧ request.reading.fault = none ∧ !last.any (·.covers request) then
      some request
    else last) none

/-- The token that a request is given under a key when one is signed for it. -/
def TokenRequest.signed (issuer : String) (key : TokenKey) (request : TokenRequest) : MintedToken :=
  mintWorkloadToken issuer request.reading.minted key.workload request.app.metadata.uid key.audience

theorem liveToken_of_lookup {issuer : String} {cache : TokenCache} {last : Option TokenRequest}
    {req : TokenRequest} (kept : cache.lookup req.key = last.map (·.signed issuer req.key)) :
    liveToken cache req.key req.reading.checked =
      (last.filter (·.covers req)).map (·.signed issuer req.key) := by
  have exp (s : TokenRequest) : (s.signed issuer req.key).exp =
    s.reading.minted + workloadTokenTTL := rfl
  rw [liveToken, kept]
  cases last with
  | none => rfl
  | some s =>
    simp only [Option.map_some, Option.filter_some, exp, TokenRequest.covers]
    split <;> rfl

/-- The request is answered with a token signed for it. -/
def TokenRequest.Signs (request : TokenRequest) (cache : TokenCache) : Prop :=
  liveToken cache request.key request.reading.checked = none ∧ request.reading.fault = none

theorem answer_of_live {issuer : String} {cache : TokenCache} {req : TokenRequest} {t : MintedToken}
    (live : liveToken cache req.key req.reading.checked = some t) :
    req.answer issuer cache = (.ok ⟨t.token, req.reading.checked⟩, cache) := by
  rw [TokenRequest.key] at live
  rw [TokenRequest.answer, workloadToken, live]

theorem answer_of_fault {issuer : String} {cache : TokenCache} {req : TokenRequest} {e : String}
    (none : liveToken cache req.key req.reading.checked = none)
    (fault : req.reading.fault = some e) : req.answer issuer cache = (.error e, cache) := by
  rw [TokenRequest.key] at none
  rw [TokenRequest.answer, workloadToken, none, fault]

theorem answer_of_signs {issuer : String} {cache : TokenCache} {req : TokenRequest}
    (signs : req.Signs cache) : req.answer issuer cache =
      (.ok ⟨(req.signed issuer req.key).token, req.reading.minted⟩,
        cache.insert req.key (req.signed issuer req.key)) := by
  obtain ⟨none, fine⟩ := signs
  rw [TokenRequest.key] at none
  rw [TokenRequest.answer, workloadToken, none, fine]
  rfl

theorem lookup_answer_of_ne {issuer : String} {cache : TokenCache} {req : TokenRequest}
    {key : TokenKey} (other : req.key ≠ key) :
    (req.answer issuer cache).2.lookup key = cache.lookup key := by
  cases live : liveToken cache req.key req.reading.checked with
  | some t => rw [answer_of_live live]
  | none =>
    cases fault : req.reading.fault with
    | some e => rw [answer_of_fault live fault]
    | none => rw [answer_of_signs ⟨live, fault⟩, AList.lookup_insert_ne (Ne.symm other)]

/-- The token that is kept for a key is the one its last signer was given. -/
theorem lookup_cacheAfter (issuer : String) (history : List TokenRequest) (key : TokenKey) :
    (cacheAfter issuer history).lookup key =
      (signer key history).map (·.signed issuer key) := by
  induction history using List.reverseRecOn with
  | nil => rfl
  | append_singleton history req ih =>
    have after : cacheAfter issuer (history ++ [req]) =
        (req.answer issuer (cacheAfter issuer history)).2 := List.foldl_concat ..
    have last : signer key (history ++ [req]) = if req.key = key ∧ req.reading.fault = none ∧
        !(signer key history).any (·.covers req) then some req else signer key history :=
      List.foldl_concat ..
    rw [after, last]
    by_cases own : req.key = key
    swap
    · rw [lookup_answer_of_ne own, ih, if_neg fun it => own it.1]
    subst own
    have live := liveToken_of_lookup ih
    cases used : (signer req.key history).filter (·.covers req) with
    | some s =>
      obtain ⟨found, covers⟩ := Option.filter_eq_some_iff.1 used
      rw [used] at live
      have again : ¬ (!(signer req.key history).any (·.covers req)) = true := by
        rw [found, Option.any_some, covers]
        exact Bool.false_ne_true
      rw [answer_of_live live, ih, if_neg fun it => again it.2.2]
    | none =>
      have free : (signer req.key history).any (·.covers req) = false := by
        cases eq : signer req.key history with
        | none => rfl
        | some s =>
          rw [eq, Option.filter_some] at used
          rw [Option.any_some]
          cases covered : s.covers req with
          | false => rfl
          | true =>
            rw [covered, if_pos rfl] at used
            cases used
      rw [used] at live
      cases fault : req.reading.fault with
      | some e => rw [answer_of_fault live fault, ih, if_neg (by simp)]
      | none =>
        rw [answer_of_signs ⟨live, fault⟩, AList.lookup_insert, if_pos ⟨rfl, rfl, by simp [free]⟩]
        rfl

/-- The request whose token is pushed again was made for the same object, and that token's last
second is the margin away. -/
def SameObject (history : List TokenRequest) (request : TokenRequest) : Prop :=
  ∀ signed ∈ signer request.key history, signed.covers request = true →
    signed.app.metadata.uid = request.app.metadata.uid ∧
      request.reading.checked + tokenRefreshMargin ≤
        (signed.reading.minted + workloadTokenTTL) / nanosPerSecond * nanosPerSecond

theorem token_names_workload_iff (issuer : String) (history : List TokenRequest)
    (request : TokenRequest) :
    (∀ t ∈ request.pushed issuer (cacheAfter issuer history), t.Names request.app) ↔
      SameObject history request := by
  have live := liveToken_of_lookup (lookup_cacheAfter issuer history request.key)
  rw [TokenRequest.pushed]
  cases used : (signer request.key history).filter (·.covers request) with
  | some s =>
    obtain ⟨found, covers⟩ := Option.filter_eq_some_iff.1 used
    rw [used] at live
    rw [answer_of_live live]
    simp only [Option.mem_def, Option.some.injEq, forall_eq', SameObject, found, covers,
      forall_const]
    exact names_iff_of_minted issuer request s.app.metadata.uid s.reading.minted _
  | none =>
    -- nothing is used again, and a new token is right
    have unused : SameObject history request := by
      intro s found covers
      have again := (Option.filter_eq_some_iff (p := (·.covers request))).2 ⟨found, covers⟩
      cases used.symm.trans again
    refine iff_of_true ?_ unused
    rw [used] at live
    cases fault : request.reading.fault with
    | some e =>
      rw [answer_of_fault live fault]
      exact nofun
    | none =>
      rw [answer_of_signs ⟨live, fault⟩]
      have fresh := (names_iff_of_minted issuer request request.app.metadata.uid
        request.reading.minted request.reading.minted).2 ⟨rfl, fresh_lives _⟩
      exact fun t pushed => Option.some.inj pushed ▸ fresh

/-! ## An application that is created again -/

/-- An application that mounts a token, as one object or another of the same name. -/
def webWith (uid : String) : Application where
  metadata := { ns := "team", name := "web", uid }
  spec :=
    { placement := { nodeName := "n1" }
      volumes := [{ mountPath := "/token", volume := { type := volumeTypeToken } }] }

def storedWeb (uid : String) : Stored where
  apps := [webWith uid]
  named := by simp [webWith]; decide
  distinct := by simp

theorem asked_web (uid : String) : webWith uid ∈ pinned (storedWeb uid) "n1" :=
  List.mem_filter.2 ⟨List.mem_singleton_self _, rfl⟩

theorem owed_web (uid : String) : "horchestra" ∈ wanted (storedWeb uid) "n1" (webWith uid) := by
  simp only [wanted, List.mem_insertionSort, List.mem_dedup, List.mem_append, tokenAudiences]
  exact .inr (List.Mem.head _)

/-- The request made for the application at some moment. -/
def webRequest (uid : String) (now : Time) : TokenRequest where
  stored := storedWeb uid
  node := "n1"
  app := webWith uid
  audience := "horchestra"
  reading := { checked := now, minted := now }
  asked := asked_web uid
  owed := owed_web uid

-- a minute later the token that is kept for the application is pushed again
theorem token_names_workload_iff_kept :
    ∃ t, (webRequest "first" (60 * nanosPerSecond)).pushed "https://controller"
        (cacheAfter "https://controller" [webRequest "first" 0]) = some t ∧
      t.token.iat = 0 ∧ t.Names (webWith "first") := by
  have last : signer (webRequest "first" (60 * nanosPerSecond)).key [webRequest "first" 0] =
      some (webRequest "first" 0) := by
    rw [signer, List.foldl_cons, List.foldl_nil]
    exact if_pos ⟨rfl, rfl, rfl⟩
  have kept : (webRequest "first" (60 * nanosPerSecond)).pushed "https://controller"
      (cacheAfter "https://controller" [webRequest "first" 0]) = some ⟨"first", (mintWorkloadToken
        "https://controller" 0 "team_web" "first" "horchestra").token, "horchestra",
        60 * nanosPerSecond⟩ := by decide +kernel
  refine ⟨_, kept, rfl, (token_names_workload_iff "https://controller" [webRequest "first" 0]
    (webRequest "first" (60 * nanosPerSecond))).2 ?_ _ kept⟩
  intro s found _
  obtain rfl := Option.some.inj (last.symm.trans found)
  exact ⟨rfl, by decide +kernel⟩

/-- The application is deleted and created again within a minute: the token that is pushed for the
new object was minted for the old one. -/
theorem recreated_application_gets_old_token :
    ∃ t, (webRequest "second" (60 * nanosPerSecond)).pushed "https://controller"
        (cacheAfter "https://controller" [webRequest "first" 0]) = some t ∧
      t.workload = "second" ∧ t.token.uid = "first" ∧ ¬ t.Names (webWith "second") := by
  refine ⟨⟨"second",
    (mintWorkloadToken "https://controller" 0 "team_web" "first" "horchestra").token,
    "horchestra", 60 * nanosPerSecond⟩, by decide +kernel, rfl, rfl, ?_⟩
  intro names
  exact absurd names.uid (by decide)

/-! ## How often a token is signed -/

/-- A token that is kept for the key lives until some moment or longer. -/
def KeptUntil (key : TokenKey) (moment : Time) (cache : TokenCache) : Prop :=
  ∃ t, cache.lookup key = some t ∧ moment ≤ t.exp

theorem lookup_answer_of_signs {issuer : String} {cache : TokenCache} {req : TokenRequest}
    (signs : req.Signs cache) : KeptUntil req.key (req.reading.minted + workloadTokenTTL)
      (req.answer issuer cache).2 := by
  rw [answer_of_signs signs]
  exact ⟨_, AList.lookup_insert _, le_rfl⟩

theorem KeptUntil.answer {issuer : String} {cache : TokenCache} {key : TokenKey} {moment : Time}
    (kept : KeptUntil key moment cache) {req : TokenRequest}
    (later : moment ≤ req.reading.minted + workloadTokenTTL) :
    KeptUntil key moment (req.answer issuer cache).2 := by
  simp only [TokenRequest.answer, workloadToken]
  split
  · exact kept
  split
  · exact kept
  by_cases same : key = ⟨appID req.app, req.audience⟩
  · subst same
    exact ⟨_, AList.lookup_insert _, later⟩
  · obtain ⟨t, found, lives⟩ := kept
    exact ⟨t, by rw [AList.lookup_insert_ne same, found], lives⟩

/-- **A token is signed again only once the margin is reached**: two signatures for one workload and
audience are as far apart as the life of a token exceeds the margin, whatever is asked between them
as long as the clock does not go back. -/
theorem signatures_are_apart (issuer : String) {past between : List TokenRequest}
    {first second : TokenRequest} (same : second.key = first.key)
    (clock : ∀ req ∈ between, first.reading.minted ≤ req.reading.minted)
    (signs : first.Signs (cacheAfter issuer past))
    (again : second.Signs (cacheAfter issuer (past ++ first :: between))) :
    first.reading.minted + (workloadTokenTTL - tokenRefreshMargin) ≤ second.reading.checked := by
  have kept : KeptUntil first.key (first.reading.minted + workloadTokenTTL)
      (cacheAfter issuer (past ++ first :: between)) := by
    rw [cacheAfter, List.foldl_append, List.foldl_cons]
    refine List.foldlRecOn (motive := KeptUntil first.key _) between _ (lookup_answer_of_signs signs) ?_
    intro cache kept req mem
    exact kept.answer (Nat.add_le_add_right (clock req mem) _)
  obtain ⟨t, found, lives⟩ := kept
  have stale := again.1
  rw [same, liveToken, found, Option.filter_some] at stale
  have near : t.exp ≤ second.reading.checked + tokenRefreshMargin := by
    by_contra live
    simp [not_le.1 live] at stale
  have ordered : tokenRefreshMargin ≤ workloadTokenTTL := by decide
  have apart : ∀ m ttl margin now exp : Nat, margin ≤ ttl → m + ttl ≤ exp → exp ≤ now + margin →
      m + (ttl - margin) ≤ now := by omega
  exact apart _ _ _ _ _ ordered lives near

theorem signatures_are_apart_web : (webRequest "first" 0).reading.minted +
    (workloadTokenTTL - tokenRefreshMargin) ≤
    (webRequest "first" (700 * nanosPerSecond)).reading.checked :=
  @signatures_are_apart "" [] [] _ _ rfl (by simp) ⟨by decide +kernel, rfl⟩ ⟨by decide +kernel, rfl⟩

end Horchestra.Nodeserver
