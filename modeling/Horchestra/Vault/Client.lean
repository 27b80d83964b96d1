import Horchestra.Admission.KindPolicies
import Horchestra.Agent.Secrets
import Horchestra.Foundations.Documents
import Horchestra.Foundations.KernelMaps
import Horchestra.Foundations.Transitions

/-!
# The vault client of a node

A secret that lives in a vault is read by the node itself.  The client resolves the annotations of
the secret to a store and a source (a path, a static role or a dynamic role), logs in, reads, and
keeps what it read under a key made of the store and the annotations.  A value that is kept is
served however old it is; a second thread attends to the values whose deadline has passed, renewing
the lease of a dynamic credential or reading anew, and drops the values nobody has asked for.

A call of the server is a `Server`: what it answers to the requests of that call, failures of the
transport and of the decoding included.  The server's side of a dynamic credential is part of the
answer: the lease it has issued, whatever the client reads of it.

The two threads share the cache, which they touch under a lock, so a `State` moves by the locked
sections and the exchanges between them.  It also keeps what no code reads: the leases issued, with
the key they were asked for, those passed to the server to be revoked, with its answer, what was
served to whom, and who has used a key.
-/

namespace Horchestra.Vault

open Api Admission
open Agent (SecretData located)
open Foundations.Json Foundations Text Checks Paths
open Foundations.KernelMaps (Shuffle)

/-- A point in time, or a span of it, in nanoseconds. -/
abbrev Instant := Int

def second : Instant := 1000000000
def minute : Instant := 60 * second

def vaultCacheTTL : Instant := 5 * minute
def rotationSkew : Instant := 5 * second
def refreshRetryBase : Instant := 30 * second
def refreshRetryMax : Instant := vaultCacheTTL
def idleEvict : Instant := 15 * minute
def renewNumer : Int := 2
def renewDenom : Int := 3
def renewFloor : Instant := 5 * second

def credentialUsername : String := "username"
def credentialPassword : String := "password"

def staticCredsPath (r : EngineRole) : String := r.mount ++ "/static-creds/" ++ r.role
def credsPath (r : EngineRole) : String := r.mount ++ "/creds/" ++ r.role

/-! ## What a secret asks for -/

/-- Everything a read needs. -/
structure FetchSpec where
  store : SecretStore
  path : String := ""
  staticRole : String := ""
  dynamicRole : String := ""
  keys : String := ""

def cacheKey (spec : FetchSpec) : String :=
  "\x00".intercalate [spec.store.metadata.ns, spec.store.metadata.name, spec.store.spec.server,
    spec.store.spec.mount, spec.path, spec.staticRole, spec.dynamicRole, spec.keys]

def resolveFetch (secret : Secret) (stores : List SecretStore) :
    Except String (FetchSpec × String) :=
  let ann := secret.metadata.annValue
  let storeName := ann annExternalSecretStore
  let path := String.ofList (trimSlashes (ann annExternalSecretPath).toList)
  let staticRole := trimSpace (ann annExternalSecretStaticRole)
  let dynamicRole := trimSpace (ann annExternalSecretDynamicRole)
  let named := ([path, staticRole, dynamicRole].filter (· ≠ "")).length
  if storeName = "" then
    .error ("annotation " ++ annExternalSecretStore ++ " is required on a " ++ secretTypeVault ++
      " secret")
  else if 1 < named then
    .error ("annotations " ++ annExternalSecretPath ++ ", " ++ annExternalSecretStaticRole ++
      " and " ++
      annExternalSecretDynamicRole ++ " are mutually exclusive: a secret names ONE source")
  else if named = 0 then
    .error ("a " ++ secretTypeVault ++ " secret needs annotation " ++ annExternalSecretPath ++
      ", " ++
      annExternalSecretStaticRole ++ " or " ++ annExternalSecretDynamicRole)
  else
    match stores.find? fun store =>
        store.metadata.ns == secret.metadata.ns && store.metadata.name == storeName with
    | some store =>
      let spec : FetchSpec := ⟨store, path, staticRole, dynamicRole, ann annExternalSecretKeys⟩
      .ok (spec, cacheKey spec)
    | none => .error ("secretstore " ++ quote storeName ++ " not available")

/-! ## Exchanges with the server -/

/-- A request: the roots its connection trusts, and what it sends. -/
structure Request where
  caBundle : List UInt8
  method : String
  url : String
  token : String := ""
  vaultNamespace : String := ""
  body : List (String × String) := []

structure StaticCreds where
  username : String
  password : String
  ttl : Int

structure Creds where
  leaseID : String
  leaseDuration : Int
  renewable : Bool
  username : String
  password : String

/-- A request for a dynamic credential: the lease the server made for it, and what the client gets
to read. -/
structure Issue where
  issued : Option String := none
  reply : Except String Creds

structure Renewal where
  leaseDuration : Int
  renewable : Bool

/-- The answers of the server during one call. -/
structure Server where
  login : Request → Except String String
  values : Request → Except String (Option Value)
  staticCreds : Request → Except String StaticCreds
  creds : Request → Issue
  renew : Request → Except String Renewal
  revoke : Request → Except String Unit

/-- What the client depends on beside the server: whether the node has a certificate, which bundles
hold one, and the text of a value that is not a string. -/
structure Client where
  hasCert : Bool
  holdsCertificate : List UInt8 → Bool
  marshal : Value → List UInt8

/-- The trust of a connection to a store. -/
def httpClient (client : Client) (store : SecretStore) : Except String (List UInt8) :=
  if store.spec.caBundle ≠ [] ∧ client.holdsCertificate store.spec.caBundle = false then
    .error ("secretstore " ++ store.metadata.ns ++ "/" ++ store.metadata.name ++
      ": caBundle holds no certificate")
  else .ok store.spec.caBundle

/-- The address of the server, up to the version of its interface. -/
def serverURL (store : SecretStore) : String :=
  let server := store.spec.server.toList
  String.ofList (if server.getLast? = some '/' then server.dropLast else server) ++ "/v1/"

def trimmed (path : String) : String := String.ofList (trimSlashes path.toList)

/-- The method a store is logged in to by, where its engine is mounted, and what is sent. -/
def loginRequest (client : Client) (store : SecretStore) (workloadJWT : String) :
    Except String (String × String × List (String × String)) :=
  let spec := store.spec
  let method := if spec.authMethod = "" then authMethodCert else spec.authMethod
  if method = authMethodCert then
    if client.hasCert then
      .ok (method, "cert", if spec.authRole ≠ "" then [("name", spec.authRole)] else [])
    else .error "auth method cert: this node has no client certificate"
  else if method = authMethodKubernetes then
    if workloadJWT = "" then
      .error ("auth method " ++ method ++ ": no workload token was pushed for this app " ++
        "(is the controller's --jwt-signing-key set?)")
    else
      .ok (method, "kubernetes",
        ("jwt", workloadJWT) :: if spec.authRole ≠ "" then [("role", spec.authRole)] else [])
  else .error ("auth method " ++ quote method ++ " is not supported")

def login (client : Client) (server : Server) (store : SecretStore) (trust : List UInt8)
    (workloadJWT : String) : Except String String := do
  let (method, mountPath, body) ← loginRequest client store workloadJWT
  let mountPath := if store.spec.authPath ≠ "" then store.spec.authPath else mountPath
  let token ← located (method ++ " login") (server.login
    { caBundle := trust
      method := "POST"
      url := serverURL store ++ "auth/" ++ trimmed mountPath ++ "/login"
      body })
  require (token ≠ "") (method ++ " login: no client token in the response")
  return token

def session (client : Client) (server : Server) (store : SecretStore) (workloadJWT : String) :
    Except String (List UInt8 × String) := do
  let trust ← httpClient client store
  let token ← login client server store trust workloadJWT
  return (trust, token)

def readRequest (store : SecretStore) (trust : List UInt8) (token path : String) : Request where
  caBundle := trust
  method := "GET"
  url := serverURL store ++ path
  token
  vaultNamespace := store.spec.vaultNamespace

/-! ## Reads -/

structure ReadResult where
  data : SecretData
  wait : Instant
  leaseID : String := ""
  renewable : Bool := false

/-- The values at a path, out of the envelope of the second version of the engine. -/
def keyValues (client : Client) (kv2 : Bool) (path : String) (payload : Option Value) :
    Except String SecretData := do
  let raw ←
    if kv2 then
      match payload with
      | some (.obj members) =>
        -- the last member that names the field is what the envelope holds
        match members.reverse.find? fun member => (Documents.resolve ["data"] member.1).isSome with
        | some (_, inner) => .ok inner
        | none => .error ("read " ++ path ++ ": unexpected KV v2 response shape")
      | _ => .error ("read " ++ path ++ ": unexpected KV v2 response shape")
    else
      match payload with
      | some raw => .ok raw
      | none => .error ("read " ++ path ++ ": unexpected end of JSON input")
  let values ←
    match raw with
    | .obj members => Except.ok members
    | .null => .ok []
    | _ => .error ("read " ++ path ++ ": cannot unmarshal into a map")
  return values.foldl (fun out (key, value) =>
    out.insert key (match value with
      | .str text => text.toUTF8.toList
      | other => client.marshal other)) ∅

def read (client : Client) (server : Server) (store : SecretStore) (path workloadJWT : String) :
    Except String SecretData := do
  let (trust, token) ← session client server store workloadJWT
  let mount := if store.spec.mount = "" then "secret" else store.spec.mount
  let kv2 := decide (store.spec.kvVersion ≠ 1)
  let payload ← located ("read " ++ path) (server.values (readRequest store trust token
    (trimmed mount ++ (if kv2 then "/data" else "") ++ "/" ++ path)))
  keyValues client kv2 path payload

def credentialData (username password : String) : SecretData :=
  ((∅ : SecretData).insert credentialUsername username.toUTF8.toList).insert credentialPassword
    password.toUTF8.toList

def readStaticRole (client : Client) (server : Server) (store : SecretStore)
    (roleText workloadJWT : String) : Except String (SecretData × Instant) := do
  let ref ← located ("annotation " ++ annExternalSecretStaticRole) (parseEngineRole roleText)
  let (trust, token) ← session client server store workloadJWT
  let payload ← located ("read static role " ++ staticCredsPath ref)
    (server.staticCreds (readRequest store trust token (staticCredsPath ref)))
  require (payload.username ≠ "" && payload.password ≠ "")
    ("read static role " ++ staticCredsPath ref ++
      ": the response carries no username/password (is it a static role, or a dynamic one?)")
  let ttl := wrap64 (wrap64 (payload.ttl * second) + rotationSkew)
  return (credentialData payload.username payload.password,
    if 0 < payload.ttl ∧ ttl < vaultCacheTTL then ttl else vaultCacheTTL)

/-- How long to wait before a lease is renewed. -/
def renewAfter (lease : Instant) : Instant :=
  max renewFloor ((wrap64 (lease * renewNumer)).tdiv renewDenom)

/-- What a call came to: the lease the server issued in it, and what the client has. -/
structure Outcome (α : Type) where
  issued : Option String := none
  result : Except String α

/-- The credential in a reply; half of one is refused. -/
def credential (path : String) (reply : Except String Creds) : Except String ReadResult := do
  let payload ← located ("issue dynamic credential " ++ path) reply
  require (payload.username ≠ "" && payload.password ≠ "")
    ("issue dynamic credential " ++ path ++ ": the response carries no username/password")
  require (payload.leaseID ≠ "")
    ("issue dynamic credential " ++ path ++ ": no lease in the response (is this a dynamic role?)")
  return { data := credentialData payload.username payload.password
           wait := renewAfter (wrap64 (payload.leaseDuration * second))
           leaseID := payload.leaseID
           renewable := payload.renewable }

/-- The request for a dynamic credential, once the client has logged in. -/
def credsRequest (client : Client) (server : Server) (store : SecretStore)
    (roleText workloadJWT : String) : Except String (String × Request) := do
  let ref ← located ("annotation " ++ annExternalSecretDynamicRole) (parseEngineRole roleText)
  let (trust, token) ← session client server store workloadJWT
  return (credsPath ref, readRequest store trust token (credsPath ref))

def readDynamicRole (client : Client) (server : Server) (store : SecretStore)
    (roleText workloadJWT : String) : Outcome ReadResult :=
  match credsRequest client server store roleText workloadJWT with
  | .error e => { result := .error e }
  | .ok (path, request) =>
    let answer := server.creds request
    { issued := answer.issued, result := credential path answer.reply }

/-- The keys an annotation lists, out of those that were read; none listed means all. -/
def filterKeys (data : SecretData) (csv : String) : Except String SecretData :=
  if trimSpace csv = "" then .ok data
  else (csv.toList.splitOn ',').foldlM (fun out item =>
    let key := trimSpace (String.ofList item)
    if key = "" then .ok out
    else
      match data[key]? with
      | some value => .ok (out.insert key value)
      | none => .error ("key " ++ quote key ++ " not found at the store path")) ∅

/-- The read with only the listed keys. -/
def projected (keys : String) (res : ReadResult) : Except String ReadResult :=
  (filterKeys res.data keys).map fun data => { res with data }

/-- One read: of a dynamic role, of a static role or of a path. -/
def readSpec (client : Client) (server : Server) (spec : FetchSpec) (token : String) :
    Outcome ReadResult :=
  if spec.dynamicRole ≠ "" then
    let outcome := readDynamicRole client server spec.store spec.dynamicRole token
    { outcome with result := outcome.result.bind (projected spec.keys) }
  else if spec.staticRole ≠ "" then
    { result := (readStaticRole client server spec.store spec.staticRole token).bind fun (data,
      wait) =>
        projected spec.keys { data, wait } }
  else
    { result := (read client server spec.store spec.path token).bind fun data =>
        projected spec.keys { data, wait := vaultCacheTTL } }

/-! ## Leases -/

/-- A request about a lease.  It is not sent to a namespace of the server. -/
def leaseRequest (store : SecretStore) (trust : List UInt8) (token operation leaseID : String) :
    Request where
  caBundle := trust
  method := "PUT"
  url := serverURL store ++ "sys/leases/" ++ operation
  token
  body := [("lease_id", leaseID)]

def renewLease (client : Client) (server : Server) (store : SecretStore)
    (leaseID workloadJWT : String) :
    Except String Renewal := do
  let (trust, token) ← session client server store workloadJWT
  let payload ← located "renew lease"
    (server.renew (leaseRequest store trust token "renew" leaseID))
  return { payload with leaseDuration := wrap64 (payload.leaseDuration * second) }

def revokeLease (client : Client) (server : Server) (store : SecretStore)
    (leaseID workloadJWT : String) :
    Except String Unit := do
  let (trust, token) ← session client server store workloadJWT
  located "revoke lease" (server.revoke (leaseRequest store trust token "revoke" leaseID))

/-! ## The cache -/

/-- A value that is kept.  `source` is the store it was last read or renewed with, which the client
does not keep. -/
structure Entry where
  data : SecretData
  expires : Instant
  lastUsed : Instant
  spec : FetchSpec
  token : String
  failures : Nat := 0
  leaseID : String := ""
  renewable : Bool := false
  staleSince : Option Instant := none
  source : SecretStore

abbrev Cache := AList fun _ : String => Entry

/-- An entry that is asked for again. -/
def Entry.use (e : Entry) (token : String) (now : Instant) : Entry :=
  { e with lastUsed := now, token := if token ≠ "" then token else e.token }

/-- An entry after a renewal or a read; a renewal brings no new data. -/
def Entry.settle (e : Entry) (res : ReadResult) (newValue : Bool) (source : SecretStore)
    (now : Instant) : Entry :=
  { e with
    data := if newValue then res.data else e.data
    expires := now + res.wait
    leaseID := res.leaseID
    renewable := res.renewable
    failures := 0
    staleSince := none
    source }

/-- An entry whose refresh failed: it keeps its value and is tried again later. -/
def Entry.fail (e : Entry) (now : Instant) : Entry :=
  { e with
    staleSince := e.staleSince.or (some now)
    failures := e.failures + 1
    expires := now + min refreshRetryMax (refreshRetryBase * 2 ^ min e.failures 8) }

def modify (cache : Cache) (key : String) (change : Entry → Entry) : Cache :=
  match cache.lookup key with
  | some e => cache.insert key (change e)
  | none => cache

/-- An entry that needs attention, as it was when it was found. -/
structure Due where
  ck : String
  spec : FetchSpec
  token : String
  lease : String
  renew : Bool := false

def idle (now : Instant) (e : Entry) : Bool := decide (idleEvict ≤ now - e.lastUsed)

/-- The entries of one sort, in the order in which the cache is gone through. -/
def pick (order : Shuffle String) (cache : Cache) (sort : Entry → Bool) : List Due :=
  (order.arrange cache.keys).filterMap fun ck =>
    ((cache.lookup ck).filter sort).map fun e => ⟨ck, e.spec, e.token, e.leaseID, e.renewable⟩

def evicted (now : Instant) (order : Shuffle String) (cache : Cache) : List Due :=
  (pick order cache fun e => idle now e && decide (e.leaseID ≠ "")).map fun d =>
    { d with renew := false }

/-- The entries whose deadline has passed and that are not idle. -/
def overdue (now : Instant) (order : Shuffle String) (cache : Cache) : List Due :=
  pick order cache fun e => !idle now e && decide (e.expires ≤ now)

def dropIdle (now : Instant) (cache : Cache) : Cache :=
  (cache.keys.filter fun ck => (cache.lookup ck).any (idle now)).foldl (fun cache ck => cache.erase ck)
    cache

/-! ## The two threads -/

/-- What the refreshing thread still has to do. -/
inductive Task where
  /-- Revoke the lease of an entry that was dropped. -/
  | release (d : Due)
  /-- Renew the lease of an entry, or else read anew. -/
  | attend (d : Due)
  | reread (d : Due)
  /-- Record what came back. -/
  | record (d : Due) (res : ReadResult) (newValue : Bool)
  | giveUp (d : Due)
  /-- Revoke the lease that was replaced. -/
  | releaseOld (d : Due)

/-- A fetch that found nothing in the cache, with the answer once it is there. -/
structure Pending where
  app : String
  spec : FetchSpec
  ck : String
  token : String
  result : Option ReadResult := none

/-- The stores of a push.  They have the names of objects, and no two have the same. -/
structure Pushed where
  stores : List SecretStore := []
  named : ∀ store ∈ stores, isDNS1123Label store.metadata.ns = true ∧
    isDNS1123Subdomain store.metadata.name = true
  distinct : (stores.map fun store => (store.metadata.ns, store.metadata.name)).Nodup

/-- A value handed to an application: the key it was under, the lease it is bound to, the store it
was read with, and the store of its name in the push. -/
structure Serving where
  app : String
  ck : String
  leaseID : String
  data : SecretData
  source : SecretStore
  store : SecretStore

/-- An application that has asked for the value under a key. -/
structure User where
  ck : String
  app : String
  dynamic : Bool

structure State where
  pushed : Pushed
  cache : Cache := ∅
  pending : Option Pending := none
  todo : List Task := []
  issued : List (String × String) := []
  revoked : List (String × Bool) := []
  served : List Serving := []
  users : List User := []

inductive Event where
  /-- A push arrives at the thread that converges the applications. -/
  | push (p : Pushed)
  | fetch (app : String) (secret : Secret) (token : String) (now : Instant)
  /-- The first read of a value is answered. -/
  | answer (server : Server)
  /-- The value is put into the cache and returned. -/
  | store (now now' : Instant)
  /-- The refreshing thread looks for what is due. -/
  | refresh (now : Instant) (order : Shuffle String)
  /-- The refreshing thread takes its next step. -/
  | work (server : Server) (now : Instant)

def Serving.ofEntry (app ck : String) (e : Entry) (store : SecretStore) : Serving :=
  ⟨app, ck, e.leaseID, e.data, e.source, store⟩

/-- A fetch up to the point where it has to ask the server. -/
def State.fetch (s : State) (app : String) (secret : Secret) (token : String)
    (now : Instant) : State :=
  match resolveFetch secret s.pushed.stores with
  | .error _ => s
  | .ok (spec, ck) =>
    let s := { s with users := ⟨ck, app, decide (spec.dynamicRole ≠ "")⟩ :: s.users }
    match s.cache.lookup ck with
    | some e =>
      { s with
        cache := s.cache.insert ck (e.use token now)
        served := .ofEntry app ck e spec.store :: s.served }
    | none => { s with pending := some { app, spec, ck, token } }

/-- The answer to the first read; a failed one ends the fetch. -/
def State.answer (client : Client) (s : State) (p : Pending) (server : Server) : State :=
  let outcome := readSpec client server p.spec p.token
  { s with
    issued := outcome.issued.toList.map (·, p.ck) ++ s.issued
    pending := match outcome.result with
      | .ok res => some { p with result := some res }
      | .error _ => none }

def newEntry (p : Pending) (res : ReadResult) (now now' : Instant) : Entry where
  data := res.data
  expires := now + res.wait
  lastUsed := now'
  spec := p.spec
  token := p.token
  leaseID := res.leaseID
  renewable := res.renewable
  source := p.spec.store

def State.store (s : State) (p : Pending) (res : ReadResult) (now now' : Instant) : State :=
  let e := newEntry p res now now'
  { s with
    cache := s.cache.insert p.ck e
    pending := none
    served := .ofEntry p.app p.ck e p.spec.store :: s.served }

def State.refresh (s : State) (now : Instant) (order : Shuffle String) : State :=
  { s with
    cache := dropIdle now s.cache
    todo := (evicted now order s.cache).map .release ++ (overdue now order s.cache).map .attend }

/-- One step of the refreshing thread at its first task. -/
def State.work (client : Client) (s : State) (task : Task) (rest : List Task) (server : Server)
    (now : Instant) : State :=
  match task with
  | .release d | .releaseOld d =>
    let revoked := (revokeLease client server d.spec.store d.lease d.token).isOk
    { s with todo := rest, revoked := (d.lease, revoked) :: s.revoked }
  | .attend d =>
    if d.lease ≠ "" ∧ d.renew then
      match renewLease client server d.spec.store d.lease d.token with
      | .ok renewal =>
        { s with todo := .record d { data := ∅
                                     wait := renewAfter renewal.leaseDuration
                                     leaseID := d.lease
                                     renewable := renewal.renewable } false :: rest }
      | .error _ => { s with todo := .reread d :: rest }
    else { s with todo := .reread d :: rest }
  | .reread d =>
    let outcome := readSpec client server d.spec d.token
    { s with
      issued := outcome.issued.toList.map (·, d.ck) ++ s.issued
      todo := match outcome.result with
        | .ok res => .record d res true :: rest
        | .error _ => .giveUp d :: rest }
  | .record d res newValue =>
    { s with
      cache := modify s.cache d.ck (·.settle res newValue d.spec.store now)
      todo := if newValue ∧ d.lease ≠ "" ∧
        d.lease ≠ res.leaseID then .releaseOld d :: rest else rest }
  | .giveUp d => { s with cache := modify s.cache d.ck (·.fail now), todo := rest }

def step (client : Client) (s : State) : Event → Option State
  | .push p => if s.pending.isNone then some { s with pushed := p } else none
  | .fetch app secret token now =>
    if s.pending.isNone then some (s.fetch app secret token now) else none
  | .answer server =>
    match s.pending with
    | some p => if p.result.isNone then some (s.answer client p server) else none
    | none => none
  | .store now now' =>
    match s.pending with
    | some p => p.result.map fun res => s.store p res now now'
    | none => none
  | .refresh now order => if s.todo.isEmpty then some (s.refresh now order) else none
  | .work server now =>
    match s.todo with
    | task :: rest => some (s.work client task rest server now)
    | [] => none

/-- A client that has just been made. -/
def State.initial (p : Pushed) : State := { pushed := p }

end Horchestra.Vault
