import Horchestra.Nodeserver.Tokens
import Horchestra.Storage.Filing

/-!
# What a node is sent

A node is sent the applications pinned to it, its volumes in full and the others by name, the
secrets its applications consume, the stores its vault secrets name, and tokens for its workloads.
One thing leads to the next through identities that are texts, a namespace and a name joined by an
underscore. The addresses of workloads and of services, which are the whole fleet's business, are
left out here.

`desired_state_is_node_scoped`: two stores that agree on these objects and on the names of volumes
send the node the same, whatever else they hold.
-/

namespace Horchestra.Storage

open Api

variable {k : Kind}

/-- Two listings in key order with the same members are one. -/
theorem eq_of_sorted {l l' : List (Obj k)} (sorted : l.Pairwise fun a b => keyOf a < keyOf b)
    (sorted' : l'.Pairwise fun a b => keyOf a < keyOf b) (eq : ∀ o, o ∈ l ↔ o ∈ l') : l = l' := by
  have perm :=
    (List.perm_ext_iff_of_nodup (DB.nodup_of_sorted sorted) (DB.nodup_of_sorted sorted')).2
    eq
  exact perm.eq_of_pairwise (fun a b _ _ less more => absurd less more.asymm) sorted sorted'

end Horchestra.Storage

namespace Horchestra.Nodeserver

open Api Storage Foundations.NameMap

/-! ## The builder -/

/-- A store the node server reads: objects are filed under their own keys, and have the names the
API lets through. -/
structure NodeStore where
  db : DB
  filed : db.WellFiled
  apps : ∀ app : Application, app ∈ db.list .application →
    isDNS1123Label app.metadata.ns = true ∧ isDNS1123Subdomain app.metadata.name = true
  secrets : ∀ secret : Secret, secret ∈ db.list .secret → isDNS1123Label secret.metadata.ns = true
  stores : ∀ store : SecretStore, store ∈ db.list .secretStore →
    isDNS1123Label store.metadata.ns = true

theorem NodeStore.distinct (store : NodeStore) :
    ((store.db.list .application).map fun app : Application =>
      (app.metadata.ns, app.metadata.name)).Nodup := by
  refine List.pairwise_map.2 ((store.filed.sorted .application).imp ?_)
  intro first second less eq
  obtain ⟨nsEq, nameEq⟩ := Prod.mk.inj eq
  exact less.ne (congrArg₂ recordKey nsEq nameEq)

def NodeStore.stored (store : NodeStore) : Stored where
  apps := store.db.list .application
  secrets := store.db.list .secret
  stores := store.db.list .secretStore
  named := store.apps
  distinct := store.distinct

/-- What is left of a volume of another node. -/
def stub (pv : PersistentVolume) : PersistentVolume :=
  { metadata := { ns := pv.metadata.ns, name := pv.metadata.name } }

def pushedVolume (node : String) (pv : PersistentVolume) : PersistentVolume :=
  if pv.spec.node = node then pv else stub pv

/-- The secrets the applications of a node consume. -/
def pushedSecrets (stored : Stored) (node : String) : List Secret :=
  stored.secrets.filter fun secret =>
    ((pinned stored node).flatMap appRefs).contains
      (workloadID secret.metadata.ns secret.metadata.name)

def pushedStores (stored : Stored) (node : String) : List SecretStore :=
  stored.stores.filter fun store =>
    (vaultSecretStore stored node).values.contains
      (workloadID store.metadata.ns store.metadata.name)

/-- The tokens a node is owed, in the order they are asked for. -/
def owedTokens (stored : Stored) (node : String) : List (Application × String) :=
  ((pinned stored node).insertionSort fun a b => appID a ≤ appID b).flatMap fun app =>
    (wanted stored node app).map fun audience => (app, audience)

/-- Asks for one token after the other.  One that cannot be signed is held back, and no other. -/
def mintTokens (issuer : String) (readings : TokenKey → Reading) :
    List (Application × String) → TokenCache → List WorkloadToken × TokenCache
  | [], cache => ([], cache)
  | (app, audience) :: rest, cache =>
    let answered := workloadToken issuer (readings ⟨appID app, audience⟩) (appID app)
      app.metadata.uid audience cache
    let later := mintTokens issuer readings rest answered.2
    match answered.1 with
    | .ok answer => (⟨app.metadata.uid, answer.token, audience, answer.moment⟩ :: later.1, later.2)
    | .error _ => later

structure DesiredState where
  applications : List Application
  persistentVolumes : List PersistentVolume
  secrets : List Secret
  secretStores : List SecretStore
  workloadTokens : List WorkloadToken

/-- The desired state of a node and the tokens kept after it; no token is sent where there is no
issuer. -/
def desiredState (tokens : Option String) (readings : TokenKey → Reading) (cache : TokenCache)
    (store : NodeStore) (node : String) : DesiredState × TokenCache :=
  let minted := match tokens with
    | some issuer => mintTokens issuer readings (owedTokens store.stored node) cache
    | none => ([], cache)
  ({ applications := pinned store.stored node
     persistentVolumes := (store.db.list .persistentVolume).map (pushedVolume node)
     secrets := pushedSecrets store.stored node
     secretStores := pushedStores store.stored node
     workloadTokens := minted.1 }, minted.2)

/-! ## What it depends on -/

def Served (node : String) (app : Application) : Prop :=
  app.spec.placement.nodeName = node ∧ (app.finished = false ∨ app.deleting = true)

/-- A secret an application consumes: one it names, in its own namespace. -/
def Consumes (app : Application) (secret : Secret) : Prop :=
  secret.metadata.ns = app.metadata.ns ∧ secret.metadata.name ∈ app.secretRefs

/-- The store a vault secret names, in its own namespace. -/
def Behind (secret : Secret) (store : SecretStore) : Prop :=
  secret.type = secretTypeVault ∧ store.metadata.ns = secret.metadata.ns ∧
    store.metadata.name = secret.metadata.annValue annExternalSecretStore

/-- Two stores hold the same of what concerns a node. -/
structure Agree (node : String) (store store' : NodeStore) : Prop where
  apps : ∀ app : Application, app.spec.placement.nodeName = node →
    (app ∈ store.db.list .application ↔ app ∈ store'.db.list .application)
  secrets : ∀ app : Application, app ∈ store.db.list .application → Served node app →
    ∀ secret : Secret, Consumes app secret →
      (secret ∈ store.db.list .secret ↔ secret ∈ store'.db.list .secret)
  stores : ∀ app : Application, app ∈ store.db.list .application → Served node app →
    ∀ secret : Secret, secret ∈ store.db.list .secret → Consumes app secret →
      ∀ behind : SecretStore, Behind secret behind →
        (behind ∈ store.db.list .secretStore ↔ behind ∈ store'.db.list .secretStore)
  volumes : ∀ pv : PersistentVolume, pv.spec.node = node →
    (pv ∈ store.db.list .persistentVolume ↔ pv ∈ store'.db.list .persistentVolume)
  volumeNames : ∀ ns name,
    (∃ pv : PersistentVolume, pv ∈ store.db.list .persistentVolume ∧
      pv.metadata.ns = ns ∧ pv.metadata.name = name) ↔
    ∃ pv : PersistentVolume, pv ∈ store'.db.list .persistentVolume ∧
      pv.metadata.ns = ns ∧ pv.metadata.name = name

theorem workloadID_inj {ns ns' name name' : String} (label : isDNS1123Label ns = true)
    (label' : isDNS1123Label ns' = true) (eq : workloadID ns name = workloadID ns' name') :
    ns = ns' ∧ name = name' := by
  have cuts := congrArg cutWorkload eq
  rw [cutWorkload_workloadID label, cutWorkload_workloadID label'] at cuts
  exact Prod.mk.inj cuts

theorem mem_pinned {store : NodeStore} {node : String} {app : Application} :
    app ∈ pinned store.stored node ↔ app ∈ store.db.list .application ∧ Served node app := by
  have kept : (!(app.finished && !app.deleting)) = true ↔
      app.finished = false ∨ app.deleting = true := by
    cases app.finished <;> cases app.deleting <;> decide
  simp only [pinned, NodeStore.stored, List.mem_filter, Bool.and_eq_true, beq_iff_eq, kept, Served]

/-- The secrets sent are those an application of the node consumes: identities do not collide. -/
theorem mem_pushedSecrets {store : NodeStore} {node : String} {secret : Secret} :
    secret ∈ pushedSecrets store.stored node ↔ secret ∈ store.db.list .secret ∧
      ∃ app : Application, app ∈ store.db.list .application ∧ Served node app ∧
        Consumes app secret := by
  simp only [pushedSecrets, List.mem_filter, List.contains_iff_mem, List.mem_flatMap, mem_pinned,
    appRefs, List.mem_map]
  constructor
  · rintro ⟨mem, app, ⟨isApp, served⟩, name, referenced, eq⟩
    obtain ⟨nsEq, rfl⟩ := workloadID_inj (store.apps app isApp).1 (store.secrets secret mem) eq
    exact ⟨mem, app, isApp, served, nsEq.symm, referenced⟩
  rintro ⟨mem, app, isApp, served, nsEq, referenced⟩
  exact ⟨mem, app, ⟨isApp, served⟩, secret.metadata.name, referenced, by rw [nsEq]⟩

theorem vaultSecretStore_eq (stored : Stored) (node : String) :
    vaultSecretStore stored node =
      indexBy (fun sec => workloadID sec.metadata.ns sec.metadata.name)
        (fun sec => workloadID sec.metadata.ns (sec.metadata.annValue annExternalSecretStore))
        ((pushedSecrets stored node).filter fun sec =>
          sec.type == secretTypeVault && sec.metadata.annValue annExternalSecretStore != "") := by
  simp only [vaultSecretStore, pushedSecrets, List.filter_filter]
  congr 2
  funext sec
  rw [Bool.and_assoc, Bool.and_comm, Bool.and_assoc]

theorem exists_behind {store : NodeStore} {node : String} {behind : SecretStore}
    (label : isDNS1123Label behind.metadata.ns = true)
    (noted : workloadID behind.metadata.ns behind.metadata.name ∈
      (vaultSecretStore store.stored node).values) :
    ∃ secret ∈ pushedSecrets store.stored node, Behind secret behind := by
  rw [values_eq, List.mem_map] at noted
  obtain ⟨⟨key, v⟩, hit, isValue⟩ := noted
  rw [Std.ExtTreeMap.mem_toList_iff_getElem?_eq_some, vaultSecretStore_eq] at hit
  obtain ⟨secret, mem, -, named⟩ := exists_of_indexBy hit
  obtain ⟨pushed, vault⟩ := List.mem_filter.1 mem
  simp only [Bool.and_eq_true, beq_iff_eq] at vault
  obtain ⟨nsEq, nameEq⟩ := workloadID_inj label
    (store.secrets secret (mem_pushedSecrets.1 pushed).1) (isValue.symm.trans named.symm)
  exact ⟨secret, pushed, vault.1, nsEq, nameEq⟩

theorem tokenStores_eq (stored : Stored) (node : String) :
    tokenStores stored node =
      ((pushedStores stored node).filter fun store =>
        store.spec.authMethod == authMethodKubernetes).map
        fun store => workloadID store.metadata.ns store.metadata.name := by
  simp only [tokenStores, pushedStores, List.filter_filter, Bool.and_comm]

section

variable {node : String} {store store' : NodeStore}

theorem Agree.pinned_eq (agree : Agree node store store') :
    pinned store.stored node = pinned store'.stored node := by
  refine eq_of_sorted (k := .application) ((store.filed.sorted .application).filter _)
    ((store'.filed.sorted .application).filter _) ?_
  intro app
  change app ∈ pinned store.stored node ↔ app ∈ pinned store'.stored node
  rw [mem_pinned, mem_pinned]
  exact and_congr_left fun served => agree.apps app served.1

theorem Agree.pushedSecrets_eq (agree : Agree node store store') :
    pushedSecrets store.stored node = pushedSecrets store'.stored node := by
  refine eq_of_sorted (k := .secret) ((store.filed.sorted .secret).filter _)
    ((store'.filed.sorted .secret).filter _) ?_
  intro sec
  change sec ∈ pushedSecrets store.stored node ↔ sec ∈ pushedSecrets store'.stored node
  rw [mem_pushedSecrets, mem_pushedSecrets]
  constructor
  · rintro ⟨mem, app, isApp, served, consumes⟩
    exact ⟨(agree.secrets app isApp served sec consumes).1 mem, app,
      (agree.apps app served.1).1 isApp, served, consumes⟩
  rintro ⟨mem, app, isApp, served, consumes⟩
  have pre := (agree.apps app served.1).2 isApp
  exact ⟨(agree.secrets app pre served sec consumes).2 mem, app, pre, served, consumes⟩

theorem Agree.vaultSecretStore_eq (agree : Agree node store store') :
    vaultSecretStore store.stored node = vaultSecretStore store'.stored node := by
  rw [Nodeserver.vaultSecretStore_eq, Nodeserver.vaultSecretStore_eq, agree.pushedSecrets_eq]

theorem Agree.pushedStores_eq (agree : Agree node store store') :
    pushedStores store.stored node = pushedStores store'.stored node := by
  refine eq_of_sorted (k := .secretStore) ((store.filed.sorted .secretStore).filter _)
    ((store'.filed.sorted .secretStore).filter _) ?_
  intro behind
  change behind ∈ pushedStores store.stored node ↔ behind ∈ pushedStores store'.stored node
  -- what is behind a secret of the node is in one store exactly when it is in the other
  have shared : isDNS1123Label (behind : SecretStore).metadata.ns = true →
      workloadID (behind : SecretStore).metadata.ns (behind : SecretStore).metadata.name ∈
        (vaultSecretStore store.stored node).values →
      (behind ∈ store.db.list .secretStore ↔ behind ∈ store'.db.list .secretStore) := by
    intro label noted
    obtain ⟨sec, pushed, isBehind⟩ := exists_behind label noted
    obtain ⟨mem, app, isApp, served, consumes⟩ := mem_pushedSecrets.1 pushed
    exact agree.stores app isApp served sec mem consumes behind isBehind
  simp only [pushedStores, List.mem_filter, List.contains_iff_mem, ← agree.vaultSecretStore_eq]
  constructor
  · rintro ⟨mem, noted⟩
    exact ⟨(shared (store.stores behind mem) noted).1 mem, noted⟩
  rintro ⟨mem, noted⟩
  exact ⟨(shared (store'.stores behind mem) noted).2 mem, noted⟩

theorem Agree.wanted_eq (agree : Agree node store store') :
    wanted store.stored node = wanted store'.stored node := by
  funext app
  simp only [wanted, agree.vaultSecretStore_eq, tokenStores_eq, agree.pushedStores_eq]

theorem keyOf_pushedVolume (pv : PersistentVolume) :
    keyOf (k := .persistentVolume) (pushedVolume node pv) = keyOf (k := .persistentVolume) pv := by
  rw [pushedVolume]
  split <;> rfl

theorem sorted_pushedVolumes (store : NodeStore) :
    ((store.db.list .persistentVolume).map (pushedVolume node)).Pairwise fun a b =>
      keyOf (k := .persistentVolume) a < keyOf (k := .persistentVolume) b := by
  refine List.pairwise_map.2 ((store.filed.sorted .persistentVolume).imp ?_)
  intro first second less
  rw [keyOf_pushedVolume, keyOf_pushedVolume]
  exact less

/-- Where two stores hold the same volumes of a node, and volumes of the same names, a volume of the
one is sent as some volume of the other is. -/
theorem exists_pushedVolume
    (own : ∀ pv : PersistentVolume, pv.spec.node = node →
      (pv ∈ store.db.list .persistentVolume ↔ pv ∈ store'.db.list .persistentVolume))
    {pv : PersistentVolume} (mem : pv ∈ store.db.list .persistentVolume)
    (named : ∃ pv' : PersistentVolume, pv' ∈ store'.db.list .persistentVolume ∧
      pv'.metadata.ns = pv.metadata.ns ∧ pv'.metadata.name = pv.metadata.name) :
    ∃ pv' : PersistentVolume, pv' ∈ store'.db.list .persistentVolume ∧
      pushedVolume node pv' = pushedVolume node pv := by
  by_cases eq : pv.spec.node = node
  · exact ⟨pv, (own pv eq).1 mem, rfl⟩
  obtain ⟨pv', member', nsEq, nameEq⟩ := named
  refine ⟨pv', member', ?_⟩
  -- a volume of that name that is the node's own would be in both stores
  have foreign : pv'.spec.node ≠ node := by
    intro eq'
    have first := store.filed.get_of_mem ((own pv' eq').2 member')
    have second := store.filed.get_of_mem mem
    rw [show (metaOf (k := .persistentVolume) pv').ns = pv.metadata.ns from nsEq,
      show (metaOf (k := .persistentVolume) pv').name = pv.metadata.name from nameEq] at first
    exact eq (Option.mem_unique first second ▸ eq')
  rw [pushedVolume, pushedVolume, if_neg eq, if_neg foreign, stub, stub, nsEq, nameEq]

theorem Agree.pushedVolumes_eq (agree : Agree node store store') :
    (store.db.list .persistentVolume).map (pushedVolume node) =
      (store'.db.list .persistentVolume).map (pushedVolume node) := by
  refine eq_of_sorted (k := .persistentVolume) (sorted_pushedVolumes store)
    (sorted_pushedVolumes store') ?_
  intro pushed
  simp only [List.mem_map]
  constructor
  · rintro ⟨pv, mem, rfl⟩
    exact exists_pushedVolume agree.volumes mem
      ((agree.volumeNames _ _).1 ⟨pv, mem, rfl, rfl⟩)
  rintro ⟨pv, mem, rfl⟩
  exact exists_pushedVolume (fun pv eq => (agree.volumes pv eq).symm) mem
    ((agree.volumeNames _ _).2 ⟨pv, mem, rfl, rfl⟩)

theorem desired_state_is_node_scoped (tokens : Option String) (readings : TokenKey → Reading)
    (cache : TokenCache) (agree : Agree node store store') :
    desiredState tokens readings cache store node =
    desiredState tokens readings cache store' node := by
  simp only [desiredState, owedTokens, agree.pinned_eq, agree.pushedVolumes_eq,
    agree.pushedSecrets_eq, agree.pushedStores_eq, agree.wanted_eq]

end

/-! ## Two stores that differ elsewhere -/

def foreignKey : Secret where
  metadata := { ns := "team", name := "key" }

def webOnNode : Application where
  metadata := { ns := "team", name := "web" }
  spec := { image := "web:1", placement := { nodeName := "n1" } }

/-- A secret appears in the namespace of an application on the node, which does not consume it. -/
theorem desired_state_is_node_scoped_elsewhere : ∃ store store' : NodeStore,
    store.db.list .application = [webOnNode] ∧ store.db.list .secret = [] ∧
    store'.db.list .secret = [foreignKey] ∧
    desiredState (some "issuer") (fun _ => ⟨0, 0, none⟩) ∅ store "n1" =
      desiredState (some "issuer") (fun _ => ⟨0, 0, none⟩) ∅ store' "n1" := by
  let db := ({} : DB).putHead (k := .application) "team/web" webOnNode
  let db' := db.putHead (k := .secret) "team/key" foreignKey
  have apps : db.list .application = [webOnNode] := by decide +kernel
  have noSecrets : db.list .secret = [] := by decide +kernel
  have noStores : db.list .secretStore = [] := by decide +kernel
  have secrets : db'.list .secret = [foreignKey] := by decide +kernel
  have others : ∀ k, k ≠ .secret → db'.list k = db.list k := fun k different =>
    (DB.filed_putHead (k := .secret) db "team/key" foreignKey).list_otherKinds different
  have filed : db.WellFiled :=
    DB.wellFiled_empty.putHead (k := .application) rfl ⟨by decide, by decide, by decide⟩
  have named : ∀ app : Application, app ∈ db.list .application →
      isDNS1123Label app.metadata.ns = true ∧ isDNS1123Subdomain app.metadata.name = true := by
    rw [apps]
    simp only [List.mem_singleton]
    rintro _ rfl
    decide +kernel
  let store : NodeStore := ⟨db, filed, named, by simp [noSecrets], by simp [noStores]⟩
  let store' : NodeStore :=
    ⟨db', filed.putHead (k := .secret) rfl ⟨by decide, by decide, by decide⟩,
      by rw [others _ (by decide)]; exact named,
      by rw [secrets]; simp only [List.mem_singleton]; rintro _ rfl; decide +kernel,
      by simp [others, noStores]⟩
  have agree : Agree "n1" store store' := by
    have none : webOnNode.secretRefs = [] := by decide +kernel
    constructor <;> simp [store, store', apps, noSecrets, others, Consumes, none]
  exact ⟨store, store', apps, noSecrets, secrets,
    desired_state_is_node_scoped (some "issuer") (fun _ => ⟨0, 0, none⟩) ∅ agree⟩

end Horchestra.Nodeserver
