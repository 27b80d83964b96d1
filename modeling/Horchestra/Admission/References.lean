import Horchestra.Admission.AppPolicy

/-!
# Admission of references between objects

What an object may name, and when an object that is named may go.  An application names its
namespace, its node, the service it joins, the volumes it mounts and the secrets it reads; a
namespace, a service, a volume and a secret cannot be deleted while something names them.  A
node can.  The last check of the chain counts what the applications of a node ask for against
what the node offers.

The rules are kept as a table, as the source keeps them, and each has a lemma that says when
it is satisfied, in terms of the stored objects.
-/

namespace Horchestra.Admission

open Api Storage Foundations Text Checks

/-! ## Namespaces -/

def namespaceExists (db : DB) (name : String) : Bool :=
  (db.list .ns).any fun ns => ns.metadata.name == name

def checkNamespaceExists (db : DB) {k : Kind} (o : Obj k) : Except AdmissionError Unit :=
  let ns := (metaOf o).ns
  require (ns == "" || namespaceExists db ns)
    (.invalid ("metadata.namespace: namespace " ++ quote ns ++ " does not exist"))

/-- The kinds a namespace must be empty of before it can go. -/
def namespacedKinds : List Kind :=
  [.application, .applicationSet, .persistentVolume, .secret, .service, .role, .roleBinding]

/-- The names of the objects of one kind in a namespace, cut after the third. -/
def objectNames (db : DB) (ns : String) (k : Kind) : List String :=
  let names := (db.list k).filterMap fun o =>
    if (metaOf o).ns = ns then some (metaOf o).name else none
  if 3 < names.length then names.take 3 ++ ["…"] else names

def toLowerAscii (text : String) : String := String.ofList (text.toList.map Char.toLower)

def remaining (db : DB) (ns : String) : List String :=
  namespacedKinds.filterMap fun k =>
    let names := objectNames db ns k
    if names.isEmpty then none else some (toLowerAscii k.name ++ " " ++ ", ".intercalate names)

def checkNamespaceEmpty (db : DB) (ns : Namespace) : Except AdmissionError Unit :=
  let name := ns.metadata.name
  require (remaining db name).isEmpty
    (.forbidden ("namespace " ++ quote name ++ " is not empty: it still holds " ++
      "; ".intercalate (remaining db name) ++ " — delete its contents first"))

/-! ## Nodes and services -/

def nodeExists (db : DB) (name : String) : Bool :=
  (db.list .node).any fun n => n.metadata.name == name

def checkNodeExists (db : DB) (app : Application) : Except AdmissionError Unit :=
  let name := app.spec.placement.nodeName
  require (name == "" || nodeExists db name)
    (.invalid ("spec.placement.nodeName: node " ++ quote name ++ " does not exist"))

def findService (db : DB) (ns name : String) : Option Service :=
  (db.list .service).find? fun svc => svc.metadata.ns == ns && svc.metadata.name == name

def checkServiceRef (db : DB) (app : Application) : Except AdmissionError Unit :=
  let name := app.spec.serviceName
  require (name == "" || (findService db app.metadata.ns name).isSome)
    (.invalid ("spec.serviceName: service " ++ quote name ++ " does not exist in namespace " ++
      quote app.metadata.ns))

def checkServiceProtection (db : DB) (svc : Service) : Except AdmissionError Unit :=
  match (db.list .application).find? fun app =>
    app.metadata.ns == svc.metadata.ns && app.spec.serviceName == svc.metadata.name with
  | none => .ok ()
  | some app =>
    .error (.invalid ("service " ++ quote svc.metadata.name ++ " is still declared by application " ++
      quote app.metadata.name ++ "; repoint or remove it first"))

/-! ## Volumes -/

def mountsPV (app : Application) (name : String) : Bool :=
  app.spec.volumes.any fun m => m.isPV && m.pvName app.metadata.name == name

/-- The applications of a namespace that mount a volume, but for the one named `skip`. -/
def appsMountingPV (db : DB) (ns name skip : String) : List String :=
  (db.list .application).filterMap fun app =>
    if app.metadata.ns = ns ∧ app.metadata.name ≠ skip ∧ mountsPV app name then
      some app.metadata.name else none

def checkPVProtection (db : DB) (pv : PersistentVolume) : Except AdmissionError Unit :=
  let users := appsMountingPV db pv.metadata.ns pv.metadata.name ""
  require users.isEmpty
    (.forbidden ("persistentvolume " ++ quote pv.metadata.name ++ " is in use by application(s) " ++
      ", ".intercalate users ++ "; delete or repoint them first"))

/-- Whether a volume allows several applications at once. -/
def sharedPV (db : DB) (ns name : String) : Bool :=
  (db.list .persistentVolume).any fun pv =>
    pv.metadata.ns == ns && pv.metadata.name == name && pv.spec.shared

/-- The volumes an application mounts, each once, in the order of its mounts. -/
def mountedPVs (app : Application) : List String :=
  app.spec.volumes.foldl (fun mounted m =>
    if m.isPV && !mounted.contains (m.pvName app.metadata.name) then
      mounted ++ [m.pvName app.metadata.name] else mounted) []

def checkAppMountsExclusive (db : DB) (app : Application) : Except AdmissionError Unit :=
  checkAll (fun name =>
    let users := appsMountingPV db app.metadata.ns name app.metadata.name
    require (sharedPV db app.metadata.ns name || users.isEmpty)
      (.forbidden ("persistentvolume " ++ quote name ++ " is already mounted by application(s) " ++
        ", ".intercalate users ++ "; a volume belongs to one application unless its spec.shared " ++
        "says otherwise"))) (mountedPVs app)

def checkSharingStillHolds (db : DB) (pv : PersistentVolume) : Except AdmissionError Unit :=
  let users := appsMountingPV db pv.metadata.ns pv.metadata.name ""
  require (pv.spec.shared || decide (users.length ≤ 1))
    (.forbidden ("persistentvolume " ++ quote pv.metadata.name ++ " is mounted by application(s) " ++
      ", ".intercalate users ++
      "; spec.shared cannot be cleared while more than one mounts it"))

/-! ## Secrets -/

def secretExists (db : DB) (ns name : String) : Bool :=
  (db.list .secret).any fun s => s.metadata.ns == ns && s.metadata.name == name

def checkSecretRef (db : DB) (app : Application) : Except AdmissionError Unit :=
  checkAll (fun name => require (secretExists db app.metadata.ns name)
    (.invalid ("secret " ++ quote name ++ " does not exist in namespace " ++
      quote app.metadata.ns))) app.requiredSecretRefs

def checkSecretProtection (db : DB) (sec : Secret) : Except AdmissionError Unit :=
  let users := (db.list .application).filterMap fun app =>
    if app.metadata.ns = sec.metadata.ns ∧ app.secretRefs.contains sec.metadata.name then
      some app.metadata.name else none
  require users.isEmpty
    (.forbidden ("secret " ++ quote sec.metadata.name ++ " is in use by application(s) " ++
      ", ".intercalate users ++ "; delete or repoint them first"))

/-! ## The table -/

/-- One invariant: the operations it guards, and the check. -/
structure ReferenceRule where
  guards : Operation → Bool
  check : (k : Kind) → DB → Obj k → Except AdmissionError Unit

def notDelete (op : Operation) : Bool := op ≠ .delete
def onlyDelete (op : Operation) : Bool := op = .delete

def namespaceExistsRule : ReferenceRule := ⟨notDelete, fun _ db o => checkNamespaceExists db o⟩

def namespaceProtectionRule : ReferenceRule where
  guards := onlyDelete
  check
    | .ns, db, o => checkNamespaceEmpty db o
    | _, _, _ => .ok ()

def nodeExistsRule : ReferenceRule where
  guards := notDelete
  check
    | .application, db, o => checkNodeExists db o
    | _, _, _ => .ok ()

def pvProtectionRule : ReferenceRule where
  guards := onlyDelete
  check
    | .persistentVolume, db, o => checkPVProtection db o
    | _, _, _ => .ok ()

def pvExclusiveRule : ReferenceRule where
  guards := notDelete
  check
    | .application, db, o => checkAppMountsExclusive db o
    | .persistentVolume, db, o => checkSharingStillHolds db o
    | _, _, _ => .ok ()

def secretRefRule : ReferenceRule where
  guards := notDelete
  check
    | .application, db, o => checkSecretRef db o
    | _, _, _ => .ok ()

def secretProtectionRule : ReferenceRule where
  guards := onlyDelete
  check
    | .secret, db, o => checkSecretProtection db o
    | _, _, _ => .ok ()

def serviceRefRule : ReferenceRule where
  guards := notDelete
  check
    | .application, db, o => checkServiceRef db o
    | _, _, _ => .ok ()

def serviceProtectionRule : ReferenceRule where
  guards := onlyDelete
  check
    | .service, db, o => checkServiceProtection db o
    | _, _, _ => .ok ()

def referenceRules : List ReferenceRule :=
  [namespaceExistsRule, namespaceProtectionRule, nodeExistsRule, pvProtectionRule, pvExclusiveRule,
    secretRefRule, secretProtectionRule, serviceRefRule, serviceProtectionRule]

def referenceCheck : Plugin where
  admitPass := keep
  validate k ctx a :=
    if a.isSubresource then .ok ()
    else
      checkAll (fun rule : ReferenceRule =>
        if rule.guards a.operation then rule.check k ctx.db a.object else .ok ()) referenceRules

/-! ## When the rules are satisfied -/

section

variable {db : DB}

variable {k : Kind}

theorem checkNamespaceExists_eq_ok_iff {o : Obj k} :
    checkNamespaceExists db o = .ok () ↔
      (metaOf o).ns = "" ∨ ∃ ns ∈ db.list .ns, ns.metadata.name = (metaOf o).ns := by
  simp [checkNamespaceExists, namespaceExists]

variable {app : Application}

theorem checkNodeExists_eq_ok_iff :
    checkNodeExists db app = .ok () ↔
      app.spec.placement.nodeName = "" ∨ nodeExists db app.spec.placement.nodeName = true := by
  simp [checkNodeExists]

theorem checkServiceRef_eq_ok_iff :
    checkServiceRef db app = .ok () ↔
      app.spec.serviceName = "" ∨ ∃ svc ∈ db.list .service,
        svc.metadata.ns = app.metadata.ns ∧ svc.metadata.name = app.spec.serviceName := by
  simp [checkServiceRef, findService, List.find?_isSome]

theorem checkSecretRef_eq_ok_iff :
    checkSecretRef db app = .ok () ↔ ∀ name ∈ app.requiredSecretRefs, ∃ sec ∈ db.list .secret,
      sec.metadata.ns = app.metadata.ns ∧ sec.metadata.name = name := by
  simp [checkSecretRef, checkAll_eq_ok_iff, secretExists]

variable {ns name : String}

theorem sharedPV_iff :
    sharedPV db ns name = true ↔ ∃ pv ∈ db.list .persistentVolume,
      pv.metadata.ns = ns ∧ pv.metadata.name = name ∧ pv.spec.shared = true := by
  simp [sharedPV, and_assoc]

theorem mem_appsMountingPV {skip user : String} :
    user ∈ appsMountingPV db ns name skip ↔ ∃ app ∈ db.list .application,
      app.metadata.ns = ns ∧ app.metadata.name ≠ skip ∧ mountsPV app name = true ∧
        app.metadata.name = user := by
  simp only [appsMountingPV, List.mem_filterMap, Option.ite_none_right_eq_some, Option.some.injEq,
    and_assoc]

theorem mem_mountedPVs : name ∈ mountedPVs app ↔ mountsPV app name = true := by
  have collected : ∀ (mounts : List VolumeMount) (soFar : List String),
      name ∈ mounts.foldl (fun mounted m =>
        if m.isPV && !mounted.contains (m.pvName app.metadata.name) then
          mounted ++ [m.pvName app.metadata.name] else mounted) soFar ↔
        name ∈ soFar ∨ mounts.any (fun m => m.isPV && m.pvName app.metadata.name == name) = true := by
    intro mounts
    induction mounts with
    | nil => simp
    | cons m rest ih =>
      intro soFar
      rw [List.foldl_cons, ih, List.any_cons]
      by_cases isPV : m.isPV = true
      · by_cases seen : m.pvName app.metadata.name ∈ soFar
        · simp only [isPV, seen, List.contains_eq_mem, decide_true, Bool.not_true, Bool.and_false,
            Bool.false_eq_true, if_false, Bool.true_and, Bool.or_eq_true, beq_iff_eq]
          constructor
          · rintro (pre | later)
            · exact .inl pre
            · exact .inr (.inr later)
          rintro (pre | rfl | later)
          · exact .inl pre
          · exact .inl seen
          · exact .inr later
        · simp only [isPV, seen, List.contains_eq_mem, decide_false, Bool.not_false, Bool.and_self,
            if_true, Bool.true_and, List.mem_append, List.mem_singleton, Bool.or_eq_true,
            beq_iff_eq, or_assoc, eq_comm (a := name)]
      · simp [isPV]
  rw [mountedPVs, collected, mountsPV]
  simp

theorem checkAppMountsExclusive_eq_ok_iff :
    checkAppMountsExclusive db app = .ok () ↔ ∀ name, mountsPV app name = true →
      sharedPV db app.metadata.ns name = true ∨ ∀ other ∈ db.list .application,
        other.metadata.ns = app.metadata.ns → other.metadata.name ≠ app.metadata.name →
          mountsPV other name = false := by
  simp only [checkAppMountsExclusive, checkAll_eq_ok_iff, require_eq_ok_iff, Bool.or_eq_true,
    List.isEmpty_iff, mem_mountedPVs, List.eq_nil_iff_forall_not_mem, mem_appsMountingPV]
  refine forall_congr' fun name => imp_congr_right fun _ => or_congr_right ?_
  constructor
  · intro unused other mem nsEq ne
    by_contra mounts
    exact unused other.metadata.name
      ⟨other, mem, nsEq, ne, by simpa using mounts, rfl⟩
  rintro alone user ⟨other, mem, nsEq, ne, mounts, rfl⟩
  rw [alone other mem nsEq ne] at mounts
  cases mounts

variable {pv : PersistentVolume}

theorem one_user_of_checkSharingStillHolds {a b : Application}
    (holds : checkSharingStillHolds db pv = .ok ()) (unshared : pv.spec.shared = false)
    (memberA : a ∈ db.list .application) (memberB : b ∈ db.list .application)
    (nsA : a.metadata.ns = pv.metadata.ns) (nsB : b.metadata.ns = pv.metadata.ns)
    (namedA : a.metadata.name ≠ "") (namedB : b.metadata.name ≠ "")
    (mountsA : mountsPV a pv.metadata.name = true) (mountsB : mountsPV b pv.metadata.name = true) :
    a.metadata.name = b.metadata.name := by
  simp only [checkSharingStillHolds, require_eq_ok_iff, unshared, Bool.false_or,
    decide_eq_true_eq] at holds
  have userA := mem_appsMountingPV.2 ⟨a, memberA, nsA, namedA, mountsA, rfl⟩
  have userB := mem_appsMountingPV.2 ⟨b, memberB, nsB, namedB, mountsB, rfl⟩
  rcases users : appsMountingPV db pv.metadata.ns pv.metadata.name "" with _ | ⟨only, _ | ⟨_, _⟩⟩
  · rw [users] at userA
    cases userA
  · rw [users, List.mem_singleton] at userA userB
    rw [userA, userB]
  · rw [users] at holds
    simp at holds

theorem checkNamespaceEmpty_eq_ok_iff {ns : Namespace} :
    checkNamespaceEmpty db ns = .ok () ↔
      ∀ k ∈ namespacedKinds, ∀ o ∈ db.list k, (metaOf o).ns ≠ ns.metadata.name := by
  have names : ∀ k, objectNames db ns.metadata.name k = [] ↔
      ∀ o ∈ db.list k, (metaOf o).ns ≠ ns.metadata.name := by
    intro k
    simp only [objectNames]
    split
    next many =>
      constructor
      · simp
      intro gone
      have empty : (db.list k).filterMap (fun o : Obj k =>
          if (metaOf o).ns = ns.metadata.name then some (metaOf o).name else none) = [] := by
        rw [List.filterMap_eq_nil_iff]
        intro o mem
        simp [gone o mem]
      rw [empty] at many
      cases many
    · simp [List.filterMap_eq_nil_iff]
  simp only [checkNamespaceEmpty, require_eq_ok_iff, remaining, List.isEmpty_iff,
    List.filterMap_eq_nil_iff]
  refine forall_congr' fun k => imp_congr_right fun _ => ?_
  rw [← names k]
  by_cases empty : objectNames db ns.metadata.name k = []
  · simp [empty]
  · simp [empty]

theorem checkServiceProtection_eq_ok_iff {svc : Service} :
    checkServiceProtection db svc = .ok () ↔ ∀ app ∈ db.list .application,
      app.metadata.ns = svc.metadata.ns → app.spec.serviceName ≠ svc.metadata.name := by
  rw [checkServiceProtection]
  split
  next none => simpa using none
  rename_i app found
  simp only [reduceCtorEq, false_iff]
  intro unused
  have declares := List.find?_some found
  simp only [Bool.and_eq_true, beq_iff_eq] at declares
  exact unused app (List.mem_of_find?_eq_some found) declares.1 declares.2

theorem checkPVProtection_eq_ok_iff :
    checkPVProtection db pv = .ok () ↔ ∀ app ∈ db.list .application,
      app.metadata.ns = pv.metadata.ns → app.metadata.name ≠ "" →
        mountsPV app pv.metadata.name = false := by
  simp only [checkPVProtection, require_eq_ok_iff, List.isEmpty_iff, List.eq_nil_iff_forall_not_mem,
    mem_appsMountingPV]
  constructor
  · intro unused app mem nsEq named
    by_contra mounts
    exact unused app.metadata.name ⟨app, mem, nsEq, named, by simpa using mounts, rfl⟩
  rintro unused user ⟨app, mem, nsEq, named, mounts, rfl⟩
  rw [unused app mem nsEq named] at mounts
  cases mounts

theorem checkSecretProtection_eq_ok_iff {sec : Secret} :
    checkSecretProtection db sec = .ok () ↔ ∀ app ∈ db.list .application,
      app.metadata.ns = sec.metadata.ns → sec.metadata.name ∉ app.secretRefs := by
  simp [checkSecretProtection, List.filterMap_eq_nil_iff]

theorem check_of_referenceCheck {ctx : Context} {a : Attributes k} {rule : ReferenceRule}
    (ok : referenceCheck.validate k ctx a = .ok ()) (own : a.subresource = "")
    (mem : rule ∈ referenceRules) (guarded : rule.guards a.operation = true) :
    rule.check k ctx.db a.object = .ok () := by
  simp only [referenceCheck, Attributes.isSubresource, own, ne_eq, not_true_eq_false, decide_false,
    Bool.false_eq_true, if_false, checkAll_eq_ok_iff] at ok
  have held := ok rule mem
  rwa [if_pos guarded] at held

end

/-! ## Capacity -/

/-- What the unfinished applications of a node ask for, with `app` in place of its stored
copy. -/
def totalRequestsOnNode (db : DB) (app : Application) : ResourceAmounts :=
  (db.list .application).foldl (fun total other =>
    if (other.metadata.ns = app.metadata.ns ∧ other.metadata.name = app.metadata.name) ∨
        other.spec.placement.nodeName ≠ app.spec.placement.nodeName ∨ other.finished then total
    else total.add other.spec.resources.effectiveRequests)
    app.spec.resources.effectiveRequests

/-- The reported capacity of a node; zero when it has not reported or is not there. -/
def nodeCapacity (db : DB) (name : String) : ResourceAmounts :=
  (((db.list .node).find? fun n => n.metadata.name == name).map (·.status.capacity)).getD {}

def checkCapacity (render : Quantity → String) (db : DB) (app : Application) :
    Except AdmissionError Unit :=
  let node := app.spec.placement.nodeName
  if app.spec.resources.effectiveRequests.isZero || node == "" then .ok ()
  else
    let exceeded := (totalRequestsOnNode db app).exceeds render (nodeCapacity db node) true
    require exceeded.isEmpty
      (.forbidden ("application " ++ quote app.metadata.name ++
        " rejected: requests exceed capacity of node " ++ quote node ++ " (" ++
        ", ".intercalate exceeded ++ ")"))

def capacityCheck (render : Quantity → String) : Plugin where
  admitPass := keep
  validate
    | .application, ctx, a =>
      if a.operation = .delete || a.isSubresource then .ok ()
      else checkCapacity render ctx.db a.object
    | _, _, _ => .ok ()

end Horchestra.Admission
