import Horchestra.Admission.KindPolicies
import Horchestra.Admission.Ownership
import Horchestra.Admission.Rbac
import Horchestra.Admission.UidAllocation

/-!
# The chain the controller runs

The plugins in the order the controller lists them, and the three guards it appends that ask
the authorizer about the requester.  Whatever the chain rewrites, it leaves the identity of an
object alone: its name and namespace, the uid and version its sender knows it by, and the
mark of a requested deletion (`admitted_sameIdentity`).
-/

namespace Horchestra.Admission

open Api Storage Authz Foundations Text Checks

/-! ## Guards that ask about the requester -/

/-- How many secrets one write may ask the authorizer about. -/
def maxSecretRefs : Nat := 64

/-- Every secret an environment and a list of volumes name, optional or not. -/
def secretNames (env : List EnvVar) (volumes : List VolumeMount) : List String :=
  (env.filterMap fun v => v.secretRef.bind fun ref => if ref.name ≠ "" then some ref.name else none) ++
  (volumes.filterMap fun m =>
    if m.isSecret && m.volume.name ≠ "" then some m.volume.name else none)

/-- The secrets a write reads on its author's behalf, and where. -/
def referencedSecrets : {k : Kind} → Obj k → Option (String × List String)
  | .application, o =>
    let app : Application := o
    some (app.metadata.ns, secretNames app.spec.env app.spec.volumes)
  | .applicationSet, o =>
    let set : ApplicationSet := o
    some (set.metadata.ns, secretNames set.spec.common.env set.spec.common.volumes ++
      set.spec.applications.flatMap fun comp => secretNames comp.spec.env comp.spec.volumes)
  | _, _ => none

/-- Whether an identity may get a named object of the core group. -/
def mayGet (db : DB) (id : Identity) (resource ns name : String) : Bool :=
  authorize db { user := some id, verb := "get", group := "horchestra.io", resource := resource
                 ns := ns, name := name, resourceRequest := true }

def checkSecretAccess (db : DB) (id : Identity) (ns : String) (names : List String) :
    Except AdmissionError Unit :=
  let names := names.dedup.insertionSort (· ≤ ·)
  andThen (require (decide (names.length ≤ maxSecretRefs))
    (.forbidden ("spec: " ++ Nat.repr names.length ++ " distinct secrets are referenced, more than " ++
      "the " ++ Nat.repr maxSecretRefs ++ " this check will evaluate"))) <|
  checkAll (fun name => require (mayGet db id "secrets" ns name)
    (.forbidden ("spec: may not reference secret " ++ quote name ++ " in namespace " ++ quote ns ++
      " — the requester cannot get it, and mounting a secret is reading it"))) names

/-- The requester a guard asks about: none for a deletion, a subresource, the control plane's
own loops or an administrator. -/
def questioned {k : Kind} (ctx : Context) (a : Attributes k) : Option Identity :=
  if a.operation = .delete || a.isSubresource then none
  else ctx.identity.filter fun id => !id.groups.contains adminGroup

def secretAccess : Plugin where
  admitPass := keep
  validate _ ctx a :=
    match questioned ctx a, referencedSecrets a.object with
    | some id, some (ns, names) => checkSecretAccess ctx.db id ns names
    | _, _ => .ok ()

def joinedServices : {k : Kind} → Obj k → Option (String × List String)
  | .application, o => some ((Application.metadata o).ns, [(Application.spec o).serviceName])
  | .applicationSet, o =>
    some ((ApplicationSet.metadata o).ns,
      (ApplicationSet.spec o).applications.map (·.spec.serviceName))
  | _, _ => none

def checkJoin (db : DB) (id : Identity) (ns service : String) : Except AdmissionError Unit :=
  require (service == "" || mayGet db id "services" ns service)
    (.forbidden ("spec.serviceName: may not join service " ++ quote service ++ " in namespace " ++
      quote ns ++ " — the requester cannot get it, and joining a service is taking a share of " ++
      "its name and its traffic"))

def serviceJoin : Plugin where
  admitPass := keep
  validate _ ctx a :=
    match questioned ctx a, joinedServices a.object with
    | some id, some (ns, services) => checkAll (checkJoin ctx.db id ns) services
    | _, _ => .ok ()

/-! ## The chain -/

/-- What a deployment configures, and the libraries it links. -/
structure Deployment where
  gates : String → Bool := fun _ => false
  serviceCIDR : String := ""
  routedNetwork : Bool := false
  render : Quantity → String
  digests : AppSet.Digests
  parseCSR : List UInt8 → Except String Unit
  netip : Netip

/-- The type of an object already says its kind. -/
def defaulting : Plugin := ⟨keep, accept⟩

def defaultChain (d : Deployment) : Chain :=
  [defaulting, secretPolicy d.gates, csrPolicy d.parseCSR, Rbac.rbacRules,
    applicationSet d.digests d.render d.routedNetwork, childOwnership, finalizerOwnership,
    -- The allocator assigns ids out of the namespace's block before the floor's sentinel can.
    UidAllocation.plugin, serviceVIP d.netip d.serviceCIDR, policyEnforcement,
    appPolicy d.render d.routedNetwork, servicePolicy, serviceAddress d.netip, nodePolicy,
    nodeRestriction, referenceCheck, capacityCheck d.render]

def escalationGuards : Chain := [Rbac.rbacEscalation, secretAccess, serviceJoin]

def withEscalationCheck (chain : Chain) : Chain := chain ++ escalationGuards

/-! ## The plugins that rewrite a kind

Every other rewriting pass returns the object it was given. -/

section

variable {d : Deployment} {ctx : Context}

theorem admitPass_application {a : Attributes .application} {object : Application} :
    Chain.admitPass ctx (defaultChain d) a = .ok { a with object := object } ↔
      ∃ owned held assigned, childOwnership.admitPass .application ctx a = .ok owned ∧
        finalizerOwnership.admitPass .application ctx { a with object := owned } = .ok held ∧
        UidAllocation.plugin.admitPass .application ctx { a with object := held } = .ok assigned ∧
        policyEnforcement.admitPass .application ctx { a with object := assigned } = .ok object := by
  have rewriting : Chain.admitPass ctx (defaultChain d) a = Chain.admitPass ctx
    [childOwnership, finalizerOwnership, UidAllocation.plugin, policyEnforcement] a := rfl
  simp only [rewriting, Chain.admitPass_cons_eq_ok_iff]
  simp [Chain.admitPass]

theorem admitPass_ns {a : Attributes .ns} {object : Namespace} :
    Chain.admitPass ctx (defaultChain d) a = .ok { a with object := object } ↔
      ∃ held, finalizerOwnership.admitPass .ns ctx a = .ok held ∧
        UidAllocation.plugin.admitPass .ns ctx { a with object := held } = .ok object := by
  have rewriting : Chain.admitPass ctx (defaultChain d) a =
    Chain.admitPass ctx [finalizerOwnership, UidAllocation.plugin] a := rfl
  simp only [rewriting, Chain.admitPass_cons_eq_ok_iff]
  simp [Chain.admitPass]

/-- What passes the guards behind a chain passes the chain, and they rewrite nothing. -/
theorem run_of_guarded {k : Kind} {chain : Chain} {a : Attributes k} {object : Obj k}
    (ok : (withEscalationCheck chain).run ctx a = .ok object) :
    chain.run ctx a = .ok object := by
  obtain ⟨rewritten, passed⟩ := Chain.run_eq_ok_iff.1 ok
  refine Chain.run_eq_ok_iff.2 ⟨?_, fun plugin mem => passed plugin (List.mem_append_left _ mem)⟩
  rwa [withEscalationCheck, Chain.admitPass_append_of_keep] at rewritten
  simp only [escalationGuards, List.forall_mem_cons, List.not_mem_nil, false_implies, implies_true,
    and_true]
  exact ⟨fun _ => rfl, fun _ => rfl, fun _ => rfl⟩

end

/-! ## What the chain leaves alone -/

/-- The same object to its sender: one name, one version, one mark of deletion. -/
structure SameIdentity (m m' : ObjectMeta) : Prop where
  name : m'.name = m.name
  ns : m'.ns = m.ns
  uid : m'.uid = m.uid
  resourceVersion : m'.resourceVersion = m.resourceVersion
  deletionTimestamp : m'.deletionTimestamp = m.deletionTimestamp

theorem SameIdentity.refl (m : ObjectMeta) : SameIdentity m m := ⟨rfl, rfl, rfl, rfl, rfl⟩

theorem SameIdentity.trans {m m' m'' : ObjectMeta} (first : SameIdentity m m')
    (second : SameIdentity m' m'') : SameIdentity m m'' where
  name := second.name.trans first.name
  ns := second.ns.trans first.ns
  uid := second.uid.trans first.uid
  resourceVersion := second.resourceVersion.trans first.resourceVersion
  deletionTimestamp := second.deletionTimestamp.trans first.deletionTimestamp

/-- A plugin whose rewriting pass keeps the identity of every object. -/
def Plugin.KeepsIdentity (plugin : Plugin) : Prop :=
  ∀ (k : Kind) (ctx : Context) (a : Attributes k) (object : Obj k),
    plugin.admitPass k ctx a = .ok object → SameIdentity (metaOf a.object) (metaOf object)

theorem keepsIdentity_of_keep {plugin : Plugin} (eq : plugin.admitPass = keep) :
    plugin.KeepsIdentity := by
  intro k ctx a o done
  rw [eq] at done
  cases done
  exact SameIdentity.refl _

theorem secretPolicy_keepsIdentity (gates : String → Bool) : (secretPolicy gates).KeepsIdentity := by
  intro k ctx a o done
  cases k <;> cases done <;> exact SameIdentity.refl _

theorem csrPolicy_keepsIdentity (parse : List UInt8 → Except String Unit) :
    (csrPolicy parse).KeepsIdentity := by
  intro k ctx a o done
  cases k with
  | certificateSigningRequest =>
    simp only [csrPolicy, admitCSR] at done
    split at done
    · cases done
      exact SameIdentity.refl _
    split at done
    · split at done
      · cases done
      · cases done
        exact ⟨rfl, rfl, rfl, rfl, rfl⟩
    · cases done
      cases requester : ctx.identity <;> exact ⟨rfl, rfl, rfl, rfl, rfl⟩
    · cases done
      exact SameIdentity.refl _
  | _ =>
    cases done
    exact SameIdentity.refl _

section

variable {ctx : Context} {a : Attributes .application} {app : Application}

theorem childOwnership_same (done : childOwnership.admitPass .application ctx a = .ok app) :
    ∃ m, SameIdentity (Application.metadata a.object) m ∧
      app = { (a.object : Application) with metadata := m } := by
  simp only [childOwnership] at done
  split at done
  · cases done
    exact ⟨_, SameIdentity.refl _, rfl⟩
  split at done
  · split at done <;> cases done
    exact ⟨_, SameIdentity.refl _, rfl⟩
  · cases done
    exact ⟨carryOwnership _ _, ⟨rfl, rfl, rfl, rfl, rfl⟩, rfl⟩
  · cases done
    exact ⟨_, SameIdentity.refl _, rfl⟩

theorem finalizerOwnership_same {k : Kind} {a : Attributes k} {object : Obj k}
    (done : finalizerOwnership.admitPass k ctx a = .ok object) : SameButFinalizers a.object object := by
  simp only [finalizerOwnership] at done
  split at done
  · cases done
    exact sameButFinalizers_self _
  split at done
  · cases done
    obtain ⟨fins, eq⟩ := hold_same (revertFinalizers a.object a.oldObject)
    refine ⟨fins, ?_⟩
    simpa only [revertFinalizers, metaOf_withMeta, withMeta_withMeta] using eq
  cases done
  exact hold_same a.object

theorem SameButFinalizers.sameIdentity {k : Kind} {o o' : Obj k} (eq : SameButFinalizers o o') :
    SameIdentity (metaOf o) (metaOf o') := by
  obtain ⟨fins, rfl⟩ := eq
  rw [metaOf_withMeta]
  exact ⟨rfl, rfl, rfl, rfl, rfl⟩

theorem assignBlock_sameIdentity {db : DB} {ns ns' : Namespace}
    (done : UidAllocation.assignBlock db ns = .ok ns') : SameIdentity ns.metadata ns'.metadata := by
  simp only [UidAllocation.assignBlock] at done
  split at done
  · split at done
    · cases done
      exact SameIdentity.refl _
    · cases done
  split at done
  · cases done
    exact ⟨rfl, rfl, rfl, rfl, rfl⟩
  · cases done

theorem assignWorkloadID_same {db : DB} {app app' : Application}
    (done : UidAllocation.assignWorkloadID db app = .ok app') : ∃ context,
      app' = { app with spec := { app.spec with securityContext := context } } := by
  simp only [UidAllocation.assignWorkloadID] at done
  split at done
  · cases done
  split at done
  · cases done
    exact ⟨_, rfl⟩
  split at done
  · cases done
    exact ⟨_, rfl⟩
  split at done
  · cases done
    exact ⟨_, rfl⟩
  · cases done

theorem uidAllocation_same (done : UidAllocation.plugin.admitPass .application ctx a = .ok app) :
    ∃ context, app = { (a.object : Application) with
      spec := { Application.spec a.object with securityContext := context } } := by
  simp only [UidAllocation.plugin, UidAllocation.admitPass] at done
  split at done
  · cases done
    exact ⟨_, rfl⟩
  · exact assignWorkloadID_same done

theorem policyEnforcement_same (done : policyEnforcement.admitPass .application ctx a = .ok app) :
    ∃ context, app = { (a.object : Application) with
      spec := { Application.spec a.object with securityContext := context } } := by
  simp only [policyEnforcement] at done
  split at done <;> cases done <;> exact ⟨_, rfl⟩

theorem serviceVIP_same {netip : Netip} {cidr : String} {a : Attributes .service} {svc : Service}
    (done : (serviceVIP netip cidr).admitPass .service ctx a = .ok svc) :
    ∃ addr, svc = withClusterIP a.object addr := by
  simp only [serviceVIP] at done
  split at done
  · cases done
    exact ⟨_, rfl⟩
  split at done
  · cases done
    exact ⟨_, rfl⟩
  · split at done <;> cases done
    exact ⟨_, rfl⟩
  · cases done
    exact ⟨_, rfl⟩

end

theorem childOwnership_keepsIdentity : childOwnership.KeepsIdentity := by
  intro k ctx a o done
  cases k with
  | application =>
    obtain ⟨m, eq, rfl⟩ := childOwnership_same done
    exact eq
  | _ =>
    cases done
    exact SameIdentity.refl _

theorem finalizerOwnership_keepsIdentity : finalizerOwnership.KeepsIdentity :=
  fun _ _ _ _ done => (finalizerOwnership_same done).sameIdentity

theorem uidAllocation_keepsIdentity : UidAllocation.plugin.KeepsIdentity := by
  intro k ctx a o done
  cases k with
  | ns =>
    simp only [UidAllocation.plugin, UidAllocation.admitPass] at done
    split at done
    · cases done
      exact SameIdentity.refl _
    · exact assignBlock_sameIdentity done
  | application =>
    obtain ⟨_, rfl⟩ := uidAllocation_same done
    exact SameIdentity.refl _
  | _ =>
    cases done
    exact SameIdentity.refl _

theorem serviceVIP_keepsIdentity (netip : Netip) (cidr : String) :
    (serviceVIP netip cidr).KeepsIdentity := by
  intro k ctx a o done
  cases k with
  | service =>
    obtain ⟨_, rfl⟩ := serviceVIP_same done
    exact SameIdentity.refl _
  | _ =>
    cases done
    exact SameIdentity.refl _

theorem policyEnforcement_keepsIdentity : policyEnforcement.KeepsIdentity := by
  intro k ctx a o done
  cases k with
  | application =>
    obtain ⟨_, rfl⟩ := policyEnforcement_same done
    exact SameIdentity.refl _
  | _ =>
    cases done
    exact SameIdentity.refl _

theorem defaultChain_keepsIdentity (d : Deployment) :
    ∀ plugin ∈ defaultChain d, plugin.KeepsIdentity := by
  simp only [defaultChain, List.forall_mem_cons, List.not_mem_nil, false_implies, implies_true,
    and_true]
  exact ⟨keepsIdentity_of_keep rfl, secretPolicy_keepsIdentity _, csrPolicy_keepsIdentity _,
    keepsIdentity_of_keep rfl, keepsIdentity_of_keep rfl, childOwnership_keepsIdentity,
    finalizerOwnership_keepsIdentity, uidAllocation_keepsIdentity, serviceVIP_keepsIdentity _ _,
    policyEnforcement_keepsIdentity, keepsIdentity_of_keep rfl, keepsIdentity_of_keep rfl,
    keepsIdentity_of_keep rfl, keepsIdentity_of_keep rfl, keepsIdentity_of_keep rfl,
    keepsIdentity_of_keep rfl, keepsIdentity_of_keep rfl⟩

theorem withEscalationCheck_keepsIdentity {chain : Chain}
    (keeps : ∀ plugin ∈ chain, plugin.KeepsIdentity) :
    ∀ plugin ∈ withEscalationCheck chain, plugin.KeepsIdentity := by
  intro plugin mem
  rcases List.mem_append.1 mem with inside | guard
  · exact keeps plugin inside
  simp only [escalationGuards, List.mem_cons, List.not_mem_nil, or_false] at guard
  rcases guard with rfl | rfl | rfl <;> exact keepsIdentity_of_keep rfl

/-- **What a chain admits is the object it was asked about.** -/
theorem admitted_sameIdentity {k : Kind} {ctx : Context} {chain : Chain} {a : Attributes k}
    {object : Obj k} (keeps : ∀ plugin ∈ chain, plugin.KeepsIdentity)
    (done : chain.run ctx a = .ok object) : SameIdentity (metaOf a.object) (metaOf object) := by
  obtain ⟨rewritten, -⟩ := Chain.run_eq_ok_iff.1 done
  refine Chain.admitPass_keeps (fun o => SameIdentity (metaOf a.object) (metaOf o)) ?_
    (SameIdentity.refl _) rewritten
  intro plugin mem pre next soFar pass
  exact soFar.trans (keeps plugin mem k ctx { a with object := pre } next pass)

end Horchestra.Admission
