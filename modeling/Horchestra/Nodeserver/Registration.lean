import Horchestra.Foundations.NameMap
import Horchestra.Service.Deletion
import Horchestra.Storage.History

/-!
# A node's report of itself

A node reports its whole object, and the server stores the status of it.  Heartbeat, capacity
ceiling and derived labels are the server's own.  A node that is not stored yet is created from the
report, cordoned: the specification is replaced, and the metadata is the reported one.  No client
stands behind the write, so the plugins that keep a node from labelling itself, and a client from
choosing finalizers or a mark of deletion, let it pass.

`registration_takes_status_only_iff`: what is registered is the status alone exactly when the report
carries no labels, no finalizers and no mark of deletion; a later report changes nothing but the
status.  `labelled_report_chooses_pool` is a node that places itself in a pool.
-/

namespace Horchestra.Nodeserver

open Std Api Storage Admission Requests Foundations Text Checks NameMap

/-! ## The report -/

def labelHostname : String := labelDomain ++ "hostname"
def labelOS : String := labelDomain ++ "os"
def labelArch : String := labelDomain ++ "arch"

/-- The placement labels the control plane computes from what a node reports. -/
def derivedNodeLabels (n : Node) : StringMap :=
  let out := (∅ : StringMap).insert labelHostname n.metadata.name
  let out := if n.status.platform.os = "" then out else out.insert labelOS n.status.platform.os
  if n.status.platform.arch = "" then out else out.insert labelArch n.status.platform.arch

def maxReportedCPU : Int := 4096
def maxReportedMemory : Int := 70368744177664

/-- An amount in whole units, rounded up as it is compared, or the ceiling. -/
def clampAmount (amount : Quantity) (ceiling : Int) : Quantity :=
  if ceiling < -(-amount / 1000000000) then ceiling * 1000000000 else amount

def clampCapacity (n : Node) : Node :=
  { n with status := { n.status with capacity :=
    { cpu := clampAmount n.status.capacity.cpu maxReportedCPU
      memory := clampAmount n.status.capacity.memory maxReportedMemory } } }

/-- The report as the server takes it. -/
def received (now : Time) (n : Node) : Node :=
  let n := clampCapacity { n with status := { n.status with heartbeat := some now } }
  { n with status := { n.status with labels := derivedNodeLabels n } }

inductive RegistrationError where
  | otherNode (message : String)
  | unproven
  | refused (error : ApiError)

/-- Stores what a node reports of itself; `proven` is the outcome of the check of a name that is
new. -/
def applyStatus (chain : Chain) (now : Time) (db : DB) (node : String) (proven : Bool)
    (report : Node) :
    Except RegistrationError DB :=
  if report.metadata.name ≠ node then
    .error (.otherNode ("reported node " ++ quote report.metadata.name ++
      " does not match identity " ++ quote node))
  else
    let n := received now report
    match updateSubresource (k := .node) chain none db db "" n with
    | .ok db' => .ok db'
    | .error (.notFound _ _) =>
      if proven then
        translated .refused (create (k := .node) chain none now db db "" { n with unschedulable := true })
      else .error .unproven
    | .error e => .error (.refused e)

/-! ## What is stored -/

section

variable {d : Deployment} {now : Time} {db db' : DB} {node : String} {proven : Bool} {report : Node}

theorem admitPass_node {a : Attributes .node} {object : Node} :
    Chain.admitPass ⟨none, db⟩ (defaultChain d) a = .ok { a with object := object } ↔
      object = a.object := by
  have kept : finalizerOwnership.admitPass .node ⟨none, db⟩ a = .ok a.object := by
    simp only [finalizerOwnership]
    split
    · rfl
    · rfl
  have rewriting : Chain.admitPass ⟨none, db⟩ (defaultChain d) a =
    Chain.admitPass ⟨none, db⟩ [finalizerOwnership] a := rfl
  simp only [rewriting, Chain.admitPass_cons_eq_ok_iff, kept]
  simp [Chain.admitPass, eq_comm]

theorem node_of_accepted {a : Attributes .node} {o : Node}
    (ok : (servingChain d).run ⟨none, db⟩ a = .ok o) : o = a.object :=
  admitPass_node.1 (Chain.run_eq_ok_iff.1 (run_of_guarded ok)).1

theorem reported_of_updateSubresource {n : Node}
    (done : updateSubresource (k := .node) (servingChain d) none db db "" n = .ok db') :
    ∃ stored new : Node, db.get .node "" n.metadata.name = some stored ∧
      db'.get .node "" n.metadata.name = some new ∧ SameCore (k := .node) stored new := by
  simp only [updateSubresource, bind_eq_ok_iff, translated_eq_ok_iff, pure, Except.pure,
    Except.ok.injEq, Prod.exists] at done
  obtain ⟨object, checked, out, after, updated, rfl⟩ := done
  obtain ⟨o, old, bound, -, ok⟩ := checkUpdate_spec checked
  obtain rfl := bindNamespace_spec bound
  obtain rfl := node_of_accepted ok
  obtain ⟨stored, hit, -, rfl, filed, -⟩ := DB.updateStatus_spec updated
  exact ⟨stored, _, hit, filed.here, sameCore_withStatusOf (k := .node) stored _⟩

theorem created_of_create {n : Node}
    (done : create (k := .node) (servingChain d) none now db db "" n = .ok db') :
    db.get .node "" n.metadata.name = none ∧ ∃ new : Node,
      db'.get .node "" n.metadata.name = some new ∧ new.unschedulable = n.unschedulable ∧
      new.status = n.status ∧ new.metadata.labels = n.metadata.labels ∧
      new.metadata.finalizers = n.metadata.finalizers ∧
      new.metadata.deletionTimestamp = n.metadata.deletionTimestamp := by
  simp only [create, bind_eq_ok_iff, translated_eq_ok_iff, admitted, pure, Except.pure,
    Except.ok.injEq, Prod.exists] at done
  obtain ⟨o, bound, _, -, _, -, object, ok, out, after, stored, rfl⟩ := done
  obtain rfl := bindNamespace_spec bound
  obtain rfl := node_of_accepted ok
  obtain ⟨-, gone, rfl, filed, -⟩ := DB.create_spec stored
  exact ⟨gone, _, filed.here, rfl, rfl, rfl, rfl, rfl⟩

theorem copyInto_empty (top : StringMap) : copyInto ∅ top = top := by
  have indexed : copyInto ∅ top = indexBy Prod.fst Prod.snd top.toList :=
    ExtTreeMap.foldl_eq_foldl_toList
  have nodup : (top.toList.map Prod.fst).Nodup :=
    List.pairwise_map.2 (ExtTreeMap.distinct_keys_toList.imp fun ne eq => ne (by simp [eq]))
  refine ExtTreeMap.ext_getElem? fun key => Option.ext fun v => ?_
  rw [indexed]
  constructor
  · intro hit
    obtain ⟨e, member, rfl, rfl⟩ := exists_of_indexBy hit
    exact ExtTreeMap.mem_toList_iff_getElem?_eq_some.1 member
  intro hit
  have member := ExtTreeMap.mem_toList_iff_getElem?_eq_some.2 hit
  exact indexBy_of_mem nodup member

/-- What a node that joins the fleet may bring with it. -/
structure StatusOnly (report created : Node) : Prop where
  spec : created.unschedulable = true
  placement : created.schedulingLabels = derivedNodeLabels report
  labels : created.metadata.labels = ∅
  finalizers : created.metadata.finalizers = []
  stamp : created.metadata.deletionTimestamp = none

/-- **What a first report stores is the status alone exactly when it carries no labels, finalizers
or mark of deletion.** -/
theorem registration_takes_status_only_iff
    (done : applyStatus (servingChain d) now db node proven report = .ok db') :
    (db.get .node "" node = none → ∃ created, db'.get .node "" node = some created ∧
      (StatusOnly report created ↔ report.metadata.labels = ∅ ∧ report.metadata.finalizers = [] ∧
        report.metadata.deletionTimestamp = none)) ∧
    ∀ stored, db.get .node "" node = some stored → ∃ new, db'.get .node "" node = some new ∧
      SameCore (k := .node) stored new := by
  unfold applyStatus at done
  split at done
  · cases done
  rename_i named
  simp only [ne_eq, Decidable.not_not] at named
  subst named
  simp only at done
  split at done
  next after reported =>
    cases done
    obtain ⟨stored, new, present, written, core⟩ := reported_of_updateSubresource reported
    refine ⟨fun absent => absurd (absent.symm.trans present) (by simp), fun found isFound => ?_⟩
    cases present.symm.trans isFound
    exact ⟨new, written, core⟩
  · split at done
    · obtain ⟨absent, created, written, spec, status, labels, finalizers, stamp⟩ :=
        created_of_create (translated_eq_ok_iff.1 done)
      refine ⟨fun _ => ⟨created, written, ?_⟩, fun found isFound => ?_⟩
      · constructor
        · intro only
          exact ⟨labels.symm.trans only.labels, finalizers.symm.trans only.finalizers,
            stamp.symm.trans only.stamp⟩
        · rintro ⟨noLabels, noFinalizers, noStamp⟩
          have bare := labels.trans noLabels
          refine ⟨spec, ?_, bare, finalizers.trans noFinalizers, stamp.trans noStamp⟩
          have derived : created.status.labels = derivedNodeLabels report := by rw [status]; rfl
          rw [Node.schedulingLabels, bare, copyInto_empty, derived]
          split
          next empty => rw [ExtTreeMap.isEmpty_iff.1 empty]
          · rfl
      · cases absent.symm.trans isFound
    · cases done
  · cases done

end

/-- What a machine reports of itself. -/
def joining (labels : StringMap) : Node where
  metadata := { name := "n1", labels := labels }
  status := { ready := true, platform := { os := "linux", arch := "amd64" } }

theorem registration_takes_status_only_joining : ∃ db' : DB, ∃ created : Node,
    applyStatus (servingChain plainDeployment) 0 {} "n1" true (joining ∅) = .ok db' ∧
    db'.get .node "" "n1" = some created ∧ StatusOnly (joining ∅) created := by
  have accepted : (applyStatus (servingChain plainDeployment) 0 {} "n1" true
    (joining ∅)).toOption.isSome = true := by decide +kernel
  cases result : applyStatus (servingChain plainDeployment) 0 {} "n1" true (joining ∅) with
  | error e => simp [result, Except.toOption] at accepted
  | ok db' =>
    obtain ⟨created, present, only⟩ := (registration_takes_status_only_iff result).1
      (by simp [DB.get, DB.find])
    exact ⟨db', created, rfl, present, only.2 ⟨rfl, rfl, rfl⟩⟩

/-- A machine names the pool it wants to be in, and is placed in it. -/
theorem labelled_report_chooses_pool :
    (((applyStatus (servingChain plainDeployment) 0 {} "n1" true
      (joining ((∅ : StringMap).insert "pool" "gpu"))).toOption.bind fun db =>
        db.get .node "" "n1").bind fun created => created.schedulingLabels["pool"]?) =
          some "gpu" := by
  decide +kernel

end Horchestra.Nodeserver
