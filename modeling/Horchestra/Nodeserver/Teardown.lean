import Horchestra.Service.HostIdentity

/-!
# Completing a deletion from a node's report

A node that has stopped a workload says so in a status report.  The node server stores the
status, drops the finalizer that waited for the report, and deletes the object, all through the
service and so through the admission chain, with no identity of a caller.  Marking an object for
deletion goes around the chain on purpose; dropping the finalizer does not, and the chain judges
the departing application against the store as it is then.

`teardown_completes_iff` says in which reachable stores it passes: its node must still exist and
have room for everything that is placed on it, and its ids must lie in the block its namespace
carries now.  `shrunken_node_keeps_application` is a store in which it does not.
-/

namespace Horchestra.Nodeserver

open Api Storage Admission Requests Foundations Text Checks

/-! ## The report -/

/-- What a node reports about one of its applications. -/
structure AppStatus where
  ns : String
  name : String
  observedGeneration : Int := 0
  phase : String
  message : String := ""
  address : String := ""
  exitCode : Int := 0
  finishedAtUnixNano : Nat := 0
  attempts : Int := 0

/-- Why a report was not carried out. -/
inductive ReportError where
  | pinnedElsewhere (message : String)
  | refused (error : ApiError)

/-- The status a report becomes.  How a workload finished is kept only for one that has. -/
def statusOf (app : Application) (report : AppStatus) : ApplicationStatus :=
  let finished := terminalPhase report.phase app.spec.lifecycle report.attempts
  { observedGeneration := report.observedGeneration
    phase := report.phase
    message := report.message
    address := report.address
    attempts := report.attempts
    exitCode := if finished then some report.exitCode else none
    finishedAt := if finished && 0 < report.finishedAtUnixNano then some report.finishedAtUnixNano
      else none }

/-- The store as far as a report was carried out, and how it ended. -/
abbrev Outcome := DB × Except ReportError Unit

/-- A write of the store, and what follows it; a refused one ends the report. -/
def andThenOn (db : DB) (write : Except ApiError DB) (next : DB → Outcome) : Outcome :=
  match write with
  | .ok db' => next db'
  | .error e => (db, .error (.refused e))

/-- Drops the node's finalizer once the workload is gone, and erases the object when nothing else
holds it. -/
def releaseTeardown (chain : Chain) (now : Time) (db : DB) (ns name : String) (app : Application)
    (phase : String) : Outcome :=
  if phase ≠ appPhaseTerminated || !app.deleting then (db, .ok ())
  else
    let kept := app.metadata.finalizers.filter (· ≠ finalizerNodeTeardown)
    if kept.length = app.metadata.finalizers.length then (db, .ok ())
    else
      let app := { app with metadata := { app.metadata with finalizers := kept } }
      andThenOn db (update (k := .application) chain none db db app.metadata.ns app.metadata.name app)
        fun db =>
          if kept.length > 0 then (db, .ok ())
          else andThenOn db (delete chain none now db db .application ns name false) fun db =>
            (db, .ok ())

/-- Stores what a node reports about an application placed on it. -/
def applyAppStatus (chain : Chain) (now : Time) (db : DB) (node : String) (report : AppStatus) :
    Outcome :=
  match db.get .application report.ns report.name with
  | none => (db, .ok ())
  | some app =>
    let app : Application := app
    if app.spec.placement.nodeName ≠ node then
      (db, .error (.pinnedElsewhere ("reported application " ++ report.ns ++ "/" ++ report.name ++
        " is pinned to " ++ quote app.spec.placement.nodeName ++ ", not the reporting node " ++
        quote node)))
    else
      let app := { app with status := statusOf app report }
      andThenOn db (updateSubresource (k := .application) chain none db db app.metadata.ns app) fun db =>
        releaseTeardown chain now db report.ns report.name app report.phase

/-! ## What the chain makes of the control plane's own writes of an application -/

section

variable {d : Deployment} {db : DB} {a : Attributes .application}

/-- Five plugins judge an application that no client sends. -/
theorem defaultChain_validate_iff :
    (∀ plugin ∈ defaultChain d, plugin.validate .application ⟨none, db⟩ a = .ok ()) ↔
      UidAllocation.plugin.validate .application ⟨none, db⟩ a = .ok () ∧
      policyEnforcement.validate .application ⟨none, db⟩ a = .ok () ∧
      (appPolicy d.render d.routedNetwork).validate .application ⟨none, db⟩ a = .ok () ∧
      referenceCheck.validate .application ⟨none, db⟩ a = .ok () ∧
      (capacityCheck d.render).validate .application ⟨none, db⟩ a = .ok () := by
  have rules : Rbac.rbacRules.validate .application ⟨none, db⟩ a = .ok () := by
    simp only [Rbac.rbacRules, Rbac.rulesOf]
    split <;> rfl
  have kids : childOwnership.validate .application ⟨none, db⟩ a = .ok () := by
    simp [childOwnership, clientWrite]
  have fins : finalizerOwnership.validate .application ⟨none, db⟩ a = .ok () := by
    simp only [finalizerOwnership, Option.isNone_none, Bool.or_true, if_true]
  simp only [defaultChain, List.forall_mem_cons, List.not_mem_nil, false_implies, implies_true,
    and_true, rules, kids, fins, true_and]
  constructor
  · rintro ⟨-, -, -, -, allocator, -, floor, p, -, -, -, -, refs, capacity⟩
    exact ⟨allocator, floor, p, refs, capacity⟩
  rintro ⟨allocator, floor, p, refs, capacity⟩
  exact ⟨rfl, rfl, rfl, rfl, allocator, rfl, floor, p, rfl, rfl, rfl, rfl, refs, capacity⟩

/-- The chain does not rewrite an application that has its ids and is on its way out, or of which
only the status is written. -/
theorem defaultChain_admitPass_fixed (ids : HasIDs (Application.spec a.object))
    (settled : a.isSubresource = true ∨ (Application.deleting a.object = true ∧
      UidAllocation.assignWorkloadID db a.object = .ok a.object)) :
    Chain.admitPass ⟨none, db⟩ (defaultChain d) a = .ok a := by
  have kids : childOwnership.admitPass .application ⟨none, db⟩ a = .ok a.object := by
    simp [childOwnership, clientWrite]
  have fins : finalizerOwnership.admitPass .application ⟨none, db⟩ a = .ok a.object := by
    simp only [finalizerOwnership]
    split
    · rfl
    rename_i whole
    rcases settled with nested | ⟨deleting, -⟩
    · simp [nested] at whole
    · simp [hold_deleting deleting]
  have allocator : UidAllocation.plugin.admitPass .application ⟨none, db⟩ a = .ok a.object := by
    simp only [UidAllocation.plugin, UidAllocation.admitPass]
    split
    · rfl
    rename_i whole
    rcases settled with nested | ⟨-, assigned⟩
    · simp [nested] at whole
    · exact assigned
  have floor : policyEnforcement.admitPass .application ⟨none, db⟩ a = .ok a.object := by
    simp only [policyEnforcement]
    split
    · rfl
    · rw [floored_of_ids ids]
  refine Chain.admitPass_of_fixed ?_
  simp only [defaultChain, List.forall_mem_cons, List.not_mem_nil, false_implies, implies_true,
    and_true, kids, fins, allocator, floor, true_and]
  exact ⟨rfl, rfl, rfl, rfl, rfl, rfl, rfl, rfl, rfl, rfl, rfl, rfl, rfl⟩

theorem status_stored {app : Application} (status : ApplicationStatus) (sound : Sound d db)
    (hit : db.find .application (keyOf (k := .application) app) = some app)
    (reported : status.phase ≠ "") :
    ∃ db', updateSubresource (k := .application) (defaultChain d) none db db app.metadata.ns
        { app with status := status } = .ok db' ∧
      DB.Filed db db' .application (keyOf (k := .application) app)
        (some { app with status := status }) := by
  obtain ⟨⟨ids, floor, -⟩, -⟩ := sound.apps app (DB.mem_list.2 ⟨_, hit⟩)
  have ok : (defaultChain d).run ⟨none, db⟩
      ({ operation := .update, object := { app with status := status }, oldObject := some app
         subresource := "status" } : Attributes .application) =
           .ok { app with status := status } := by
    refine Chain.run_eq_ok_iff.2 ⟨defaultChain_admitPass_fixed ids (.inl rfl), ?_⟩
    refine defaultChain_validate_iff.2 ⟨rfl, ?_, rfl, rfl, rfl⟩
    simpa [policyEnforcement] using floor
  have carried : DB.hasStatusField (k := .application) { app with status := status } = true := by
    simp [DB.hasStatusField, reported]
  obtain ⟨db', stored⟩ := DB.updateStatus_of_present carried hit rfl
  refine ⟨db', ?_, ?_⟩
  · have checked := checkUpdate_own (k := .application) (defaultChain d) none "status"
      (o := { app with status := status }) (.inl rfl) hit
    rw [admitted, ok] at checked
    exact bind_eq_ok_iff.2 ⟨_, checked, bind_eq_ok_iff.2 ⟨_, translated_eq_ok_iff.2 stored, rfl⟩⟩
  obtain ⟨old, found, -, eq, filed, -⟩ := DB.updateStatus_spec stored
  exact filed

end

/-! ## What the release is judged on -/

/-- Neither resource is over a capacity; a capacity that was never reported is no limit. -/
def Fits (total capacity : ResourceAmounts) : Prop :=
  overResource total.cpu capacity.cpu true = false ∧
    overResource total.memory capacity.memory true = false

/-- What the chain asks again of an application on its way out, and other objects can have taken
away since it was admitted. -/
structure Releasable (db : DB) (app : Application) : Prop where
  node : nodeExists db app.spec.placement.nodeName = true
  room : app.spec.resources.effectiveRequests.isZero = true ∨
    Fits (totalRequestsOnNode db app) (nodeCapacity db app.spec.placement.nodeName)
  block : ∀ block, UidAllocation.blockOf db app.metadata.ns = .ok block → block.isZero = true ∨
    ∀ user group, app.spec.securityContext = some ⟨some user, some group⟩ →
      block.contains user = true ∧ block.contains group = true

section

variable {d : Deployment} {db : DB} {app : Application}

theorem exceeds_eq_nil_iff {render : Quantity → String} {total capacity : ResourceAmounts} :
    total.exceeds render capacity true = [] ↔ Fits total capacity := by
  unfold ResourceAmounts.exceeds Fits
  cases overResource total.cpu capacity.cpu true <;>
    cases overResource total.memory capacity.memory true <;> simp

theorem checkCapacity_eq_ok_iff {render : Quantity → String}
    (placed : app.spec.placement.nodeName ≠ "") :
    checkCapacity render db app = .ok () ↔
      app.spec.resources.effectiveRequests.isZero = true ∨
        Fits (totalRequestsOnNode db app) (nodeCapacity db app.spec.placement.nodeName) := by
  by_cases zero : app.spec.resources.effectiveRequests.isZero = true
  · simp [checkCapacity, zero]
  · simp [checkCapacity, zero, placed, exceeds_eq_nil_iff]

theorem blockOf_sound (sound : Sound d db) (name : String) :
    ∃ block, UidAllocation.blockOf db name = .ok block := by
  unfold UidAllocation.blockOf
  split
  · exact ⟨_, rfl⟩
  rename_i ns found
  obtain ⟨range, parsed⟩ := sound.blocks ns (List.mem_of_find?_eq_some found)
  simp only [parsed]
  split <;> exact ⟨_, rfl⟩

theorem checkInside_eq_ok_iff {what ns : String} {block : IDRange} {id : Int} :
    UidAllocation.checkInside what ns block (some id) = .ok () ↔ block.contains id = true := by
  simp only [UidAllocation.checkInside]
  split
  · simp_all
  · simp_all

theorem checkBlock_eq_ok_iff {block : IDRange} (ids : HasIDs app.spec)
    (held : UidAllocation.blockOf db app.metadata.ns = .ok block) :
    UidAllocation.checkBlock db app = .ok () ↔ block.isZero = true ∨
      ∀ user group, app.spec.securityContext = some ⟨some user, some group⟩ →
        block.contains user = true ∧ block.contains group = true := by
  obtain ⟨user, group, context⟩ := ids
  by_cases zero : block.isZero = true
  · simp [UidAllocation.checkBlock, held, zero]
  simp only [UidAllocation.checkBlock, held, zero, Bool.false_eq_true, if_false, context, false_or,
    Option.some.injEq, SecurityContext.mk.injEq]
  rw [bind_eq_ok_iff]
  constructor
  · rintro ⟨_, userInside, groupInside⟩ user' group' ⟨rfl, rfl⟩
    exact ⟨checkInside_eq_ok_iff.1 userInside, checkInside_eq_ok_iff.1 groupInside⟩
  intro inside
  obtain ⟨userInside, groupInside⟩ := inside user group ⟨rfl, rfl⟩
  exact ⟨(), checkInside_eq_ok_iff.2 userInside, checkInside_eq_ok_iff.2 groupInside⟩

theorem assignWorkloadID_fixed (sound : Sound d db) (ids : HasIDs app.spec) :
    UidAllocation.assignWorkloadID db app = .ok app := by
  obtain ⟨block, held⟩ := blockOf_sound sound app.metadata.ns
  obtain ⟨user, group, context⟩ := ids
  have eq : UidAllocation.withSecurityContext app ⟨some user, some group⟩ = app := by
    rw [UidAllocation.withSecurityContext, ← context]
  simp only [UidAllocation.assignWorkloadID, held, context, Option.getD_some, Option.some_or, eq,
    ite_self]

/-- The rules about references, for an application that is admitted but for its node. -/
theorem referenceCheck_eq_ok_iff {old : Application}
    (admitted : AdmittedTo d db (k := .application) app)
    (placed : app.spec.placement.nodeName ≠ "") :
    referenceCheck.validate .application ⟨none, db⟩
        { operation := .update, object := app, oldObject := some old } = .ok () ↔
      nodeExists db app.spec.placement.nodeName = true := by
  obtain ⟨-, inNs, inService, secrets, exclusive⟩ := admitted
  have nodeRule : checkNodeExists db app = .ok () ↔
      nodeExists db app.spec.placement.nodeName = true := by
    simp [checkNodeExists_eq_ok_iff, placed]
  simp only [referenceCheck, Attributes.isSubresource, ne_eq, not_true_eq_false, decide_false,
    Bool.false_eq_true, if_false, checkAll_eq_ok_iff, referenceRules, List.forall_mem_cons,
    List.not_mem_nil, false_implies, implies_true, and_true]
  constructor
  · rintro ⟨-, -, n, -⟩
    exact nodeRule.1 n
  intro n
  exact ⟨inNs, rfl, nodeRule.2 n, rfl, exclusive, secrets, rfl, inService, rfl⟩

/-- **The chain lets a departing application through exactly when it is releasable.** -/
theorem release_run_iff (old : Application) (sound : Sound d db)
    (admitted : AdmittedTo d db (k := .application) app) (deleting : app.deleting = true)
    (placed : app.spec.placement.nodeName ≠ "") (object : Application) :
    (defaultChain d).run ⟨none, db⟩
        ({ operation := .update, object := app, oldObject := some old } : Attributes .application) =
          .ok object ↔
      object = app ∧ Releasable db app := by
  have ids := admitted.1.1
  have floor := admitted.1.2.1
  have p := admitted.1.2.2
  have fixed : Chain.admitPass ⟨none, db⟩ (defaultChain d)
      ({ operation := .update, object := app, oldObject := some old } : Attributes .application) =
        .ok { operation := .update, object := app, oldObject := some old } :=
    defaultChain_admitPass_fixed ids (.inr ⟨deleting, assignWorkloadID_fixed sound ids⟩)
  obtain ⟨block, held⟩ := blockOf_sound sound app.metadata.ns
  have verdict : (∀ plugin ∈ defaultChain d, plugin.validate .application ⟨none, db⟩
      { operation := .update, object := app, oldObject := some old } = .ok ()) ↔
        Releasable db app := by
    rw [defaultChain_validate_iff]
    constructor
    · rintro ⟨allocator, -, -, refs, capacity⟩
      refine ⟨(referenceCheck_eq_ok_iff admitted placed).1 refs,
        (checkCapacity_eq_ok_iff placed).1 capacity, ?_⟩
      intro block' held'
      rw [held] at held'
      cases held'
      exact (checkBlock_eq_ok_iff ids held).1 allocator
    rintro ⟨n, room, inside⟩
    exact ⟨(checkBlock_eq_ok_iff ids held).2 (inside block held),
      by simpa [policyEnforcement] using floor,
      by simpa [appPolicy, Attributes.isSubresource] using p,
      (referenceCheck_eq_ok_iff admitted placed).2 n, (checkCapacity_eq_ok_iff placed).2 room⟩
  rw [Chain.run_eq_ok_iff, fixed]
  constructor
  · rintro ⟨eq, ok⟩
    simp only [Except.ok.injEq, Attributes.mk.injEq, true_and, and_true] at eq
    obtain rfl := eq
    exact ⟨rfl, verdict.1 ok⟩
  rintro ⟨rfl, releasable⟩
  exact ⟨rfl, verdict.2 releasable⟩

end

/-! ## A status report leaves the judgement as it was -/

section

variable {db db' : DB} {app app' out : Application}

/-- The applications whose requests count against the node of `app`, but for itself. -/
def counted (db : DB) (app : Application) : List Application :=
  (db.list .application).filter fun other =>
    !((other.metadata.ns = app.metadata.ns ∧ other.metadata.name = app.metadata.name) ∨
      other.spec.placement.nodeName ≠ app.spec.placement.nodeName ∨ other.finished)

theorem totalRequestsOnNode_eq (db : DB) (app : Application) :
    totalRequestsOnNode db app = (counted db app).foldl
      (fun total other => total.add other.spec.resources.effectiveRequests)
      app.spec.resources.effectiveRequests := by
  rw [totalRequestsOnNode, counted]
  generalize app.spec.resources.effectiveRequests = start
  induction db.list .application generalizing start with
  | nil => rfl
  | cons other rest ih =>
    rw [List.foldl_cons, List.filter_cons]
    by_cases skipped : (other.metadata.ns = app.metadata.ns ∧
      other.metadata.name = app.metadata.name) ∨
        other.spec.placement.nodeName ≠ app.spec.placement.nodeName ∨ other.finished = true
    · simp only [skipped, if_true, decide_true, Bool.not_true, Bool.false_eq_true, if_false]
      exact ih start
    simp only [skipped, if_false, decide_false, Bool.not_false, if_true, List.foldl_cons]
    exact ih _

variable (filed : db.WellFiled) (filed' : db'.WellFiled)
  (step : DB.Filed db db' .application (keyOf (k := .application) app) (some out))
  (outNs : out.metadata.ns = app.metadata.ns) (outName : out.metadata.name = app.metadata.name)
  (ns : app'.metadata.ns = app.metadata.ns) (name : app'.metadata.name = app.metadata.name)
  (spec : app'.spec = app.spec)

include filed filed' step outNs outName ns name spec

/-- Rewriting an application does not change what the others ask for. -/
theorem totalRequestsOnNode_of_written :
    totalRequestsOnNode db' app' = totalRequestsOnNode db app := by
  have member_iff : ∀ other, other ∈ counted db' app' ↔ other ∈ counted db app := by
    intro other
    simp only [counted, List.mem_filter, ns, name, spec]
    refine and_congr_left fun counts => ?_
    simp only [Bool.not_eq_true', decide_eq_false_iff_not, not_or] at counts
    constructor
    · intro listed
      rcases step.mem_list_cases listed with pre | wrote
      · exact pre
      cases wrote
      exact absurd ⟨outNs, outName⟩ counts.1
    intro listed
    obtain ⟨key, hit⟩ := DB.mem_list.1 listed
    refine DB.mem_list.2 ⟨key, (step.elsewhere key ?_).trans hit⟩
    rintro rfl
    obtain ⟨keyEq, known⟩ := filed .application _ other hit
    exact counts.1 ((recordKey_inj_of_slashFree known.ns known.name keyEq).imp
      Eq.symm Eq.symm)
  have permuted : (counted db' app').Perm (counted db app) :=
    (List.perm_ext_iff_of_nodup ((filed'.nodup .application).filter _)
      ((filed.nodup .application).filter _)).2 member_iff
  rw [totalRequestsOnNode_eq, totalRequestsOnNode_eq, spec]
  refine permuted.foldl_eq' ?_ _
  intro first _ second _ total
  simp only [ResourceAmounts.add, ResourceAmounts.mk.injEq]
  exact ⟨Int.add_right_comm _ _ _, Int.add_right_comm _ _ _⟩

theorem releasable_of_written : Releasable db' app' ↔ Releasable db app := by
  have nodes : db'.list .node = db.list .node := step.list_otherKinds (by decide)
  have namespaces : db'.list .ns = db.list .ns := step.list_otherKinds (by decide)
  have total := totalRequestsOnNode_of_written filed filed' step outNs outName ns name spec
  have n : nodeExists db' app'.spec.placement.nodeName =
      nodeExists db app.spec.placement.nodeName := by
    simp only [nodeExists, nodes, spec]
  have capacity : nodeCapacity db' app'.spec.placement.nodeName =
      nodeCapacity db app.spec.placement.nodeName := by
    simp only [nodeCapacity, nodes, spec]
  have block : UidAllocation.blockOf db' app'.metadata.ns =
      UidAllocation.blockOf db app.metadata.ns := by
    simp only [UidAllocation.blockOf, namespaces, ns]
  constructor
  · rintro ⟨onNode, room, inside⟩
    rw [n] at onNode
    rw [total, capacity, spec] at room
    rw [block, spec] at inside
    exact ⟨onNode, room, inside⟩
  rintro ⟨onNode, room, inside⟩
  rw [← n] at onNode
  rw [← total, ← capacity, ← spec] at room
  rw [← block, ← spec] at inside
  exact ⟨onNode, room, inside⟩

end

/-! ## Completion -/

section

variable {d : Deployment} {db : DB} {app : Application}

theorem delete_free (d : Deployment) (now : Time) {ns name : String}
    (hit : db.get .application ns name = some app) (free : app.metadata.finalizers = []) :
    ∃ db', delete (defaultChain d) none now db db .application ns name false = .ok db' ∧
      db'.get .application ns name = none := by
  obtain ⟨db', erased⟩ := DB.delete_of_present hit
  refine ⟨db', ?_, (DB.delete_spec erased).2.1.here⟩
  have ok : (defaultChain d).validate ⟨none, db⟩
      ({ operation := .delete, object := app, oldObject := some app } : Attributes .application) =
        .ok () := by
    refine Chain.validate_eq_ok_iff.2 (defaultChain_validate_iff.2 ⟨rfl, rfl, rfl, ?_, rfl⟩)
    simp [referenceCheck, Attributes.isSubresource, checkAll_eq_ok_iff, referenceRules,
      namespaceExistsRule, namespaceProtectionRule, nodeExistsRule, pvProtectionRule,
        pvExclusiveRule,
      secretRefRule, secretProtectionRule, serviceRefRule, serviceProtectionRule, notDelete]
  have unheld : markDeleting (k := .application) now db app false = .ok none := by
    simp only [markDeleting, metaOf, free, if_true]
  simp only [delete, hit, found, ok, unheld, erased, translated, require, bind, Except.bind,
    Bool.not_false, Bool.true_or, if_true]

/-- The release of an application whose status has been stored. -/
theorem releaseTeardown_erases_iff (now : Time) (sound : Sound d db) {ns name : String}
    (hit : db.get .application ns name = some app) (deleting : app.deleting = true)
    (only : app.metadata.finalizers = [finalizerNodeTeardown])
    (placed : app.spec.placement.nodeName ≠ "") :
    (releaseTeardown (defaultChain d) now db ns name app appPhaseTerminated).1.get .application ns name =
        none ↔ Releasable db app := by
  have key := (sound.filed .application _ app hit).1
  let free : Application := { app with metadata := { app.metadata with finalizers := [] } }
  have alike : Alike (k := .application) app free := ⟨rfl, rfl, rfl, rfl⟩
  have admittedFree : AdmittedTo d db (k := .application) free :=
    AdmittedTo.alike (sound.apps app (DB.mem_list.2 ⟨_, hit⟩)) alike
  have presentFree : db.find .application (keyOf (k := .application) free) = some app := by
    rw [DB.get, key] at hit
    exact hit
  have sameJudgement : Releasable db free ↔ Releasable db app :=
    ⟨fun free => ⟨free.node, free.room, free.block⟩, fun app => ⟨app.node, app.room, app.block⟩⟩
  have released : releaseTeardown (defaultChain d) now db ns name app appPhaseTerminated =
      andThenOn db (update (k := .application) (defaultChain d) none db db free.metadata.ns
        free.metadata.name free) fun db =>
          andThenOn db (delete (defaultChain d) none now db db .application ns name false) fun db =>
            (db, .ok ()) := by
    simp [releaseTeardown, deleting, only, free]
  have checked := checkUpdate_own (k := .application) (defaultChain d) none "" (o := free)
    (.inr rfl) presentFree
  rw [released]
  constructor
  · intro gone
    by_contra stuck
    -- The chain refuses, so the store is as the report left it.
    have refused : ∀ db', update (k := .application) (defaultChain d) none db db free.metadata.ns
        free.metadata.name free ≠ .ok db' := by
      intro db' done
      obtain ⟨object, passed, -⟩ := bind_eq_ok_iff.1 done
      have accepted := translated_eq_ok_iff.1 (checked.symm.trans passed)
      exact stuck (sameJudgement.1
        ((release_run_iff app sound admittedFree deleting placed object).1 accepted).2)
    cases res : update (k := .application) (defaultChain d) none db db free.metadata.ns
        free.metadata.name free with
    | ok db' => exact refused db' res
    | error e =>
      rw [res, andThenOn, hit] at gone
      cases gone
  intro releasable
  have accepted := (release_run_iff app sound admittedFree deleting placed free).2
    ⟨rfl, sameJudgement.2 releasable⟩
  obtain ⟨db', stored⟩ := DB.update_of_present presentFree rfl
  have updated : update (k := .application) (defaultChain d) none db db free.metadata.ns
      free.metadata.name free = .ok db' :=
    bind_eq_ok_iff.2 ⟨free, checked.trans (translated_eq_ok_iff.2 accepted),
      bind_eq_ok_iff.2 ⟨_, translated_eq_ok_iff.2 stored, rfl⟩⟩
  have presentAfter : db'.get .application ns name =
      some (db.mergeCore (k := .application) free app) := by
    obtain ⟨-, -, -, -, filed, -⟩ := DB.update_spec stored
    rw [DB.get, key]
    exact filed.here
  obtain ⟨erased, deleted, gone⟩ := delete_free d now presentAfter rfl
  simp only [updated, andThenOn, deleted]
  exact gone

/-- **A confirmed teardown completes exactly when the application is releasable.** -/
theorem teardown_completes_iff (d : Deployment) {db : DB}
    (reachable : Transitions.Reachable (serving d) (fun _ _ => true) {} db) (now : Time)
    (report : AppStatus) {app : Application}
    (present : db.get .application report.ns report.name = some app)
    (deleting : app.deleting = true) (only : app.metadata.finalizers = [finalizerNodeTeardown])
    (placed : app.spec.placement.nodeName ≠ "") (confirmed : report.phase = appPhaseTerminated) :
    (applyAppStatus (defaultChain d) now db app.spec.placement.nodeName report).1.get .application
        report.ns report.name = none ↔ Releasable db app := by
  obtain ⟨sound, -⟩ :=
    @holds_of_reachable d _ (fun _ => True) trivial (fun _ _ _ _ _ => trivial) db reachable
  have key := (sound.filed .application _ app present).1
  have presentKey : db.find .application (keyOf (k := .application) app) = some app := by
    rw [DB.get, key] at present
    exact present
  obtain ⟨reported, stored, filed⟩ := status_stored (statusOf app report) sound presentKey
    (by simp [statusOf, confirmed, appPhaseTerminated])
  have effect : Effect (defaultChain d) none now db (.updateSubresource .application
      ⟨app.metadata.ns, fun clusterWide => absurd clusterWide (by decide)⟩
      { app with status := statusOf app report }) reported :=
    updateSubresource_effect stored
  have soundReported : Sound d reported := sound.of_effect effect
  have presentReported : reported.get .application report.ns report.name =
      some { app with status := statusOf app report } := by
    rw [DB.get, key]
    exact filed.here
  have applied : applyAppStatus (defaultChain d) now db app.spec.placement.nodeName report =
      releaseTeardown (defaultChain d) now reported report.ns report.name
        { app with status := statusOf app report } appPhaseTerminated := by
    simp only [applyAppStatus, present, ne_eq, not_true_eq_false, if_false, stored, andThenOn,
      confirmed]
  rw [applied, releaseTeardown_erases_iff now soundReported presentReported deleting only placed]
  exact releasable_of_written sound.filed soundReported.filed filed rfl rfl rfl rfl rfl

end

/-! ## A node that has shrunk -/

def fourCores : Quantity := 4000000000

def coresOf (cores : Quantity) : NodeStatus := { capacity := { cpu := cores } }

def halfNodeBody : Application :=
  { webBody with spec := { webBody.spec with resources := { requests := { cpu := 2000000000 } } } }

/-- What is asked of the service before the node reports: a namespace, a node, a workload on it,
the node's own report of its current capacity, and the deletion of the workload. -/
def requestsBefore (cores : Quantity) : List Event :=
  [⟨.client operator, 1, .create .ns (clusterScope .ns) { metadata := { name := "team" } }⟩,
    ⟨.loop, 1, .create .node (clusterScope .node)
      { metadata := { name := "n1" }, status := coresOf fourCores }⟩,
    ⟨.client operator, 1,
      .create .application (teamScope .application Kind.application_namespaced) halfNodeBody⟩,
    ⟨.loop, 1, .updateSubresource .node (clusterScope .node)
      { metadata := { name := "n1" }, status := coresOf cores }⟩,
    ⟨.client operator, 1, deleteWeb⟩]

def storeAfter (cores : Quantity) : DB :=
  (requestsBefore cores).foldl (settle (defaultChain plainDeployment)) {}

theorem storeAfter_reachable (cores : Quantity) :
    Transitions.Reachable (serving plainDeployment) (fun _ _ => true) {} (storeAfter cores) := by
  have ran : Transitions.run (serving plainDeployment) (fun _ _ => true) {} (requestsBefore cores) =
      some (storeAfter cores) := rfl
  exact .run .start ran

def webTerminated : AppStatus := { ns := "team", name := "web", phase := appPhaseTerminated }

/-- What matters about the stored workload. -/
def webState (db : DB) : Option (Bool × List String × String) :=
  (db.get .application "team" "web").map fun app : Application =>
    (app.deleting, app.metadata.finalizers, app.spec.placement.nodeName)

theorem get_of_webState {db : DB} {deleting : Bool} {fins : List String} {node : String}
    (state : webState db = some (deleting, fins, node)) :
    ∃ app : Application, db.get .application "team" "web" = some app ∧ app.deleting = deleting ∧
      app.metadata.finalizers = fins ∧ app.spec.placement.nodeName = node := by
  obtain ⟨app, hit, fields⟩ := Option.map_eq_some_iff.1 state
  simp only [Prod.mk.injEq] at fields
  exact ⟨app, hit, fields⟩

/-- **A node that has shrunk keeps its departing applications.**  The workload fitted when it was
placed; the node then reports a single processor, the workload is deleted and its node confirms
that it is gone, and the object stays. -/
theorem shrunken_node_keeps_application :
    ∃ app : Application,
      Transitions.Reachable (serving plainDeployment) (fun _ _ => true) {} (storeAfter 1000000000) ∧
      (storeAfter 1000000000).get .application "team" "web" = some app ∧ app.deleting = true ∧
      app.metadata.finalizers = [finalizerNodeTeardown] ∧ app.spec.placement.nodeName = "n1" ∧
      (applyAppStatus (defaultChain plainDeployment) 2 (storeAfter 1000000000) "n1"
        webTerminated).1.get .application "team" "web" ≠ none := by
  have state : webState (storeAfter 1000000000) = some (true, [finalizerNodeTeardown], "n1") := by
    decide +kernel
  have kept : (webState (applyAppStatus (defaultChain plainDeployment) 2 (storeAfter 1000000000) "n1"
      webTerminated).1).isSome = true := by
    decide +kernel
  obtain ⟨app, present, deleting, finalizers, node⟩ := get_of_webState state
  refine ⟨app, storeAfter_reachable _, present, deleting, finalizers, node, ?_⟩
  intro gone
  rw [webState, gone] at kept
  cases kept

/-- With the capacity it was placed under, the same workload goes. -/
theorem teardown_completes_iff_fourCores :
    ∃ app : Application, (storeAfter fourCores).get .application "team" "web" = some app ∧
      Releasable (storeAfter fourCores) app := by
  have state : webState (storeAfter fourCores) = some (true, [finalizerNodeTeardown], "n1") := by
    decide +kernel
  have gone : webState (applyAppStatus (defaultChain plainDeployment) 2 (storeAfter fourCores) "n1"
      webTerminated).1 = none := by
    decide +kernel
  obtain ⟨app, present, deleting, finalizers, node⟩ := get_of_webState state
  have placed : app.spec.placement.nodeName ≠ "" := by
    rw [node]
    decide
  refine ⟨app, present, (teardown_completes_iff plainDeployment (storeAfter_reachable fourCores) 2
    webTerminated present deleting finalizers placed rfl).1 ?_⟩
  rw [node]
  exact Option.map_eq_none_iff.1 gone

end Horchestra.Nodeserver
