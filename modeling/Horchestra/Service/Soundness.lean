import Horchestra.Service.Outcomes

/-!
# Stores the chain has let through

What the chain asks of an object when it is written stays true while other objects come and
go: an application's namespace, service, secrets and volumes are protected against deletion, a
volume cannot be made exclusive under two users, and a namespace always carries a block that can
be read.  `Sound` says that every stored object would pass those checks again, against the store
as it is now; it holds of the empty store, and `Sound.of_effect` says that every accepted request
keeps it.

What is missing from the list is what can change under a stored application: that its node exists
and has room for it, and that its ids lie inside the block its namespace carries today.
-/

namespace Horchestra.Requests

open Api Storage Admission Foundations.Checks

/-! ## What the chain asks -/

/-- What the chain asks of an object and other objects cannot take away. -/
def AdmittedTo (d : Deployment) (db : DB) : {k : Kind} → Obj k → Prop
  | .application, o =>
    let app : Application := o
    (HasIDs app.spec ∧ checkFloor app.spec = .ok () ∧
      checkAppSpec d.render d.routedNetwork app.spec = .ok ()) ∧
    checkNamespaceExists (k := .application) db app = .ok () ∧ checkServiceRef db app = .ok () ∧
      checkSecretRef db app = .ok () ∧ checkAppMountsExclusive db app = .ok ()
  | .ns, o => ∃ range, parseIDRange ((Namespace.metadata o).annValue annUIDRange) = .ok range
  | .persistentVolume, o => checkSharingStillHolds db o = .ok ()
  | _, _ => True

/-- What the chain asks before an object goes. -/
def ReleasedFrom (db : DB) : {k : Kind} → Obj k → Prop
  | .ns, o => checkNamespaceEmpty db o = .ok ()
  | .persistentVolume, o => checkPVProtection db o = .ok ()
  | .secret, o => checkSecretProtection db o = .ok ()
  | .service, o => checkServiceProtection db o = .ok ()
  | _, _ => True

section

variable {ctx : Context}

variable {a : Attributes .application} {app : Application}

theorem childOwnership_spec (done : childOwnership.admitPass .application ctx a = .ok app) :
    app.spec = Application.spec a.object := by
  obtain ⟨m, -, rfl⟩ := childOwnership_same done
  rfl

theorem finalizerOwnership_spec (done : finalizerOwnership.admitPass .application ctx a = .ok app) :
    app.spec = Application.spec a.object := by
  obtain ⟨fins, rfl⟩ := finalizerOwnership_same done
  rfl

theorem policyEnforcement_ids (wrote : a.operation ≠ .delete)
    (done : policyEnforcement.admitPass .application ctx a = .ok app) : HasIDs app.spec := by
  simp only [policyEnforcement, wrote, if_false] at done
  cases done
  exact floored_hasIDs _

/-! ## Blocks -/

/-- The namespace carries a block that can be read. -/
def HasBlock (ns : Namespace) : Prop :=
  ∃ range, parseIDRange (ns.metadata.annValue annUIDRange) = .ok range

variable {ns : Namespace}

theorem assignBlock_hasBlock {db : DB} {ns' : Namespace}
    (done : UidAllocation.assignBlock db ns = .ok ns') : HasBlock ns' := by
  by_cases unset : ns.metadata.annValue annUIDRange = ""
  · obtain ⟨i, -, parsed, -⟩ := UidAllocation.assignBlock_spec unset done
    exact ⟨_, parsed⟩
  simp only [UidAllocation.assignBlock, ne_eq, unset, not_false_eq_true, if_true] at done
  split at done
  next range parsed =>
    cases done
    exact ⟨range, parsed⟩
  · cases done

theorem finalizerOwnership_annotations {a : Attributes .ns}
    (done : finalizerOwnership.admitPass .ns ctx a = .ok ns) :
    ns.metadata.annotations = (Namespace.metadata a.object).annotations := by
  obtain ⟨fins, rfl⟩ := finalizerOwnership_same done
  rfl

end

/-! ## What an accepted write has passed -/

section

variable {d : Deployment} {k : Kind}

theorem mem_defaultChain (d : Deployment) :
    policyEnforcement ∈ defaultChain d ∧ UidAllocation.plugin ∈ defaultChain d ∧
      appPolicy d.render d.routedNetwork ∈ defaultChain d ∧ referenceCheck ∈ defaultChain d := by
  simp [defaultChain]

variable {a : Attributes k}

theorem notDelete_of_ne {op : Operation} (wrote : op ≠ .delete) : notDelete op = true := by
  simp [notDelete, wrote]

theorem admittedTo_of_run (ctx : Context) {object : Obj k} (own : a.subresource = "")
    (wrote : a.operation ≠ .delete) (done : (defaultChain d).run ctx a = .ok object) :
    AdmittedTo d ctx.db object := by
  obtain ⟨rewritten, ok⟩ := Chain.run_eq_ok_iff.1 done
  obtain ⟨floor, allocator, p, refs⟩ := mem_defaultChain d
  have guarded := notDelete_of_ne wrote
  have rule : ∀ rule ∈ referenceRules, rule.guards a.operation = true →
      rule.check k ctx.db object = .ok () := fun rule mem guards =>
    check_of_referenceCheck (ok referenceCheck refs) own mem guards
  cases k with
  | application =>
    obtain ⟨owned, held, assigned, -, -, -, floors⟩ := admitPass_application.1 rewritten
    have ids : HasIDs (Application.spec object) := policyEnforcement_ids (by exact wrote) floors
    have floorPassed := ok policyEnforcement floor
    have policyPassed := ok _ p
    simp only [policyEnforcement, wrote, if_false, forbid_eq_ok_iff] at floorPassed
    simp only [appPolicy, Attributes.isSubresource, own, wrote, decide_false, ne_eq,
      not_true_eq_false, Bool.or_self, Bool.false_eq_true, if_false, invalid_eq_ok_iff] at policyPassed
    exact ⟨⟨ids, floorPassed, policyPassed⟩,
      rule namespaceExistsRule (by simp [referenceRules]) guarded,
      rule serviceRefRule (by simp [referenceRules]) guarded,
      rule secretRefRule (by simp [referenceRules]) guarded,
      rule pvExclusiveRule (by simp [referenceRules]) guarded⟩
  | ns =>
    obtain ⟨held, -, assigns⟩ := admitPass_ns.1 rewritten
    exact assignBlock_hasBlock (by simpa [UidAllocation.plugin, UidAllocation.admitPass,
      Attributes.isSubresource, own, wrote] using assigns)
  | persistentVolume => exact rule pvExclusiveRule (by simp [referenceRules]) guarded
  | _ => trivial

theorem releasedFrom_of_validate (ctx : Context) {cur : Obj k}
    (done : (defaultChain d).validate ctx
      { operation := .delete, object := cur, oldObject := some cur } = .ok ()) :
    ReleasedFrom ctx.db cur := by
  obtain ⟨-, -, -, refs⟩ := mem_defaultChain d
  have rule : ∀ rule ∈ referenceRules, rule.guards .delete = true →
      rule.check k ctx.db cur = .ok () := fun rule mem guards =>
    check_of_referenceCheck (Chain.validate_eq_ok_iff.1 done referenceCheck refs) rfl mem guards
  cases k with
  | ns => exact rule namespaceProtectionRule (by simp [referenceRules]) rfl
  | persistentVolume => exact rule pvProtectionRule (by simp [referenceRules]) rfl
  | secret => exact rule secretProtectionRule (by simp [referenceRules]) rfl
  | service => exact rule serviceProtectionRule (by simp [referenceRules]) rfl
  | _ => trivial

theorem AdmittedTo.alike {db : DB} {o o' : Obj k} (admitted : AdmittedTo d db o) (alike : Alike o o') :
    AdmittedTo d db o' := by
  cases k with
  | application =>
    have spec := alike.app_spec
    have ns : (Application.metadata o').ns = (Application.metadata o).ns := alike.ns
    have name : (Application.metadata o').name = (Application.metadata o).name := alike.name
    obtain ⟨⟨ids, floor, p⟩, inNs, inService, secrets, exclusive⟩ := admitted
    refine ⟨⟨by rwa [spec], by rwa [spec], by rwa [spec]⟩, ?_, ?_, ?_, ?_⟩
    · rw [checkNamespaceExists_eq_ok_iff] at inNs ⊢
      rwa [alike.ns]
    · rw [checkServiceRef_eq_ok_iff] at inService ⊢
      rwa [spec, ns]
    · rw [checkSecretRef_eq_ok_iff] at secrets ⊢
      rwa [ns, Application.requiredSecretRefs, Application.secretRefsWith, spec]
    · rw [checkAppMountsExclusive_eq_ok_iff] at exclusive ⊢
      simpa only [mountsPV, spec, ns, name] using exclusive
  | ns =>
    obtain ⟨range, parsed⟩ := admitted
    refine ⟨range, ?_⟩
    have annotations : (Namespace.metadata o').annotations = (Namespace.metadata o).annotations :=
      alike.annotations
    rwa [ObjectMeta.annValue, annotations]
  | persistentVolume =>
    have ns : (PersistentVolume.metadata o').ns = (PersistentVolume.metadata o).ns := alike.ns
    have name : (PersistentVolume.metadata o').name = (PersistentVolume.metadata o).name := alike.name
    have holds : checkSharingStillHolds db o = .ok () := admitted
    simp only [checkSharingStillHolds, require_eq_ok_iff] at holds
    simpa only [AdmittedTo, checkSharingStillHolds, require_eq_ok_iff, alike.pv_spec, ns, name]
      using holds
  | _ => trivial

end

/-! ## What an accepted request changes -/

/-- One record of the store changes: it becomes an object that the chain has just let through, or
one that differs from the record in bookkeeping only; or it goes, and the chain has let it go. -/
inductive Change (d : Deployment) (db db' : DB) : Prop where
  | unchanged (same : db' = db)
  | written {k : Kind} {key : String} {like out : Obj k} (filed : DB.Filed db db' k key (some out))
      (own : key = keyOf out) (alike : Alike like out)
      (admitted : db.find k key = some like ∨ AdmittedTo d db like)
  | erased {k : Kind} {key : String} {cur : Obj k} (filed : DB.Filed db db' k key none)
      (present : db.find k key = some cur) (released : ReleasedFrom db cur)

variable {d : Deployment} {db : DB}

theorem Effect.change {who : Option Identity} {now : Time} {db' : DB} {request : Request}
    (filed : db.WellFiled) (effect : Effect (defaultChain d) who now db request db') :
    Change d db db' := by
  cases outcome_of_effect (defaultChain_keepsIdentity d) filed effect with
  | unchanged same => exact .unchanged same
  | erased hit free ok step =>
    exact .erased step hit (releasedFrom_of_validate ⟨who, db⟩ ok)
  | touched hit step same => exact .written step rfl same.toAlike (.inl hit)
  | created isCreate bound ok gone keyEq step stores =>
    exact .written step rfl stores.toAlike
      (.inr (admittedTo_of_run ⟨who, db⟩ rfl (by simp) ok))
  | replaced sent ok hit keyEq current step stores =>
    exact .written step rfl stores.toAlike
      (.inr (admittedTo_of_run ⟨who, db⟩ rfl (by simp) ok))

/-! ## Sound stores -/

def Named (db : DB) : Prop :=
  ∀ (k : Kind) (key : String) (o : Obj k), db.find k key = some o → (metaOf o).name ≠ ""

/-- Every stored application and namespace would pass again. -/
structure Sound (d : Deployment) (db : DB) : Prop where
  filed : db.WellFiled
  named : Named db
  apps : ∀ app ∈ db.list .application, AdmittedTo d db (k := .application) app
  blocks : ∀ ns ∈ db.list .ns, HasBlock ns

section

variable {d : Deployment} {db db' : DB} {k : Kind} {key : String}

variable {out cur : Obj k} {k' : Kind} {o : Obj k'}

theorem survives_write (wellFiled : db.WellFiled) (filed : DB.Filed db db' k key (some out))
    (own : key = keyOf out) (mem : o ∈ db.list k') :
    ∃ o' ∈ db'.list k', (metaOf o').ns = (metaOf o).ns ∧ (metaOf o').name = (metaOf o).name := by
  obtain ⟨key', hit⟩ := DB.mem_list.1 mem
  obtain ⟨rfl, known⟩ := wellFiled k' _ o hit
  by_cases kindEq : k' = k
  · subst kindEq
    by_cases keyEq : keyOf o = key
    · refine ⟨out, DB.mem_list.2 ⟨key, filed.here⟩, ?_⟩
      exact recordKey_inj_of_slashFree known.ns known.name (own.symm.trans keyEq.symm)
    · exact ⟨o, DB.mem_list.2 ⟨_, (filed.elsewhere _ keyEq).trans hit⟩, rfl, rfl⟩
  · exact ⟨o, DB.mem_list.2 ⟨_, (filed.otherKinds _ _ kindEq).trans hit⟩, rfl, rfl⟩

theorem survives_erase (wellFiled : db.WellFiled) (filed : DB.Filed db db' k key none)
    (hit : db.find k key = some cur) (mem : o ∈ db.list k')
    (ne : k' = k → (metaOf o).ns = (metaOf cur).ns → (metaOf o).name ≠ (metaOf cur).name) :
    o ∈ db'.list k' := by
  obtain ⟨key', hit'⟩ := DB.mem_list.1 mem
  obtain ⟨rfl, known⟩ := wellFiled k' _ o hit'
  obtain ⟨rfl, identifiedCur⟩ := wellFiled k _ cur hit
  refine DB.mem_list.2 ⟨keyOf o, ?_⟩
  by_cases kindEq : k' = k
  · subst kindEq
    by_cases keyEq : keyOf o = keyOf cur
    · obtain ⟨nsEq, nameEq⟩ := recordKey_inj known.ns identifiedCur.ns keyEq
      exact absurd nameEq (ne rfl nsEq)
    · exact (filed.elsewhere _ keyEq).trans hit'
  · exact (filed.otherKinds _ _ kindEq).trans hit'

theorem sharedPV_congr (eq : db'.list .persistentVolume = db.list .persistentVolume) :
    sharedPV db' = sharedPV db := by
  funext ns name
  simp only [sharedPV, eq]

variable {app : Application}

/-- Writing an application that passed, or one that differs in bookkeeping only, leaves the
volumes of every application exclusive. -/
theorem exclusive_of_app_written {like out : Application}
    (filed : DB.Filed db db' .application key (some out))
    (alike : Alike (k := .application) like out)
    (admitted : AdmittedTo d db (k := .application) like) (mem : app ∈ db'.list .application)
    (exclusive : checkAppMountsExclusive db app = .ok ()) :
    checkAppMountsExclusive db' app = .ok () := by
  have vols : db'.list .persistentVolume = db.list .persistentVolume :=
    filed.list_otherKinds (by decide)
  rw [checkAppMountsExclusive_eq_ok_iff] at exclusive ⊢
  intro name mounts
  rw [sharedPV_congr vols]
  by_cases shared : sharedPV db app.metadata.ns name = true
  · exact .inl shared
  refine .inr ?_
  have alone := (exclusive name mounts).resolve_left shared
  intro other member' nsEq ne
  rcases filed.mem_list_cases member' with pre | wrote
  · exact alone other pre nsEq ne
  cases wrote
  -- The written application cannot mount what `app` holds alone: its own check saw `app`.
  by_contra mountsOut
  rcases filed.mem_list_cases mem with appBefore | appWritten
  · have likeNs : (Application.metadata out).ns = like.metadata.ns := alike.ns
    have likeName : (Application.metadata out).name = like.metadata.name := alike.name
    have mountsLike : mountsPV like name = true := by
      simpa only [mountsPV, alike.app_spec, likeName, Bool.not_eq_false] using mountsOut
    obtain ⟨-, -, -, -, likeExclusive⟩ := admitted
    rw [checkAppMountsExclusive_eq_ok_iff] at likeExclusive
    rw [likeNs] at nsEq
    rw [likeName] at ne
    rcases likeExclusive name mountsLike with likeShared | likeAlone
    · exact shared (nsEq ▸ likeShared)
    rw [likeAlone app appBefore nsEq.symm (Ne.symm ne)] at mounts
    cases mounts
  cases appWritten
  exact ne rfl

theorem exclusive_of_pv_written {like out : PersistentVolume} (sound : Sound d db)
    (filed : DB.Filed db db' .persistentVolume key (some out))
    (own : key = keyOf (k := .persistentVolume) out)
    (alike : Alike (k := .persistentVolume) like out)
    (admitted : db.find .persistentVolume key = some like ∨ checkSharingStillHolds db like = .ok ())
    (mem : app ∈ db.list .application) (exclusive : checkAppMountsExclusive db app = .ok ()) :
    checkAppMountsExclusive db' app = .ok () := by
  have apps : db'.list .application = db.list .application :=
    filed.list_otherKinds (by decide)
  rw [checkAppMountsExclusive_eq_ok_iff] at exclusive ⊢
  rw [apps]
  intro name mounts
  rcases exclusive name mounts with shared | alone
  swap
  · exact .inr alone
  obtain ⟨pv, listed, pvNs, pvName, pvShared⟩ := sharedPV_iff.1 shared
  obtain ⟨pvKey, hit⟩ := DB.mem_list.1 listed
  by_cases keyEq : pvKey = key
  · -- The volume itself is written over.
    subst keyEq
    obtain ⟨pvOwn, known⟩ := sound.filed _ _ pv hit
    obtain ⟨outNs, outName⟩ := recordKey_inj_of_slashFree known.ns known.name
      (own.symm.trans pvOwn)
    have outNs' : out.metadata.ns = app.metadata.ns := Eq.trans outNs pvNs
    have outName' : out.metadata.name = name := Eq.trans outName pvName
    by_cases outShared : out.spec.shared = true
    · exact .inl (sharedPV_iff.2 ⟨out, DB.mem_list.2 ⟨_, filed.here⟩, outNs', outName', outShared⟩)
    refine .inr ?_
    have likeUnshared : like.spec.shared = false := by
      rw [← alike.pv_spec]
      simpa using outShared
    have likeNs : out.metadata.ns = like.metadata.ns := alike.ns
    have likeName : out.metadata.name = like.metadata.name := alike.name
    rcases admitted with found | holds
    · cases hit.symm.trans found
      rw [pvShared] at likeUnshared
      cases likeUnshared
    intro other otherMember nsEq ne
    by_contra mountsOther
    obtain ⟨appKey, appPresent⟩ := DB.mem_list.1 mem
    obtain ⟨otherKey, otherPresent⟩ := DB.mem_list.1 otherMember
    have likeNs' : like.metadata.ns = app.metadata.ns := likeNs.symm.trans outNs'
    have likeName' : like.metadata.name = name := likeName.symm.trans outName'
    exact ne (one_user_of_checkSharingStillHolds holds likeUnshared otherMember mem
      (nsEq.trans likeNs'.symm) likeNs'.symm (sound.named .application _ other otherPresent)
      (sound.named .application _ app appPresent) (by simpa [likeName'] using mountsOther)
      (by rwa [likeName']))
  refine .inl (sharedPV_iff.2 ⟨pv, ?_, pvNs, pvName, pvShared⟩)
  exact DB.mem_list.2 ⟨pvKey, (filed.elsewhere _ keyEq).trans hit⟩

/-- What an application names survives a write, if its volumes stay exclusive. -/
theorem admittedTo_of_written (wellFiled : db.WellFiled)
    (filed : DB.Filed db db' k key (some out)) (own : key = keyOf out)
    (admitted : AdmittedTo d db (k := .application) app)
    (exclusive : checkAppMountsExclusive db' app = .ok ()) :
    AdmittedTo d db' (k := .application) app := by
  obtain ⟨spec, inNs, inService, secrets, -⟩ := admitted
  refine ⟨spec, ?_, ?_, ?_, exclusive⟩
  · rw [checkNamespaceExists_eq_ok_iff] at inNs ⊢
    rcases inNs with none | ⟨ns, listed, named⟩
    · exact .inl none
    obtain ⟨ns', listed', -, nameEq⟩ := survives_write wellFiled filed own listed
    exact .inr ⟨ns', listed', Eq.trans nameEq named⟩
  · rw [checkServiceRef_eq_ok_iff] at inService ⊢
    rcases inService with none | ⟨svc, listed, nsEq, named⟩
    · exact .inl none
    obtain ⟨svc', listed', nsEq', nameEq⟩ := survives_write wellFiled filed own listed
    exact .inr ⟨svc', listed', Eq.trans nsEq' nsEq, Eq.trans nameEq named⟩
  · rw [checkSecretRef_eq_ok_iff] at secrets ⊢
    intro name required
    obtain ⟨sec, listed, nsEq, named⟩ := secrets name required
    obtain ⟨sec', listed', nsEq', nameEq⟩ := survives_write wellFiled filed own listed
    exact ⟨sec', listed', Eq.trans nsEq' nsEq, Eq.trans nameEq named⟩

theorem mem_secretRefs_of_required {name : String} (required : name ∈ app.requiredSecretRefs) :
    name ∈ app.secretRefs := by
  simp only [Application.requiredSecretRefs, Application.secretRefs, Application.secretRefsWith,
    List.mem_insertionSort, List.mem_dedup, List.mem_append, List.mem_filterMap] at required ⊢
  rcases required with ⟨m, mem, named⟩ | ⟨v, mem, named⟩
  · refine .inl ⟨m, mem, ?_⟩
    split at named
    next used =>
      simp only [Bool.and_eq_true, Bool.false_or] at used
      simp [used.1.1, used.1.2] at named ⊢
      exact named
    · cases named
  refine .inr ⟨v, mem, ?_⟩
  split at named
  next ref found =>
    split at named
    next used =>
      simp only [Bool.and_eq_true, Bool.false_or] at used
      simp [used.1] at named ⊢
      exact named
    · cases named
  · cases named

theorem admittedTo_of_erased (sound : Sound d db) (filed : DB.Filed db db' k key none)
    (hit : db.find k key = some cur) (released : ReleasedFrom db cur)
    (mem : app ∈ db.list .application) : AdmittedTo d db' (k := .application) app := by
  obtain ⟨spec, inNs, inService, secrets, exclusive⟩ := sound.apps app mem
  have stays := fun {k' : Kind} {o : Obj k'} (listed : o ∈ db.list k') =>
    survives_erase sound.filed filed hit listed
  refine ⟨spec, ?_, ?_, ?_, ?_⟩
  · rw [checkNamespaceExists_eq_ok_iff] at inNs ⊢
    rcases inNs with none | ⟨ns, listed, named⟩
    · exact .inl none
    refine .inr ⟨ns, stays listed ?_, named⟩
    rintro rfl - nameEq
    have empty := checkNamespaceEmpty_eq_ok_iff.1 released .application (by decide) app mem
    exact empty (named.symm.trans nameEq)
  · rw [checkServiceRef_eq_ok_iff] at inService ⊢
    rcases inService with none | ⟨svc, listed, nsEq, named⟩
    · exact .inl none
    refine .inr ⟨svc, stays listed ?_, nsEq, named⟩
    rintro rfl curNs nameEq
    exact checkServiceProtection_eq_ok_iff.1 released app mem (nsEq.symm.trans curNs)
      (named.symm.trans nameEq)
  · rw [checkSecretRef_eq_ok_iff] at secrets ⊢
    intro name required
    obtain ⟨sec, listed, nsEq, named⟩ := secrets name required
    refine ⟨sec, stays listed ?_, nsEq, named⟩
    rintro rfl curNs nameEq
    have unused := checkSecretProtection_eq_ok_iff.1 released app mem (nsEq.symm.trans curNs)
    rw [← named] at required
    exact unused (nameEq ▸ mem_secretRefs_of_required required)
  · rw [checkAppMountsExclusive_eq_ok_iff] at exclusive ⊢
    intro name mounts
    rcases exclusive name mounts with shared | alone
    · obtain ⟨pv, listed, pvNs, pvName, pvShared⟩ := sharedPV_iff.1 shared
      refine .inl (sharedPV_iff.2 ⟨pv, stays listed ?_, pvNs, pvName, pvShared⟩)
      rintro rfl curNs nameEq
      obtain ⟨appKey, appPresent⟩ := DB.mem_list.1 mem
      have unused := checkPVProtection_eq_ok_iff.1 released app mem (pvNs.symm.trans curNs)
        (sound.named .application _ app appPresent)
      have curName : (PersistentVolume.metadata cur).name = name := nameEq.symm.trans pvName
      rw [curName, mounts] at unused
      cases unused
    refine .inr fun other listed => ?_
    by_cases kindEq : k = .application
    · subst kindEq
      rcases filed.mem_list_cases listed with pre | wrote
      · exact alone other pre
      · cases wrote
    rw [filed.list_otherKinds (Ne.symm kindEq)] at listed
    exact alone other listed

end

/-! ## Every step keeps a store sound -/

section

variable {d : Deployment} {db db' : DB}

theorem Named.update {k : Kind} {o out : Obj k} (named : Named db) (filed : db.WellFiled)
    (done : db.update o = .ok (out, db')) : Named db' := by
  obtain ⟨stored, hit, -, rfl, step, -⟩ := DB.update_spec done
  refine step.forall_find _ named ?_
  intro merged eq
  cases eq
  simp only [DB.mergeCore, metaOf_withMeta, (filed.same_identity hit).2]
  exact named k _ stored hit

variable {who : Option Identity} {now : Time} {request : Request}

theorem Effect.named {chain : Chain} (named : Named db) (filed : db.WellFiled)
    (effect : Effect chain who now db request db') : Named db' := by
  cases effect with
  | created bound identified ok stored =>
    obtain ⟨ne, -, rfl, step, -⟩ := DB.create_spec stored
    refine step.forall_find _ named ?_
    intro out eq
    cases eq
    rwa [metaOf_withMeta]
  | updated sent hit ok stored => exact named.update filed stored
  | reported bound hit ok stored =>
    obtain ⟨old, hit', -, rfl, step, -⟩ := DB.updateStatus_spec stored
    refine step.forall_find _ named ?_
    intro out eq
    cases eq
    rw [metaOf_withStatusOf]
    exact named _ _ old hit'
  | marked fins stamp hit held grown stamped stored => exact named.update filed stored
  | markedBefore hit held deleting => exact named
  | erased hit free ok stored =>
    obtain ⟨-, step, -⟩ := DB.delete_spec stored
    exact step.forall_find _ named (by simp)

theorem Change.apps (sound : Sound d db) (change : Change d db db') :
    ∀ app ∈ db'.list .application, AdmittedTo d db' (k := .application) app := by
  cases change with
  | unchanged same =>
    rw [same]
    exact sound.apps
  | @written k key like out filed own alike admitted =>
    intro app mem
    by_cases isApp : k = .application
    · subst isApp
      have likeAdmitted : AdmittedTo d db like :=
        admitted.elim (fun found => sound.apps like (DB.mem_list.2 ⟨key, found⟩)) id
      have pre : AdmittedTo d db (k := .application) app := by
        rcases filed.mem_list_cases mem with kept | written
        · exact sound.apps app kept
        cases written
        exact likeAdmitted.alike alike
      exact admittedTo_of_written sound.filed filed own pre
        (exclusive_of_app_written filed alike likeAdmitted mem pre.2.2.2.2)
    have apps : db'.list .application = db.list .application :=
      filed.list_otherKinds (Ne.symm isApp)
    rw [apps] at mem
    have pre := sound.apps app mem
    refine admittedTo_of_written sound.filed filed own pre ?_
    by_cases isVolume : k = .persistentVolume
    · subst isVolume
      exact exclusive_of_pv_written sound filed own alike admitted mem pre.2.2.2.2
    have vols : db'.list .persistentVolume = db.list .persistentVolume :=
      filed.list_otherKinds (Ne.symm isVolume)
    have exclusive := pre.2.2.2.2
    rw [checkAppMountsExclusive_eq_ok_iff] at exclusive ⊢
    rwa [apps, sharedPV_congr vols]
  | erased filed hit released =>
    intro app mem
    have pre : app ∈ db.list .application := by
      rename_i k key cur
      by_cases isApp : k = .application
      · subst isApp
        rcases filed.mem_list_cases mem with kept | written
        · exact kept
        · cases written
      · rwa [filed.list_otherKinds (Ne.symm isApp)] at mem
    exact admittedTo_of_erased sound filed hit released pre

theorem Change.blocks (sound : Sound d db) (change : Change d db db') :
    ∀ ns ∈ db'.list .ns, HasBlock ns := by
  cases change with
  | unchanged same =>
    rw [same]
    exact sound.blocks
  | @written k key like out filed own alike admitted =>
    intro ns mem
    by_cases isNs : k = .ns
    · subst isNs
      have likeBlock : AdmittedTo d db (k := .ns) like :=
        admitted.elim (fun found => sound.blocks like (DB.mem_list.2 ⟨key, found⟩)) id
      rcases filed.mem_list_cases mem with kept | written
      · exact sound.blocks ns kept
      cases written
      exact likeBlock.alike alike
    rw [filed.list_otherKinds (Ne.symm isNs)] at mem
    exact sound.blocks ns mem
  | @erased k key cur filed hit released =>
    intro ns mem
    by_cases isNs : k = .ns
    · subst isNs
      rcases filed.mem_list_cases mem with kept | written
      · exact sound.blocks ns kept
      · cases written
    rw [filed.list_otherKinds (Ne.symm isNs)] at mem
    exact sound.blocks ns mem

theorem Sound.of_effect (sound : Sound d db)
    (effect : Effect (defaultChain d) who now db request db') : Sound d db' where
  filed := effect.wellFiled (defaultChain_keepsIdentity d) sound.filed
  named := effect.named sound.named sound.filed
  apps := (effect.change sound.filed).apps sound
  blocks := (effect.change sound.filed).blocks sound

theorem sound_empty (d : Deployment) : Sound d {} where
  filed := DB.wellFiled_empty
  named := by
    intro k key o hit
    simp [DB.find] at hit
  apps := by
    intro app mem
    obtain ⟨key, hit⟩ := DB.mem_list.1 mem
    simp [DB.find] at hit
  blocks := by
    intro ns mem
    obtain ⟨key, hit⟩ := DB.mem_list.1 mem
    simp [DB.find] at hit

end

end Horchestra.Requests
