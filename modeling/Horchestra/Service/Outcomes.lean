import Horchestra.Service.Requests

/-!
# What an accepted request leaves in the store

`served` lists what an accepted request can have done, operation by operation.  Here the same is said
once in terms of the records: at most one of them changes, and its new value is the object the
chain has let through, or the old value with another status or a mark of deletion.  The invariants of
the store are all read off `outcome_of_effect`.
-/

namespace Horchestra.Requests

open Api Storage Admission

/-! ## Objects that differ in bookkeeping only -/

/-- One identity, the same annotations and the same desired state. -/
structure Alike {k : Kind} (o o' : Obj k) : Prop where
  ns : (metaOf o').ns = (metaOf o).ns
  name : (metaOf o').name = (metaOf o).name
  annotations : (metaOf o').annotations = (metaOf o).annotations
  desired : withMeta (withStatusOf o' o) (metaOf o) = o

/-- What a write stores of the object the chain let through: all but the bookkeeping. -/
structure Stores {k : Kind} (object out : Obj k) : Prop extends Alike object out where
  labels : (metaOf out).labels = (metaOf object).labels
  references : (metaOf out).ownerReferences = (metaOf object).ownerReferences
  finalizers : (metaOf out).finalizers = (metaOf object).finalizers
  stamp : (metaOf out).deletionTimestamp = (metaOf object).deletionTimestamp

/-- A later version of a record that nobody has rewritten: its status was reported, or its deletion
asked for. -/
structure Touched {k : Kind} (old out : Obj k) : Prop extends Alike old out where
  uid : (metaOf out).uid = (metaOf old).uid
  labels : (metaOf out).labels = (metaOf old).labels
  references : (metaOf out).ownerReferences = (metaOf old).ownerReferences
  held : (metaOf out).finalizers = [] → (metaOf old).finalizers = []
  stamped : (metaOf old).deleting = true → (metaOf out).deleting = true
  live : (metaOf out).deleting = false → (metaOf out).finalizers = (metaOf old).finalizers

section

variable {k : Kind} {db : DB}

theorem Alike.refl (o : Obj k) : Alike o o := by
  refine ⟨rfl, rfl, rfl, ?_⟩
  cases k <;> rfl

theorem Touched.refl (o : Obj k) : Touched o o := ⟨.refl o, rfl, rfl, rfl, id, id, fun _ => rfl⟩

theorem Alike.app_spec {app app' : Application} (alike : Alike (k := .application) app app') :
    app'.spec = app.spec := by
  have eq := congrArg Application.spec alike.desired
  exact eq

theorem Alike.pv_spec {pv pv' : PersistentVolume} (alike : Alike (k := .persistentVolume) pv pv') :
    pv'.spec = pv.spec := by
  have eq := congrArg PersistentVolume.spec alike.desired
  exact eq

theorem keyOf_eq {o o' : Obj k} (ns : (metaOf o').ns = (metaOf o).ns)
    (name : (metaOf o').name = (metaOf o).name) : keyOf o' = keyOf o := by
  rw [keyOf, keyOf, ns, name]

theorem stores_created (o : Obj k) (uid ver : String) (generation : Int) (now : Option Time) :
    Stores o (withMeta (DB.persisted o) { metaOf o with
      uid := uid, resourceVersion := ver, generation := generation
      creationTimestamp := now }) := by
  refine ⟨⟨by simp, by simp, by simp, ?_⟩, by simp, by simp, by simp, by simp⟩
  cases k with
  | application =>
    simp only [DB.persisted]
    split <;> rfl
  | _ => rfl

theorem stores_mergeCore (o stored : Obj k) : Stores o (db.mergeCore o stored) := by
  refine ⟨⟨by simp [DB.mergeCore], by simp [DB.mergeCore], by simp [DB.mergeCore], ?_⟩,
    by simp [DB.mergeCore], by simp [DB.mergeCore], by simp [DB.mergeCore], by simp [DB.mergeCore]⟩
  cases k <;> rfl

theorem touched_withStatusOf (o other : Obj k) : Touched o (withStatusOf o other) := by
  refine ⟨⟨by simp, by simp, by simp, ?_⟩, by simp, by simp, by simp, by simp, by simp, by simp⟩
  cases k <;> rfl

theorem touched_marked (o : Obj k) {finalizers : List String} {stamp : Option Time}
    (held : (metaOf o).finalizers ≠ []) (grown : (metaOf o).finalizers ⊆ finalizers)
    (stamped : stamp.isSome) :
    Touched o (db.mergeCore (withMeta o { metaOf o with
      finalizers := finalizers, deletionTimestamp := stamp }) o) := by
  have deleting : (metaOf (db.mergeCore (withMeta o { metaOf o with
      finalizers := finalizers, deletionTimestamp := stamp }) o)).deleting = true := by
    simpa [DB.mergeCore, ObjectMeta.deleting] using stamped
  refine ⟨⟨by simp [DB.mergeCore], by simp [DB.mergeCore], by simp [DB.mergeCore], ?_⟩,
    by simp [DB.mergeCore], by simp [DB.mergeCore], by simp [DB.mergeCore], ?_, ?_, ?_⟩
  · cases k <;> rfl
  · intro none
    simp only [DB.mergeCore, metaOf_withMeta] at none
    rw [none] at grown
    exact absurd (List.subset_nil.1 grown) held
  · exact fun _ => deleting
  · intro live
    rw [deleting] at live
    cases live

end

/-! ## Outcomes -/

/-- The records an accepted request leaves. -/
inductive Outcome (chain : Chain) (who : Option Identity) (db : DB) (request : Request) (db' : DB) :
    Prop where
  | unchanged (same : db' = db)
  | erased {k : Kind} {key : String} {cur : Obj k} (present : db.find k key = some cur)
      (free : (metaOf cur).finalizers = [])
      (accepted : chain.validate ⟨who, db⟩
        { operation := .delete, object := cur, oldObject := some cur } = .ok ())
      (filed : DB.Filed db db' k key none)
  | touched {k : Kind} {old out : Obj k} (present : db.find k (keyOf out) = some old)
      (filed : DB.Filed db db' k (keyOf out) (some out)) (same : Touched old out)
  | created {k : Kind} {scope : Scope k} {body o object out : Obj k}
      (isCreate : request = .create k scope body) (bound : bindNamespace body scope.ns = .ok o)
      (accepted : chain.run ⟨who, db⟩ { operation := .create, object := o } = .ok object)
      (absent : db.find k (keyOf out) = none) (sameKey : keyOf out = keyOf o)
      (filed : DB.Filed db db' k (keyOf out) (some out)) (stores : Stores object out)
      (uid : (metaOf out).uid = db.newUID)
  | replaced {k : Kind} {o old object out : Obj k} (sent : Sends db request o)
      (accepted : chain.run ⟨who, db⟩
        { operation := .update, object := o, oldObject := some old } = .ok object)
      (present : db.find k (keyOf out) = some old) (sameKey : keyOf out = keyOf o)
      (current : DB.checkResourceVersion (metaOf o) (metaOf old) = true)
      (filed : DB.Filed db db' k (keyOf out) (some out)) (stores : Stores object out)
      (uid : (metaOf out).uid = (metaOf old).uid)

section

variable {chain : Chain} {who : Option Identity} {now : Time} {db db' : DB} {request : Request}

/-- **What an accepted request leaves.** -/
theorem outcome_of_effect (keeps : ∀ plugin ∈ chain, plugin.KeepsIdentity) (filed : db.WellFiled)
    (effect : Effect chain who now db request db') : Outcome chain who db request db' := by
  cases effect with
  | @created k scope body o object out _ bound identified ok stored =>
    have eq := admitted_sameIdentity keeps ok
    obtain ⟨-, gone, rfl, step, -⟩ := DB.create_spec stored
    have stores := stores_created object db.newUID (DB.formatVersion (db.versions k + 1)) 1 (some now)
    have outKey := keyOf_eq stores.ns stores.name
    exact .created rfl bound ok (outKey ▸ gone)
      (outKey.trans (keyOf_eq eq.ns eq.name)) (outKey ▸ step) stores (by rw [metaOf_withMeta])
  | @updated k _ o old object out _ sent hit ok stored =>
    have eq := admitted_sameIdentity keeps ok
    have objectKey := keyOf_eq eq.ns eq.name
    obtain ⟨old', hit', current, rfl, step, -⟩ := DB.update_spec stored
    obtain rfl : old = old' := by
      rw [objectKey, hit] at hit'
      exact Option.some.inj hit'
    have stores : Stores object (db.mergeCore object old) := stores_mergeCore object old
    have outKey := keyOf_eq stores.ns stores.name
    refine .replaced sent ok (outKey ▸ hit') (outKey.trans objectKey) ?_ (outKey ▸ step)
      stores (by simp [DB.mergeCore])
    simpa only [DB.checkResourceVersion, eq.resourceVersion] using current
  | @reported k scope body o old object out _ bound hit ok stored =>
    obtain ⟨old', hit', -, rfl, step, -⟩ := DB.updateStatus_spec stored
    have eq := touched_withStatusOf old' object
    have outKey : keyOf (withStatusOf old' object) = keyOf object :=
      (keyOf_eq eq.ns eq.name).trans ((filed k _ old' hit').1).symm
    exact .touched (outKey ▸ hit') (outKey ▸ step) eq
  | @marked k scope name orphan cur out _ finalizers stamp hit held grown stamped stored =>
    obtain ⟨old, hit', -, rfl, step, -⟩ := DB.update_spec stored
    have own := (filed k _ cur hit).1
    have markedKey : keyOf (withMeta cur { metaOf cur with
        finalizers := finalizers, deletionTimestamp := stamp }) = keyOf cur := by
      simp [keyOf]
    obtain rfl : cur = old := by
      rw [markedKey, ← own] at hit'
      exact Option.mem_unique hit hit'
    have eq : Touched cur (db.mergeCore (withMeta cur { metaOf cur with
      finalizers := finalizers, deletionTimestamp := stamp }) cur) :=
      touched_marked cur held grown stamped
    have outKey := keyOf_eq eq.ns eq.name
    rw [markedKey, ← outKey] at hit' step
    exact .touched hit' step eq
  | markedBefore hit held deleting => exact .unchanged rfl
  | erased hit free ok stored =>
    obtain ⟨-, step, -⟩ := DB.delete_spec stored
    exact .erased hit free ok step

end

/-! ## Where a stored object comes from -/

/-- The object a request asks to store, under the address it asks for. -/
def submitted (db : DB) : Request → Option ((k : Kind) × Obj k)
  | .create k scope body => (bindNamespace body scope.ns).toOption.map (⟨k, ·⟩)
  | .update k scope _ body => (bindNamespace body scope.ns).toOption.map (⟨k, ·⟩)
  | .patch k scope name apply => do
    let cur ← db.get k scope.ns name
    let next ← (apply cur).toOption
    return ⟨k, rebindIdentity next cur⟩
  | _ => none

theorem submitted_of_sends {db : DB} {request : Request} {k : Kind} {o : Obj k}
    (sent : Sends db request o) : submitted db request = some ⟨k, o⟩ := by
  cases sent with
  | update bound => simp [submitted, bound, Except.toOption]
  | patch hit applied => simp [submitted, hit, applied, Except.toOption]

/-- The operation a write in the place of `old` is. -/
def writing {α : Type} (old : Option α) : Operation := if old.isSome then .update else .create

theorem writing_ne_delete {α : Type} (old : Option α) : writing old ≠ .delete := by
  cases old <;> simp [writing]

/-- A stored object was there before, or the chain has just made it of what was submitted. -/
inductive Origin (chain : Chain) (who : Option Identity) (db : DB) (request : Request) {k : Kind}
    (key : String) (o : Obj k) : Prop where
  | before {old : Obj k} (present : db.find k key = some old) (same : Touched old o)
  | written {sent object : Obj k} {old : Option (Obj k)}
      (submits : submitted db request = some ⟨k, sent⟩) (own : key = keyOf sent)
      (replaces : db.find k key = old)
      (accepted : chain.run ⟨who, db⟩
        { operation := writing old, object := sent, oldObject := old } = .ok object)
      (stores : Stores object o)
      (uid : (metaOf o).uid = (old.map fun old => (metaOf old).uid).getD db.newUID)

section

variable {chain : Chain} {who : Option Identity} {now : Time} {db db' : DB} {request : Request}
  {k : Kind}

theorem origin_of_filed {key : String} {wrote : Option (Obj k)}
    (filed : DB.Filed db db' k key wrote) {k' : Kind} {key' : String} {o : Obj k'}
    (hit : db'.find k' key' = some o)
    (pre : db.find k' key' = some o → Origin chain who db request key' o)
    (eq : ∀ {out : Obj k}, wrote = some out → Origin chain who db request key out) :
    Origin chain who db request key' o := by
  by_cases kindEq : k' = k
  · subst kindEq
    by_cases keyEq : key' = key
    · subst keyEq
      exact eq (filed.here.symm.trans hit)
    · exact pre ((filed.elsewhere _ keyEq).symm.trans hit)
  · exact pre ((filed.otherKinds _ _ kindEq).symm.trans hit)

/-- **Where a stored object comes from.** -/
theorem Effect.origin (keeps : ∀ plugin ∈ chain, plugin.KeepsIdentity) (wellFiled : db.WellFiled)
    (effect : Effect chain who now db request db') {key : String} {o : Obj k}
    (hit : db'.find k key = some o) : Origin chain who db request key o := by
  have kept : db.find k key = some o → Origin chain who db request key o :=
    fun found => .before found (.refl o)
  cases outcome_of_effect keeps wellFiled effect with
  | unchanged same => exact kept (same ▸ hit)
  | erased found free ok step => exact origin_of_filed step hit kept (by simp)
  | touched found step same =>
    refine origin_of_filed step hit kept fun isOut => ?_
    cases isOut
    exact .before found same
  | created isCreate bound ok gone keyEq step stores uid =>
    refine origin_of_filed step hit kept fun isOut => ?_
    cases isOut
    exact .written (by simp [submitted, isCreate, bound, Except.toOption]) keyEq gone ok
      stores uid
  | replaced sent ok found keyEq current step stores uid =>
    refine origin_of_filed step hit kept fun isOut => ?_
    cases isOut
    exact .written (submitted_of_sends sent) keyEq found ok stores uid

/-- A new object is the submitted one. -/
theorem Origin.of_absent {key : String} {o : Obj k} (origin : Origin chain who db request key o)
    (gone : db.find k key = none) :
    ∃ sent : Obj k, submitted db request = some ⟨k, sent⟩ ∧ key = keyOf sent := by
  cases origin with
  | before hit => cases gone.symm.trans hit
  | written submits own => exact ⟨_, submits, own⟩

end

end Horchestra.Requests
