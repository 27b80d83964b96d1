import Horchestra.Admission.DefaultChain
import Horchestra.Storage.Versions

/-!
# The service: requests over the store

Every write binds its body to an address, runs the admission chain on it and hands the result
to the store; a deletion runs the refusing passes alone, and an object that still carries a
finalizer is marked rather than erased.  A body here is an object: decoding, schema defaulting
and schema validation are over when it arrives, and what a patch makes of the stored object is
a function.

`serve` answers one request, and `served` says once, for all of them, what an accepted request
can have done to the store.
-/

namespace Horchestra.Requests

open Api Storage Admission Foundations Text Checks

/-! ## Errors -/

inductive ApiError where
  | notFound (k : Kind) (name : String)
  | alreadyExists (k : Kind) (name : String)
  | conflict (k : Kind) (name : String)
  | internal (message : String)
  | badRequest (message : String)
  | forbidden (k : Kind) (name reason : String)
  | invalid (k : Kind) (name message : String)

def apiError (k : Kind) (name : String) : StorageError → ApiError
  | .notFound => .notFound k name
  | .alreadyExists => .alreadyExists k name
  | .conflict => .conflict k name
  | .other message => .internal message

def admissionError (k : Kind) (name : String) : AdmissionError → ApiError
  | .forbidden reason => .forbidden k name reason
  | .invalid message => .invalid k name message

def translated {α ε ε' : Type} (translate : ε → ε') : Except ε α → Except ε' α
  | .ok value => .ok value
  | .error e => .error (translate e)

@[simp] theorem translated_eq_ok_iff {α ε ε' : Type} {translate : ε → ε'} {res : Except ε α}
    {value : α} : translated translate res = .ok value ↔ res = .ok value := by
  cases res <;> simp [translated]

section

variable {k : Kind}

/-! ## Addresses -/

/-- Binds an object to the namespace the caller is authoritative about, and refuses a body that
names another. -/
def bindNamespace (o : Obj k) (ns : String) : Except ApiError (Obj k) :=
  let got := (metaOf o).ns
  if got ≠ "" ∧ got ≠ ns then
    if ns = "" then
      .error (.badRequest
        "the object must not set metadata.namespace: this resource is cluster-scoped")
    else
      .error (.badRequest ("the namespace of the object (" ++ got ++
        ") does not match the namespace of the request (" ++ ns ++ ")"))
  else .ok (withMeta o { metaOf o with ns := ns })

/-- Both names of an object are names of the domain system. -/
def validIdentity (o : Obj k) : Except String Unit :=
  andThen (require (isDNS1123Subdomain (metaOf o).name)
    ("metadata.name " ++ quote (metaOf o).name ++ " is invalid"))
    (require ((metaOf o).ns == "" || isDNS1123Label (metaOf o).ns)
      ("metadata.namespace " ++ quote (metaOf o).ns ++ " is invalid"))

/-- A patched object under the identity and version of the one it patches. -/
def rebindIdentity (o ref : Obj k) : Obj k :=
  withMeta o { metaOf o with
    ns := (metaOf ref).ns
    name := (metaOf ref).name
    uid := (metaOf ref).uid
    resourceVersion := (metaOf ref).resourceVersion }

/-! ## The operations -/

variable (chain : Chain) (who : Option Identity)

def found (name : String) (stored : Option (Obj k)) : Except ApiError (Obj k) :=
  match stored with
  | some o => .ok o
  | none => .error (.notFound k name)

def admitted (db : DB) (a : Admission.Attributes k) : Except ApiError (Obj k) :=
  translated (admissionError k (metaOf a.object).name) (chain.run ⟨who, db⟩ a)

def create (now : Time) (seen db : DB) (ns : String) (body : Obj k) : Except ApiError DB := do
  let o ← bindNamespace body ns
  require ((metaOf o).name ≠ "") (.invalid k "" "metadata.name is required")
  translated (.invalid k (metaOf o).name) (validIdentity o)
  let o ← admitted chain who seen { operation := .create, object := o }
  let (_, db) ← translated (apiError k (metaOf o).name) (db.create now o)
  return db

/-- The object an update stores, or its refusal. -/
def checkUpdate (db : DB) (subresource ns name : String) (body : Obj k) :
    Except ApiError (Obj k) := do
  let o ← bindNamespace body ns
  require (name == "" || (metaOf o).name == "" || (metaOf o).name == name)
    (.badRequest ("the name of the object (" ++ (metaOf o).name ++
      ") does not match the name on the URL (" ++ name ++ ")"))
  let old ← found (metaOf o).name (db.find k (keyOf o))
  admitted chain who db
    { operation := .update, object := o, oldObject := some old, subresource := subresource }

def update (seen db : DB) (ns name : String) (body : Obj k) : Except ApiError DB := do
  let o ← checkUpdate chain who seen "" ns name body
  let (_, db) ← translated (apiError k (metaOf o).name) (db.update o)
  return db

/-- The write of the status subresource, the only one there is. -/
def updateSubresource (seen db : DB) (ns : String) (body : Obj k) : Except ApiError DB := do
  let o ← checkUpdate chain who seen "status" ns "" body
  let (_, db) ← translated (apiError k (metaOf o).name) (db.updateStatus o)
  return db

/-- `apply` is what the patch makes of the stored object. -/
def patch (seen db : DB) (k : Kind) (ns name : String) (apply : Obj k → Except ApiError (Obj k)) :
    Except ApiError DB := do
  let cur ← found name (seen.get k ns name)
  let next ← apply cur
  let o ← admitted chain who seen
    { operation := .update, object := rebindIdentity next cur, oldObject := some cur }
  let (_, db) ← translated (apiError k name) (db.update o)
  return db

/-- Whether objects of a kind own objects that could be orphaned. -/
def hasDependents (k : Kind) : Bool := k = .applicationSet

def markOrphan (cur : Obj k) (orphan : Bool) : Obj k :=
  if orphan && !(metaOf cur).finalizers.contains finalizerOrphanDependents then
    withMeta cur { metaOf cur with
      finalizers := (metaOf cur).finalizers ++ [finalizerOrphanDependents] }
  else cur

/-- Turns a deletion into a mark when something still holds the object: `none` when nothing
does, and otherwise the store with the object marked. -/
def markDeleting (now : Time) (db : DB) (cur : Obj k) (orphan : Bool) :
    Except StorageError (Option DB) :=
  if (metaOf cur).finalizers = [] then .ok none
  else
    let marked := markOrphan cur orphan
    if (metaOf cur).deleting then
      -- A second deletion does not move the clock, but it may be the one that says to orphan.
      if orphan && !(metaOf cur).finalizers.contains finalizerOrphanDependents then
        (db.update marked).map fun (_, db) => some db
      else .ok (some db)
    else
      (db.update (withMeta marked { metaOf marked with deletionTimestamp := some now })).map
        fun (_, db) => some db

def delete (now : Time) (seen db : DB) (k : Kind) (ns name : String) (orphan : Bool) :
    Except ApiError DB := do
  let cur ← found name (seen.get k ns name)
  require (!orphan || hasDependents k) (.badRequest ("propagationPolicy \"Orphan\": kind " ++
    k.name ++ " has no dependents to orphan"))
  translated (admissionError k name)
    (chain.validate ⟨who, seen⟩ { operation := .delete, object := cur, oldObject := some cur })
  match ← translated (apiError k name) (markDeleting now db cur orphan) with
  | some db => return db
  | none => translated (apiError k name) (db.delete k ns name)

end

/-! ## Requests -/

/-- The namespace a caller is authoritative about: none for a cluster-wide kind. -/
structure Scope (k : Kind) where
  ns : String
  clusterWide : k.namespaced = false → ns = ""

inductive Request where
  | create (k : Kind) (scope : Scope k) (body : Obj k)
  | update (k : Kind) (scope : Scope k) (name : String) (body : Obj k)
  | updateSubresource (k : Kind) (scope : Scope k) (body : Obj k)
  | patch (k : Kind) (scope : Scope k) (name : String) (apply : Obj k → Except ApiError (Obj k))
  | delete (k : Kind) (scope : Scope k) (name : String) (orphan : Bool)

/-- Answers one request of `who` at the time `now`, which has read `seen` and commits to `db`. -/
def commit (chain : Chain) (who : Option Identity) (now : Time) (seen db : DB) :
    Request → Except ApiError DB
  | .create _ scope body => create chain who now seen db scope.ns body
  | .update _ scope name body => update chain who seen db scope.ns name body
  | .updateSubresource _ scope body => updateSubresource chain who seen db scope.ns body
  | .patch k scope name apply => patch chain who seen db k scope.ns name apply
  | .delete k scope name orphan => delete chain who now seen db k scope.ns name orphan

/-- Answers one request that nothing comes between. -/
def serve (chain : Chain) (who : Option Identity) (now : Time) (db : DB) (request : Request) :
    Except ApiError DB :=
  commit chain who now db db request

/-- The store after a request: a refused one leaves it as it was. -/
def after (chain : Chain) (who : Option Identity) (now : Time) (db : DB) (request : Request) : DB :=
  match serve chain who now db request with
  | .ok db => db
  | .error _ => db

/-! ## What an accepted request did -/

/-- The object a request asks to store in place of the current one. -/
inductive Sends (db : DB) : Request → {k : Kind} → Obj k → Prop where
  | update {k : Kind} {scope : Scope k} {name : String} {body o : Obj k}
      (bound : bindNamespace body scope.ns = .ok o) : Sends db (.update k scope name body) o
  | patch {k : Kind} {scope : Scope k} {name : String} {apply : Obj k → Except ApiError (Obj k)}
      {cur next : Obj k} (present : db.get k scope.ns name = some cur)
      (applied : apply cur = .ok next) :
      Sends db (.patch k scope name apply) (rebindIdentity next cur)

/-- The effects an accepted request can have on the store. -/
inductive Effect (chain : Chain) (who : Option Identity) (now : Time) (db : DB) :
    Request → DB → Prop where
  | created {k : Kind} {scope : Scope k} {body o object out : Obj k} {db' : DB}
      (bound : bindNamespace body scope.ns = .ok o)
      (identified : validIdentity o = .ok ())
      (accepted : chain.run ⟨who, db⟩ { operation := .create, object := o } = .ok object)
      (stored : db.create now object = .ok (out, db')) :
      Effect chain who now db (.create k scope body) db'
  | updated {k : Kind} {request : Request} {o old object out : Obj k} {db' : DB}
      (sent : Sends db request o) (present : db.find k (keyOf o) = some old)
      (accepted : chain.run ⟨who, db⟩
        { operation := .update, object := o, oldObject := some old } = .ok object)
      (stored : db.update object = .ok (out, db')) :
      Effect chain who now db request db'
  | reported {k : Kind} {scope : Scope k} {body o old object out : Obj k} {db' : DB}
      (bound : bindNamespace body scope.ns = .ok o) (present : db.find k (keyOf o) = some old)
      (accepted : chain.run ⟨who, db⟩
        { operation := .update, object := o, oldObject := some old, subresource := "status" } =
          .ok object)
      (stored : db.updateStatus object = .ok (out, db')) :
      Effect chain who now db (.updateSubresource k scope body) db'
  | marked {k : Kind} {scope : Scope k} {name : String} {orphan : Bool} {cur out : Obj k} {db' : DB}
      (finalizers : List String) (stamp : Option Time)
      (present : db.get k scope.ns name = some cur) (held : (metaOf cur).finalizers ≠ [])
      (grown : (metaOf cur).finalizers ⊆ finalizers) (stamped : stamp.isSome)
      (stored : db.update (withMeta cur { metaOf cur with
        finalizers := finalizers, deletionTimestamp := stamp }) = .ok (out, db')) :
      Effect chain who now db (.delete k scope name orphan) db'
  | markedBefore {k : Kind} {scope : Scope k} {name : String} {orphan : Bool} {cur : Obj k}
      (present : db.get k scope.ns name = some cur) (held : (metaOf cur).finalizers ≠ [])
      (deleting : (metaOf cur).deleting = true) :
      Effect chain who now db (.delete k scope name orphan) db
  | erased {k : Kind} {scope : Scope k} {name : String} {orphan : Bool} {cur : Obj k} {db' : DB}
      (present : db.get k scope.ns name = some cur) (free : (metaOf cur).finalizers = [])
      (accepted : chain.validate ⟨who, db⟩
        { operation := .delete, object := cur, oldObject := some cur } = .ok ())
      (stored : db.delete k scope.ns name = .ok db') :
      Effect chain who now db (.delete k scope name orphan) db'

section

variable {chain : Chain} {who : Option Identity} {now : Time} {db db' : DB} {k : Kind}

variable {name : String} {o body : Obj k}

theorem found_eq_ok_iff {stored : Option (Obj k)} :
    found name stored = .ok o ↔ stored = some o := by
  cases stored <;> simp [found]

variable {scope : Scope k}

theorem create_effect (done : create chain who now db db scope.ns body = .ok db') :
    Effect chain who now db (.create k scope body) db' := by
  simp only [create, bind_eq_ok_iff, translated_eq_ok_iff, admitted, pure, Except.pure,
    Except.ok.injEq, Prod.exists] at done
  obtain ⟨o, bound, _, -, _, known, object, ok, out, stored, new, rfl⟩ := done
  exact .created bound known ok new

theorem checkUpdate_spec {subresource ns : String} {object : Obj k}
    (done : checkUpdate chain who db subresource ns name body = .ok object) :
    ∃ o old, bindNamespace body ns = .ok o ∧ db.find k (keyOf o) = some old ∧
      chain.run ⟨who, db⟩
        { operation := .update, object := o, oldObject := some old, subresource := subresource } =
          .ok object := by
  simp only [checkUpdate, bind_eq_ok_iff, translated_eq_ok_iff, admitted, found_eq_ok_iff] at done
  obtain ⟨o, bound, _, -, old, hit, ok⟩ := done
  exact ⟨o, old, bound, hit, ok⟩

theorem bindNamespace_own (o : Obj k) : bindNamespace o (metaOf o).ns = .ok o := by
  have own : withMeta o { metaOf o with ns := (metaOf o).ns } = o := withMeta_metaOf o
  simp [bindNamespace, own]

variable (chain who) in
theorem checkUpdate_own (subresource : String) {old : Obj k}
    (addressed : name = "" ∨ name = (metaOf o).name) (hit : db.find k (keyOf o) = some old) :
    checkUpdate chain who db subresource (metaOf o).ns name o =
      admitted chain who db
        { operation := .update, object := o, oldObject := some old, subresource := subresource } := by
  have matching : (name == "" || (metaOf o).name == "" || (metaOf o).name == name) = true := by
    rcases addressed with rfl | rfl <;> simp
  simp [checkUpdate, bindNamespace_own, matching, require, hit, found, bind, Except.bind]

theorem update_effect (done : update chain who db db scope.ns name body = .ok db') :
    Effect chain who now db (.update k scope name body) db' := by
  simp only [update, bind_eq_ok_iff, translated_eq_ok_iff, pure, Except.pure, Except.ok.injEq,
    Prod.exists] at done
  obtain ⟨object, checked, out, stored, updated, rfl⟩ := done
  obtain ⟨o, old, bound, hit, ok⟩ := checkUpdate_spec checked
  exact .updated (.update bound) hit ok updated

theorem updateSubresource_effect (done : updateSubresource chain who db db scope.ns body =
    .ok db') :
    Effect chain who now db (.updateSubresource k scope body) db' := by
  simp only [updateSubresource, bind_eq_ok_iff, translated_eq_ok_iff, pure, Except.pure,
    Except.ok.injEq, Prod.exists] at done
  obtain ⟨object, checked, out, stored, updated, rfl⟩ := done
  obtain ⟨o, old, bound, hit, ok⟩ := checkUpdate_spec checked
  exact .reported bound hit ok updated

theorem keyOf_rebindIdentity (o ref : Obj k) : keyOf (rebindIdentity o ref) = keyOf ref := by
  simp [keyOf, rebindIdentity]

theorem patch_effect {apply : Obj k → Except ApiError (Obj k)} (filed : db.WellFiled)
    (done : patch chain who db db k scope.ns name apply = .ok db') :
    Effect chain who now db (.patch k scope name apply) db' := by
  simp only [patch, bind_eq_ok_iff, translated_eq_ok_iff, admitted, found_eq_ok_iff, pure,
    Except.pure, Except.ok.injEq, Prod.exists] at done
  obtain ⟨cur, hit, next, applied, object, ok, out, stored, updated, rfl⟩ := done
  have own := (filed k _ cur hit).1
  refine .updated (.patch hit applied) ?_ ok updated
  rw [keyOf_rebindIdentity, ← own]
  exact hit

variable {orphan : Bool}

/-- What a marked object carries: its own content, more finalizers perhaps, and a stamp. -/
theorem markDeleting_spec {cur : Obj k} {res : Option DB}
    (done : markDeleting now db cur orphan = .ok res) :
    ((metaOf cur).finalizers = [] ∧ res = none) ∨
      ((metaOf cur).finalizers ≠ [] ∧
        (((metaOf cur).deleting = true ∧ res = some db) ∨
          ∃ (finalizers : List String) (stamp : Option Time) (out : Obj k) (db' : DB),
            (metaOf cur).finalizers ⊆ finalizers ∧ stamp.isSome ∧ res = some db' ∧
            db.update (withMeta cur { metaOf cur with
              finalizers := finalizers, deletionTimestamp := stamp }) = .ok (out, db'))) := by
  unfold markDeleting at done
  split at done
  next free =>
    cases done
    exact .inl ⟨free, rfl⟩
  rename_i held
  refine .inr ⟨held, ?_⟩
  obtain ⟨finalizers, grown, orphaned⟩ : ∃ finalizers, (metaOf cur).finalizers ⊆ finalizers ∧
      markOrphan cur orphan = withMeta cur { metaOf cur with finalizers := finalizers } := by
    unfold markOrphan
    split
    · exact ⟨_, List.subset_append_left _ _, rfl⟩
    · exact ⟨_, List.Subset.refl _, (withMeta_metaOf cur).symm⟩
  simp only [orphaned, metaOf_withMeta, withMeta_withMeta] at done
  split at done
  next deleting =>
    split at done
    · refine .inr ⟨finalizers, (metaOf cur).deletionTimestamp, ?_⟩
      cases updated : db.update (withMeta cur { metaOf cur with finalizers := finalizers }) with
      | error e => simp [updated, Except.map] at done
      | ok result =>
        simp only [updated, Except.map, Except.ok.injEq] at done
        exact ⟨result.1, result.2, grown, deleting, done.symm, rfl⟩
    cases done
    exact .inl ⟨deleting, rfl⟩
  refine .inr ⟨finalizers, some now, ?_⟩
  cases updated : db.update (withMeta cur { metaOf cur with
      finalizers := finalizers, deletionTimestamp := some now }) with
  | error e => simp [updated, Except.map] at done
  | ok result =>
    simp only [updated, Except.map, Except.ok.injEq] at done
    exact ⟨result.1, result.2, grown, rfl, done.symm, rfl⟩

theorem delete_effect (done : delete chain who now db db k scope.ns name orphan = .ok db') :
    Effect chain who now db (.delete k scope name orphan) db' := by
  simp only [delete, bind_eq_ok_iff, translated_eq_ok_iff, found_eq_ok_iff] at done
  obtain ⟨cur, hit, _, -, _, ok, res, marked, done⟩ := done
  rcases markDeleting_spec marked with ⟨free, rfl⟩ | ⟨held, ⟨deleting, rfl⟩ | ⟨fins, stamp, out,
      after, grown, stamped, rfl, updated⟩⟩
  · simp only [translated_eq_ok_iff] at done
    exact .erased hit free ok done
  · cases done
    exact .markedBefore hit held deleting
  · cases done
    exact .marked fins stamp hit held grown stamped updated

/-- **What an accepted request can have done.** -/
theorem served {request : Request} (filed : db.WellFiled)
    (done : serve chain who now db request = .ok db') : Effect chain who now db request db' := by
  cases request with
  | create k scope body => exact create_effect done
  | update k scope name body => exact update_effect done
  | updateSubresource k scope body => exact updateSubresource_effect done
  | patch k scope name apply => exact patch_effect filed done
  | delete k scope name orphan => exact delete_effect done

end

/-! ## Every effect is one write, and keeps the store well filed -/

section

variable {chain : Chain} {who : Option Identity} {now : Time} {db db' : DB} {request : Request}

variable {k : Kind} {body o : Obj k}

theorem bindNamespace_spec {ns : String} (done : bindNamespace body ns = .ok o) :
    o = withMeta body { metaOf body with ns := ns } := by
  simp only [bindNamespace] at done
  split at done
  · split at done <;> cases done
  cases done
  rfl

/-- An object that passes under a namespace of its kind's scope is identified. -/
theorem identified_of_validIdentity {scope : Scope k}
    (bound : bindNamespace body scope.ns = .ok o) (valid : validIdentity o = .ok ()) :
    Identified k (metaOf o) := by
  simp only [validIdentity, andThen_eq_ok_iff, require_eq_ok_iff, Bool.or_eq_true,
    beq_iff_eq] at valid
  obtain ⟨name, ns⟩ := valid
  refine ⟨?_, slash_notMem_of_isDNS1123Subdomain name, ?_⟩
  · rcases ns with empty | label
    · rw [empty]
      decide
    · simp only [isDNS1123Label, isDNS1123, Bool.and_eq_true] at label
      exact slash_notMem_of_isDNSLabel label.1
  intro clusterWide
  rw [bindNamespace_spec bound, metaOf_withMeta]
  exact scope.clusterWide clusterWide

theorem Effect.wellFiled (keeps : ∀ plugin ∈ chain, plugin.KeepsIdentity) (filed : db.WellFiled)
    (effect : Effect chain who now db request db') : db'.WellFiled := by
  cases effect with
  | created bound identified ok stored =>
    have eq := admitted_sameIdentity keeps ok
    have sender := identified_of_validIdentity bound identified
    refine filed.create ⟨?_, ?_, ?_⟩ stored
    · exact eq.ns ▸ sender.ns
    · exact eq.name ▸ sender.name
    · exact eq.ns ▸ sender.scope
  | updated sent hit ok stored => exact filed.update stored
  | reported bound hit ok stored => exact filed.updateStatus stored
  | marked fins stamp hit held grown stamped stored => exact filed.update stored
  | markedBefore hit held deleting => exact filed
  | erased hit free ok stored => exact filed.delete stored

theorem Effect.write (filed : db.WellFiled) (effect : Effect chain who now db request db') :
    db' = db ∨ ∃ (k : Kind) (key : String) (out : Option (Obj k)), DB.Write db db' k key out := by
  cases effect with
  | created bound identified ok stored => exact .inr ⟨_, _, _, DB.write_of_create stored⟩
  | updated sent hit ok stored => exact .inr ⟨_, _, _, DB.write_of_update stored⟩
  | reported bound hit ok stored =>
    exact .inr ⟨_, _, _, DB.write_of_updateStatus (fun _ hit => (filed _ _ _ hit).1) stored⟩
  | marked fins stamp hit held grown stamped stored =>
    exact .inr ⟨_, _, _, DB.write_of_update stored⟩
  | markedBefore hit held deleting => exact .inl rfl
  | erased hit free ok stored => exact .inr ⟨_, _, _, DB.write_of_delete stored⟩

end

end Horchestra.Requests
