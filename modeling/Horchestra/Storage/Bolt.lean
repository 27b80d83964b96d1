import Horchestra.Api.Kinds

/-!
# The versioned object store

One bucket per kind, keyed by `namespace/name`, and one version counter per kind.  A
write of an object replaces its core state and keeps the stored status; a write of the
status replaces only that and leaves the version alone.  A caller that sends a resource
version is refused unless it is the stored one, and a caller that sends none writes
unconditionally.

Each operation has one lemma that says what the store holds afterwards
(`create_spec`, `update_spec`, `updateStatus_spec`, `delete_spec`), and the layers above use
those and never look inside.
-/

namespace Horchestra.Storage

open Api

inductive StorageError where
  | notFound
  | alreadyExists
  | conflict
  | other (message : String)

/-- The database: the heads of every kind, the last version each kind has issued and
the number of objects created so far, from which the next uid is drawn. -/
structure DB where
  heads : (k : Kind) → Std.ExtTreeMap String (Obj k) := fun _ => ∅
  versions : Kind → Nat := fun _ => 0
  issued : Nat := 0

def recordKey (ns name : String) : String := ns ++ "/" ++ name

def keyOf {k : Kind} (o : Obj k) : String := recordKey (metaOf o).ns (metaOf o).name

namespace DB

variable {k : Kind}

def find (db : DB) (k : Kind) (key : String) : Option (Obj k) := (db.heads k)[key]?

def get (db : DB) (k : Kind) (ns name : String) : Option (Obj k) := db.find k (recordKey ns name)

def list (db : DB) (k : Kind) : List (Obj k) := (db.heads k).toList.map Prod.snd

def setBucket (db : DB) (k : Kind) (bucket : Std.ExtTreeMap String (Obj k)) : DB :=
  { db with heads := Function.update db.heads k bucket }

def putHead (db : DB) (key : String) (o : Obj k) : DB := db.setBucket k ((db.heads k).insert key o)

def nextRV (db : DB) (k : Kind) : DB :=
  { db with versions := Function.update db.versions k (db.versions k + 1) }

def newUID (db : DB) : String := "uid-" ++ Nat.repr db.issued

/-! ## The operations -/

/-- A version as it is written into an object. -/
def formatVersion (n : Nat) : String := Nat.repr n

/-- What an object reads back as: an application status without phase and message is
not serialized at all. -/
def persisted : {k : Kind} → Obj k → Obj k
  | .application, o =>
    if (Application.status o).phase = "" ∧ (Application.status o).message = "" then
      { (o : Application) with status := {} }
    else o
  | .applicationSet, o | .persistentVolume, o | .secret, o | .service, o | .ns, o | .node, o
  | .role, o | .roleBinding, o | .clusterRole, o | .clusterRoleBinding, o
  | .certificateSigningRequest, o | .secretStore, o => o

/-- Stores a new object under a fresh uid and the kind's next version. -/
def create (db : DB) (now : Time) (o : Obj k) : Except StorageError (Obj k × DB) :=
  if (metaOf o).name = "" then .error (.other "bolt: metadata.name is required")
  else
    match db.find k (keyOf o) with
    | some _ => .error .alreadyExists
    | none =>
      let stored := withMeta (persisted o) { metaOf o with
        uid := db.newUID
        resourceVersion := formatVersion (db.versions k + 1)
        generation := 1
        creationTimestamp := some now }
      .ok (stored, { (db.nextRV k).putHead (keyOf o) stored with issued := db.issued + 1 })

/-- Optimistic concurrency: a version the caller sends must be the stored one. -/
def checkResourceVersion (want stored : ObjectMeta) : Bool :=
  want.resourceVersion == "" || want.resourceVersion == stored.resourceVersion

/-- The core state of `o` over the stored object: identity, creation time and status stay
as stored, the version advances, and the generation advances with the desired state. -/
def mergeCore (db : DB) (o stored : Obj k) : Obj k :=
  withMeta (withStatusOf o stored) { metaOf o with
    uid := (metaOf stored).uid
    creationTimestamp := (metaOf stored).creationTimestamp
    resourceVersion := formatVersion (db.versions k + 1)
    generation := (metaOf stored).generation + if sameDesired o stored then 0 else 1 }

def update (db : DB) (o : Obj k) : Except StorageError (Obj k × DB) :=
  match db.find k (keyOf o) with
  | none => .error .notFound
  | some stored =>
    if checkResourceVersion (metaOf o) (metaOf stored) then
      let merged := db.mergeCore o stored
      .ok (merged, (db.nextRV k).putHead (keyOf o) merged)
    else .error .conflict

def hasStatusField : {k : Kind} → Obj k → Bool
  | .application, o => !((Application.status o).phase == "" && (Application.status o).message == "")
  | .applicationSet, _ | .node, _ | .certificateSigningRequest, _ => true
  | _, _ => false

/-- Replaces an object's status alone; the version line does not move. -/
def updateStatus (db : DB) (o : Obj k) : Except StorageError (Obj k × DB) :=
  if hasStatusField o then
    match db.find k (keyOf o) with
    | none => .error .notFound
    | some stored =>
      if checkResourceVersion (metaOf o) (metaOf stored) then
        let merged := withStatusOf stored o
        .ok (merged, db.putHead (keyOf o) merged)
      else .error .conflict
  else .error (.other "bolt: object has no field \"status\" for subresource")

def delete (db : DB) (k : Kind) (ns name : String) : Except StorageError DB :=
  match db.get k ns name with
  | none => .error .notFound
  | some _ => .ok (db.setBucket k ((db.heads k).erase (recordKey ns name)))

/-! ## What a write changes -/

/-- Between two databases, the record of one key has become `o` (or is gone) and every
other record is as it was. -/
structure Filed (db db' : DB) (k : Kind) (key : String) (o : Option (Obj k)) : Prop where
  here : db'.find k key = o
  elsewhere : ∀ key', key' ≠ key → db'.find k key' = db.find k key'
  otherKinds : ∀ k' key', k' ≠ k → db'.find k' key' = db.find k' key'

variable {db db' : DB} {key ns name : String} {wrote : Option (Obj k)}

/-- What a write leaves alone, and the record it wrote, are all the records there are after it. -/
theorem Filed.forall_find_apart (filed : Filed db db' k key wrote)
    (holds : (k : Kind) → String → Obj k → Prop)
    (kept : ∀ k' key' o, (k' = k → key' ≠ key) → db.find k' key' = some o → holds k' key' o)
    (eq : ∀ o ∈ wrote, holds k key o) :
    ∀ k' key' o, db'.find k' key' = some o → holds k' key' o := by
  intro k' key' o hit
  by_cases kindEq : k' = k
  · subst kindEq
    by_cases keyEq : key' = key
    · subst keyEq
      rw [filed.here] at hit
      exact eq o hit
    rw [filed.elsewhere _ keyEq] at hit
    exact kept _ _ _ (fun _ => keyEq) hit
  rw [filed.otherKinds _ _ kindEq] at hit
  exact kept _ _ _ (fun same => absurd same kindEq) hit

theorem Filed.forall_find (filed : Filed db db' k key wrote)
    (holds : (k : Kind) → String → Obj k → Prop)
    (kept : ∀ k' key' o, db.find k' key' = some o → holds k' key' o)
    (eq : ∀ o ∈ wrote, holds k key o) :
    ∀ k' key' o, db'.find k' key' = some o → holds k' key' o :=
  filed.forall_find_apart holds (fun k' key' o _ => kept k' key' o) eq

theorem filed_putHead (db : DB) (key : String) (o : Obj k) :
    Filed db (db.putHead key o) k key (some o) where
  here := by simp [find, putHead, setBucket]
  elsewhere := by
    intro key' ne
    simp [find, putHead, setBucket, Std.ExtTreeMap.getElem?_insert, Ne.symm ne]
  otherKinds := by
    intro k' key' ne
    simp [find, putHead, setBucket, Function.update_of_ne ne]

theorem filed_erase (db : DB) (key : String) :
    Filed db (db.setBucket k ((db.heads k).erase key)) k key none where
  here := by simp [find, setBucket]
  elsewhere := by
    intro key' ne
    simp [find, setBucket, Std.ExtTreeMap.getElem?_erase, Ne.symm ne]
  otherKinds := by
    intro k' key' ne
    simp [find, setBucket, Function.update_of_ne ne]

variable {o out stored : Obj k}

theorem mem_list : o ∈ db.list k ↔ ∃ key, db.find k key = some o := by
  unfold list find
  simp only [List.mem_map, Prod.exists, Std.ExtTreeMap.mem_toList_iff_getElem?_eq_some]
  constructor
  · rintro ⟨key, v, hit, rfl⟩
    exact ⟨key, hit⟩
  rintro ⟨key, hit⟩
  exact ⟨key, o, hit, rfl⟩

theorem list_congr (eq : ∀ key, db'.find k key = db.find k key) : db'.list k = db.list k := by
  have equal : db'.heads k = db.heads k := Std.ExtTreeMap.ext_getElem? fun key => eq key
  unfold list
  rw [equal]

theorem Filed.list_otherKinds {o : Option (Obj k)} (filed : Filed db db' k key o) {k' : Kind}
    (ne : k' ≠ k) : db'.list k' = db.list k' :=
  list_congr fun key' => filed.otherKinds k' key' ne

theorem Filed.mem_list_cases (filed : Filed db db' k key wrote) (mem : o ∈ db'.list k) :
    o ∈ db.list k ∨ wrote = some o := by
  obtain ⟨key', hit⟩ := mem_list.1 mem
  by_cases keyEq : key' = key
  · subst keyEq
    exact .inr (filed.here.symm.trans hit)
  rw [filed.elsewhere _ keyEq] at hit
  exact .inl (mem_list.2 ⟨key', hit⟩)

/-! ## One lemma per operation -/

theorem create_spec {now : Time} (done : db.create now o = .ok (out, db')) :
    (metaOf o).name ≠ "" ∧ db.find k (keyOf o) = none ∧
      out = withMeta (persisted o) { metaOf o with
        uid := db.newUID
        resourceVersion := formatVersion (db.versions k + 1)
        generation := 1
        creationTimestamp := some now } ∧
      Filed db db' k (keyOf o) (some out) ∧
      db'.versions = Function.update db.versions k (db.versions k + 1) ∧
      db'.issued = db.issued + 1 := by
  unfold create at done
  split at done
  · cases done
  rename_i named
  split at done
  · cases done
  rename_i gone
  simp only [Except.ok.injEq, Prod.mk.injEq] at done
  obtain ⟨rfl, rfl⟩ := done
  have filed := filed_putHead (db.nextRV k) (keyOf o) (withMeta (persisted o) { metaOf o with
    uid := db.newUID
    resourceVersion := formatVersion (db.versions k + 1)
    generation := 1
    creationTimestamp := some now })
  exact ⟨named, gone, rfl, ⟨filed.here, filed.elsewhere, filed.otherKinds⟩, rfl, rfl⟩

theorem update_spec (done : db.update o = .ok (out, db')) :
    ∃ stored, db.find k (keyOf o) = some stored ∧
      checkResourceVersion (metaOf o) (metaOf stored) = true ∧
      out = db.mergeCore o stored ∧
      Filed db db' k (keyOf o) (some out) ∧
      db'.versions = Function.update db.versions k (db.versions k + 1) ∧
      db'.issued = db.issued := by
  unfold update at done
  split at done
  · cases done
  rename_i stored hit
  split at done
  next cur =>
    simp only [Except.ok.injEq, Prod.mk.injEq] at done
    obtain ⟨rfl, rfl⟩ := done
    have filed := filed_putHead (db.nextRV k) (keyOf o) (db.mergeCore o stored)
    exact ⟨stored, hit, cur, rfl, ⟨filed.here, filed.elsewhere, filed.otherKinds⟩, rfl, rfl⟩
  · cases done

theorem update_of_present (hit : db.find k (keyOf o) = some stored)
    (cur : (metaOf o).resourceVersion = (metaOf stored).resourceVersion) :
    ∃ db', db.update o = .ok (db.mergeCore o stored, db') := by
  simp [update, hit, checkResourceVersion, cur]

theorem updateStatus_of_present (carried : hasStatusField o = true)
    (hit : db.find k (keyOf o) = some stored)
    (cur : (metaOf o).resourceVersion = (metaOf stored).resourceVersion) :
    ∃ db', db.updateStatus o = .ok (withStatusOf stored o, db') := by
  simp [updateStatus, carried, hit, checkResourceVersion, cur]

theorem delete_of_present (hit : db.get k ns name = some stored) :
    ∃ db', db.delete k ns name = .ok db' := by
  simp [delete, hit]

theorem updateStatus_spec (done : db.updateStatus o = .ok (out, db')) :
    ∃ stored, db.find k (keyOf o) = some stored ∧
      checkResourceVersion (metaOf o) (metaOf stored) = true ∧
      out = withStatusOf stored o ∧
      Filed db db' k (keyOf o) (some out) ∧
      db'.versions = db.versions ∧ db'.issued = db.issued := by
  unfold updateStatus at done
  split at done
  · split at done
    · cases done
    next stored hit =>
      split at done
      next cur =>
        simp only [Except.ok.injEq, Prod.mk.injEq] at done
        obtain ⟨rfl, rfl⟩ := done
        exact ⟨stored, hit, cur, rfl, filed_putHead db _ _, rfl, rfl⟩
      · cases done
  · cases done

theorem delete_spec (done : db.delete k ns name = .ok db') :
    (∃ stored, db.get k ns name = some stored) ∧ Filed db db' k (recordKey ns name) none ∧
      db'.versions = db.versions ∧ db'.issued = db.issued := by
  unfold delete at done
  split at done
  · cases done
  rename_i stored hit
  simp only [Except.ok.injEq] at done
  subst done
  exact ⟨⟨stored, hit⟩, filed_erase db _, rfl, rfl⟩

end DB

end Horchestra.Storage
