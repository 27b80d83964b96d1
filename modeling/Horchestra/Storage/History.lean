import Mathlib.Data.List.DropRight
import Horchestra.Foundations.Transitions
import Horchestra.Storage.Versions

/-!
# Revisions

Every write of an object's core state is kept as a revision, filed under the object's uid and its
version, up to a number of revisions per object; a kind may forbid keeping any.  A rollback writes a
kept revision again as a new version.  Deleting an object forgets its revisions.

The log of core writes is kept beside the store, and `Represented` says what the store holds in terms
of it: a head is the newest write of its uid with a status of its own, and its history the last few
writes of it.  Each operation is one `Change`, and a change keeps the representation
(`Represented.of_change`), so that counters, histories and heads fit together in every run
(`store_is_represented`).
-/

namespace Horchestra.Storage

open Function Api
open Foundations.Transitions (run exists_of_run Reachable)

/-! ## Core state and status -/

section

variable {k : Kind} {a b c : Obj k}

/-- Two objects differ in their status at most. -/
def SameCore (a b : Obj k) : Prop := withStatusOf a b = b

/-- The status of an object is that of another one. -/
def SameStatus (a b : Obj k) : Prop := withStatusOf a b = a

theorem SameCore.refl (a : Obj k) : SameCore a a := by
  unfold SameCore
  cases k <;> rfl

theorem SameCore.symm (eq : SameCore a b) : SameCore b a := by
  unfold SameCore at *
  rw [← eq]
  cases k <;> rfl

theorem SameCore.trans (first : SameCore a b) (second : SameCore b c) : SameCore a c := by
  unfold SameCore at *
  rw [← second, ← first]
  cases k <;> rfl

theorem sameCore_withStatusOf (a b : Obj k) : SameCore a (withStatusOf a b) := by
  unfold SameCore
  cases k <;> rfl

theorem SameCore.metaOf_eq (eq : SameCore a b) : metaOf b = metaOf a := by
  rw [← eq, metaOf_withStatusOf]

theorem sameDesired_of_sameCore (eq : SameCore a b) : sameDesired a b = true := by
  unfold SameCore at eq
  simp [sameDesired, eq]

theorem sameDesired_merged (m : ObjectMeta) :
    sameDesired (withMeta (withStatusOf a b) m) b = sameDesired a b := by
  unfold sameDesired
  cases k <;> rfl

theorem sameStatus_merged (m : ObjectMeta) : SameStatus (withMeta (withStatusOf a b) m) b := by
  unfold SameStatus
  cases k <;> rfl

end

/-! ## The store with its revisions -/

def maxHistory : Nat := 10

/-- The kinds whose superseded revisions are never kept. -/
def noHistory : Kind → Bool
  | .secret => true
  | _ => false

/-- A write of an object's core state. -/
structure Revision (k : Kind) where
  uid : String
  version : Nat
  object : Obj k

/-- The heads, the kept revisions of every uid in the order of their keys, which is that of the
versions, and the log of core writes. -/
structure Store where
  db : DB := {}
  history : (k : Kind) → String → List (Nat × Obj k) := fun _ _ => []
  commits : (k : Kind) → List (Revision k) := fun _ => []

section

variable {k : Kind}

def putRevision (version : Nat) (o : Obj k) (revisions : List (Nat × Obj k)) : List (Nat × Obj k) :=
  revisions.filter (·.1 < version) ++ (version, o) :: revisions.filter (version < ·.1)

def pruneHistory (revisions : List (Nat × Obj k)) : List (Nat × Obj k) := revisions.rtake maxHistory

def Store.setHistory (s : Store) (k : Kind) (uid : String) (revisions : List (Nat × Obj k)) :
    (k : Kind) → String → List (Nat × Obj k) :=
  update s.history k (update (s.history k) uid revisions)

/-- Records a head that was just written as a revision of a uid. -/
def Store.commit (s : Store) (db' : DB) (uid : String) (o : Obj k) : Store where
  db := db'
  history :=
    if noHistory k then s.history
    else s.setHistory k uid (pruneHistory (putRevision (db'.versions k) o (s.history k uid)))
  commits := update s.commits k (s.commits k ++ [⟨uid, db'.versions k, o⟩])

def Store.create (s : Store) (now : Time) (o : Obj k) : Except StorageError Store :=
  (s.db.create now o).map fun (out, db') => s.commit db' (metaOf out).uid out

def Store.update (s : Store) (o : Obj k) : Except StorageError Store :=
  (s.db.update o).map fun (out, db') => s.commit db' (metaOf out).uid out

/-- A subresource is not a version of the object: the head alone is written. -/
def Store.updateStatus (s : Store) (o : Obj k) : Except StorageError Store :=
  (s.db.updateStatus o).map fun (_, db') => { s with db := db' }

/-- The core state of a revision over the current head. -/
def Store.restored (s : Store) (snap cur : Obj k) : Obj k :=
  withMeta (withStatusOf snap cur) { metaOf snap with
    resourceVersion := DB.formatVersion (s.db.versions k + 1)
    generation := (metaOf cur).generation + if sameDesired snap cur then 0 else 1 }

/-- Writes the revision of a uid and version again, as a new version. -/
def Store.rollback (s : Store) (k : Kind) (uid : String) (targetRV : Int) :
    Except StorageError Store :=
  if uid = "" then .error (.other "bolt: uid is required")
  else if targetRV ≤ 0 then .error .notFound
  else if noHistory k then
    .error (.other ("bolt: " ++ k.name ++ " retains no revisions, so it cannot be rolled back"))
  else
    match (s.history k uid).lookup targetRV.toNat with
    | none => .error .notFound
    | some snap =>
      match s.db.find k (keyOf snap) with
      | none => .error .notFound
      | some cur =>
        let result := s.restored snap cur
        .ok (s.commit ((s.db.nextRV k).putHead (keyOf snap) result) uid result)

def Store.delete (s : Store) (k : Kind) (ns name : String) : Except StorageError Store :=
  match s.db.get k ns name with
  | none => .error .notFound
  | some head => (s.db.delete k ns name).map fun db' =>
    { s with db := db', history := s.setHistory k (metaOf head).uid [] }

end

inductive Operation where
  | create (k : Kind) (now : Time) (o : Obj k)
  | update (k : Kind) (o : Obj k)
  | updateStatus (k : Kind) (o : Obj k)
  | rollback (k : Kind) (uid : String) (targetRV : Int)
  | delete (k : Kind) (ns name : String)

/-- The operations that write the core state of a stored object. -/
def Operation.replaces : Operation → Bool
  | .update _ _ | .rollback _ _ _ => true
  | _ => false

def Operation.target (s : Store) : Operation → Kind × String
  | .create k _ o | .update k o | .updateStatus k o => (k, keyOf o)
  | .rollback k uid targetRV => (k, ((s.history k uid).lookup targetRV.toNat).elim "" keyOf)
  | .delete k ns name => (k, recordKey ns name)

def Operation.body (s : Store) : Operation → Option ObjectMeta
  | .update _ o => some (metaOf o)
  | .rollback k uid targetRV => ((s.history k uid).lookup targetRV.toNat).map metaOf
  | _ => none

def Store.perform (s : Store) : Operation → Except StorageError Store
  | .create _ now o => s.create now o
  | .update _ o => s.update o
  | .updateStatus _ o => s.updateStatus o
  | .rollback k uid targetRV => s.rollback k uid targetRV
  | .delete k ns name => s.delete k ns name

/-- An operation that fails leaves the store as it was, so a run is one of those that succeed. -/
def Store.step (s : Store) (operation : Operation) : Option Store := (s.perform operation).toOption

def anyOperation (_ : Store) (_ : Operation) : Bool := true

/-- The core writes of an object. -/
def Store.revisionsOf (s : Store) (k : Kind) (uid : String) : List (Revision k) :=
  (s.commits k).filter (·.uid = uid)

def lastRevisions {k : Kind} (revisions : List (Revision k)) : List (Nat × Obj k) :=
  (revisions.map fun revision => (revision.version, revision.object)).rtake maxHistory

def DB.Live (db : DB) (k : Kind) (uid : String) : Prop :=
  ∃ key o, db.find k key = some o ∧ (metaOf o).uid = uid

/-! ## The representation -/

structure Represented (s : Store) : Prop where
  issued : s.db.Issued
  own : ∀ (k : Kind) (key : String) (o : Obj k), s.db.find k key = some o → key = keyOf o
  increasing : ∀ k, (s.commits k).Pairwise fun earlier later => earlier.version < later.version
  known : ∀ k, ∀ revision ∈ s.commits k, revision.version ≤ s.db.versions k ∧
    (metaOf revision.object).resourceVersion = DB.formatVersion revision.version ∧
    (metaOf revision.object).uid = revision.uid ∧
    ∃ n < s.db.issued, revision.uid = "uid-" ++ Nat.repr n
  head : ∀ (k : Kind) (key : String) (o : Obj k), s.db.find k key = some o →
    (∀ revision ∈ s.revisionsOf k (metaOf o).uid, keyOf revision.object = key) ∧
      ∃ newest, (s.revisionsOf k (metaOf o).uid).getLast? = some newest ∧ SameCore newest.object o
  kept : ∀ (k : Kind) (key : String) (o : Obj k), s.db.find k key = some o → noHistory k = false →
    s.history k (metaOf o).uid = lastRevisions (s.revisionsOf k (metaOf o).uid)
  live : ∀ k uid, s.history k uid ≠ [] → noHistory k = false ∧ s.db.Live k uid

/-- What one operation does to the store. -/
inductive Change (s : Store) : Operation → Store → Prop
  | created {k : Kind} {now : Time} {o out : Obj k} {db' : DB} (target : keyOf o = keyOf out)
      (write : DB.Write s.db db' k (keyOf out) (some out))
      (absent : s.db.find k (keyOf out) = none)
      (advanced : db'.versions = update s.db.versions k (s.db.versions k + 1))
      (version : (metaOf out).resourceVersion = DB.formatVersion (s.db.versions k + 1))
      (generation : (metaOf out).generation = 1) :
      Change s (.create k now o) (s.commit db' (metaOf out).uid out)
  | replaced {operation : Operation} {k : Kind} {stored out : Obj k} {db' : DB}
      (replaces : operation.replaces = true) (target : operation.target s = (k, keyOf out))
      (write : DB.Write s.db db' k (keyOf out) (some out))
      (present : s.db.find k (keyOf out) = some stored)
      (advanced : db'.versions = update s.db.versions k (s.db.versions k + 1))
      (version : (metaOf out).resourceVersion = DB.formatVersion (s.db.versions k + 1))
      (uid : (metaOf out).uid = (metaOf stored).uid)
      (generation : (metaOf out).generation =
        (metaOf stored).generation + if sameDesired out stored then 0 else 1)
      (status : SameStatus out stored)
      (body : ∃ m, operation.body s = some m ∧ (metaOf out).ns = m.ns ∧ (metaOf out).labels = m.labels) :
      Change s operation (s.commit db' (metaOf out).uid out)
  | status {k : Kind} {o stored : Obj k} {db' : DB}
      (write : DB.Write s.db db' k (keyOf o) (some (withStatusOf stored o)))
      (present : s.db.find k (keyOf o) = some stored) :
      Change s (.updateStatus k o) { s with db := db' }
  | erased {k : Kind} {ns name : String} {stored : Obj k} {db' : DB}
      (write : DB.Write s.db db' k (recordKey ns name) none)
      (present : s.db.find k (recordKey ns name) = some stored) :
      Change s (.delete k ns name)
        { s with db := db', history := s.setHistory k (metaOf stored).uid [] }

/-! ## Every operation is a change -/

section

variable {s s' : Store} {k : Kind}

theorem map_eq_ok_iff {α β ε : Type} {x : Except ε α} {f : α → β} {y : β} :
    x.map f = .ok y ↔ ∃ a, x = .ok a ∧ f a = y := by
  cases x <;> simp [Except.map]

variable {uid : String}

theorem Represented.mem_history (represented : Represented s) {e : Nat × Obj k}
    (mem : e ∈ s.history k uid) :
    ∃ head : Obj k, s.db.find k (keyOf e.2) = some head ∧ (metaOf head).uid = uid ∧
      (metaOf e.2).uid = uid := by
  obtain ⟨keeps, key, head, hit, rfl⟩ := represented.live k uid (List.ne_nil_of_mem mem)
  rw [represented.kept k key head hit keeps] at mem
  obtain ⟨rev, inRevisions, rfl⟩ := List.mem_map.1 (List.mem_of_mem_drop mem)
  have keyEq := (represented.head k key head hit).1 rev inRevisions
  obtain ⟨inCommits, uidEq⟩ := List.mem_filter.1 inRevisions
  obtain ⟨-, -, uid, -⟩ := represented.known k rev inCommits
  exact ⟨head, keyEq ▸ hit, rfl, uid.trans (of_decide_eq_true uidEq)⟩

theorem change_of_rollback (represented : Represented s) {targetRV : Int}
    (done : s.rollback k uid targetRV = .ok s') : Change s (.rollback k uid targetRV) s' := by
  unfold Store.rollback at done
  split at done
  · cases done
  split at done
  · cases done
  split at done
  · cases done
  split at done
  · cases done
  rename_i snap found
  split at done
  · cases done
  rename_i cur hit
  obtain ⟨pre, after, listed, -⟩ := List.lookup_eq_some_iff.1 found
  have mem : (targetRV.toNat, snap) ∈ s.history k uid := by simp [listed]
  obtain ⟨head, stored, headUid, snapUid⟩ := represented.mem_history mem
  cases hit.symm.trans stored
  have key : keyOf (s.restored snap cur) = keyOf snap := by simp [keyOf, Store.restored]
  have uidEq : (metaOf (s.restored snap cur)).uid = (metaOf cur).uid := by
    simp only [Store.restored, metaOf_withMeta]
    exact snapUid.trans headUid.symm
  have filed := DB.filed_putHead (s.db.nextRV k) (keyOf snap) (s.restored snap cur)
  have write : DB.Write s.db ((s.db.nextRV k).putHead (keyOf snap) (s.restored snap cur)) k
      (keyOf (s.restored snap cur)) (some (s.restored snap cur)) := by
    rw [key]
    refine .of_some ⟨filed.here, filed.elsewhere, filed.otherKinds⟩ key.symm
      (DB.versions_le_update s.db k) le_rfl (.inr ⟨by simp [Store.restored], ?_⟩)
      (.inl ⟨cur, hit, uidEq⟩)
    simp [DB.putHead, DB.setBucket, DB.nextRV]
  cases done
  have isUid : (metaOf (s.restored snap cur)).uid = uid := uidEq.trans headUid
  have change : Change s (.rollback k uid targetRV) (s.commit _ _ (s.restored snap cur)) :=
    .replaced rfl (by simp [Operation.target, found, key]) write (key ▸ hit) rfl (by simp [Store.restored]) uidEq
      (by simp [Store.restored, sameDesired_merged]) (sameStatus_merged _)
      ⟨metaOf snap, by simp [Operation.body, found], by simp [Store.restored]⟩
  rwa [isUid] at change

/-- **Every operation that succeeds is a change.** -/
theorem change_of_perform (represented : Represented s) {operation : Operation}
    (done : s.perform operation = .ok s') : Change s operation s' := by
  cases operation with
  | create k now o =>
    obtain ⟨⟨out, db'⟩, new, rfl⟩ := map_eq_ok_iff.1 done
    have write := DB.write_of_create new
    obtain ⟨-, gone, isOut, -, advanced, -⟩ := DB.create_spec new
    have key : keyOf o = keyOf out := by simp [isOut, keyOf]
    rw [key] at write gone
    exact .created key write gone advanced (by simp [isOut]) (by simp [isOut])
  | update k o =>
    obtain ⟨⟨out, db'⟩, updated, rfl⟩ := map_eq_ok_iff.1 done
    have write := DB.write_of_update updated
    obtain ⟨stored, hit, -, isOut, -, advanced, -⟩ := DB.update_spec updated
    have key : keyOf o = keyOf out := by simp [isOut, keyOf, DB.mergeCore]
    rw [key] at write hit
    refine .replaced rfl (congrArg _ key) write hit advanced (by simp [isOut, DB.mergeCore])
      (by simp [isOut, DB.mergeCore]) ?_ ?_ ⟨metaOf o, rfl, by simp [isOut, DB.mergeCore]⟩
    · simp [isOut, DB.mergeCore, sameDesired_merged]
    rw [isOut]
    exact sameStatus_merged _
  | updateStatus k o =>
    obtain ⟨⟨out, db'⟩, wrote, rfl⟩ := map_eq_ok_iff.1 done
    obtain ⟨stored, hit, -, rfl, -⟩ := DB.updateStatus_spec wrote
    exact .status (DB.write_of_updateStatus (represented.own k (keyOf o)) wrote) hit
  | rollback k uid targetRV => exact change_of_rollback represented done
  | delete k ns name =>
    simp only [Store.perform, Store.delete] at done
    split at done
    · cases done
    rename_i head hit
    obtain ⟨db', deleted, rfl⟩ := map_eq_ok_iff.1 done
    exact .erased (DB.write_of_delete deleted) hit

end

/-! ## A change keeps the representation -/

section

variable {s : Store} {k k' : Kind} {db' : DB} {uid uid' : String} {out : Obj k}

theorem rtake_rtake_append {α : Type} (n : Nat) (xs ys : List α) :
    (xs.rtake n ++ ys).rtake n = (xs ++ ys).rtake n := by
  simp only [List.rtake_eq_reverse_take_reverse, List.reverse_append, List.reverse_reverse,
    List.take_append, List.take_take]
  congr 4
  omega

variable {revisions : List (Nat × Obj k)}

theorem setHistory_apart (ne : k' = k → uid' ≠ uid) :
    s.setHistory k uid revisions k' uid' = s.history k' uid' := by
  by_cases same : k' = k
  · subst same
    simp [Store.setHistory, update_of_ne (ne rfl)]
  · simp [Store.setHistory, update_of_ne same]

theorem setHistory_self : s.setHistory k uid revisions k uid = revisions := by
  simp [Store.setHistory]

theorem history_commit_apart (ne : k' = k → uid' ≠ uid) :
    (s.commit db' uid out).history k' uid' = s.history k' uid' := by
  simp only [Store.commit]
  split
  · rfl
  · exact setHistory_apart ne

theorem history_commit_self (keeps : noHistory k = false) : (s.commit db' uid out).history k uid =
      pruneHistory (putRevision (db'.versions k) out (s.history k uid)) := by
  simp only [Store.commit, keeps, Bool.false_eq_true, if_false]
  exact setHistory_self

theorem revisionsOf_commit_apart (ne : k' = k → uid' ≠ uid) :
    (s.commit db' uid out).revisionsOf k' uid' = s.revisionsOf k' uid' := by
  by_cases same : k' = k
  · subst same
    simp [Store.revisionsOf, Store.commit, List.filter_append, (ne rfl).symm]
  · simp [Store.revisionsOf, Store.commit, update_of_ne same]

theorem revisionsOf_commit_self : (s.commit db' uid out).revisionsOf k uid =
    s.revisionsOf k uid ++ [⟨uid, db'.versions k, out⟩] := by
  simp [Store.revisionsOf, Store.commit, List.filter_append]

/-- The newest revision is filed last, and the oldest is dropped. -/
theorem pruneHistory_putRevision {revisions : List (Revision k)} {version : Nat}
    (older : ∀ rev ∈ revisions, rev.version < version) :
    pruneHistory (putRevision version out (lastRevisions revisions)) =
      lastRevisions (revisions ++ [⟨uid, version, out⟩]) := by
  have below : ∀ e ∈ lastRevisions revisions, e.1 < version := by
    intro e mem
    obtain ⟨rev, inRevisions, rfl⟩ := List.mem_map.1 (List.mem_of_mem_drop mem)
    exact older rev inRevisions
  have all : (lastRevisions revisions).filter (·.1 < version) = lastRevisions revisions :=
    List.filter_eq_self.2 fun e mem => decide_eq_true (below e mem)
  have none : (lastRevisions revisions).filter (version < ·.1) = [] := by
    refine List.filter_eq_nil_iff.2 fun e mem => ?_
    simpa using (below e mem).le
  rw [pruneHistory, putRevision, all, none, lastRevisions, lastRevisions, rtake_rtake_append,
    List.map_append, List.map_singleton]

variable {key : String} {wrote : Option (Obj k)}

theorem DB.Live.of_filed {db : DB} (live : db.Live k' uid) (filed : DB.Filed db db' k key wrote) :
    db'.Live k' uid ∨ k' = k ∧ ∃ stored : Obj k, db.find k key = some stored ∧
      (metaOf stored).uid = uid := by
  obtain ⟨key', o, hit, isUid⟩ := live
  by_cases kindEq : k' = k
  · subst kindEq
    by_cases keyEq : key' = key
    · subst keyEq
      exact .inr ⟨rfl, o, hit, isUid⟩
    · exact .inl ⟨key', o, (filed.elsewhere _ keyEq).trans hit, isUid⟩
  · exact .inl ⟨key', o, (filed.otherKinds _ _ kindEq).trans hit, isUid⟩

variable (represented : Represented s)

include represented

theorem Represented.uid_ne {key' : String} {o : Obj k'}
    (write : DB.Write s.db db' k key wrote) (isWritten : out ∈ wrote)
    (ne : k' = k → key' ≠ key) (hit : s.db.find k' key' = some o) :
    k' = k → (metaOf o).uid ≠ (metaOf out).uid := by
  rintro rfl eq
  exact ne rfl (write.key_of_uid represented.issued isWritten hit eq.symm).symm

theorem Represented.own_of_write (write : DB.Write s.db db' k key wrote) :
    ∀ (k' : Kind) (key' : String) (o : Obj k'), db'.find k' key' = some o → key' = keyOf o :=
  write.filed.forall_find _ represented.own write.own

theorem Represented.known_of_write (write : DB.Write s.db db' k key wrote) :
    ∀ k', ∀ rev ∈ s.commits k', rev.version ≤ db'.versions k' ∧
      (metaOf rev.object).resourceVersion = DB.formatVersion rev.version ∧
      (metaOf rev.object).uid = rev.uid ∧
      ∃ n < db'.issued, rev.uid = "uid-" ++ Nat.repr n := by
  intro k' rev mem
  obtain ⟨bound, stamped, uid, n, count, isUid⟩ := represented.known k' rev mem
  exact ⟨bound.trans (write.versions k'), stamped, uid, n, count.trans_le write.issued, isUid⟩

theorem Represented.commit
    (write : DB.Write s.db db' k (keyOf out) (some out))
    (advanced : db'.versions = update s.db.versions k (s.db.versions k + 1))
    (ver : (metaOf out).resourceVersion = DB.formatVersion (s.db.versions k + 1))
    (keys : ∀ rev ∈ s.revisionsOf k (metaOf out).uid, keyOf rev.object = keyOf out)
    (pre : noHistory k = false → s.history k (metaOf out).uid =
      lastRevisions (s.revisionsOf k (metaOf out).uid))
    (eq : ∀ stored, s.db.find k (keyOf out) = some stored → (metaOf out).uid = (metaOf stored).uid) :
    Represented (s.commit db' (metaOf out).uid out) := by
  have next : db'.versions k = s.db.versions k + 1 := by simp [advanced]
  have issued := represented.issued.of_write write
  have older : ∀ rev ∈ s.commits k, rev.version < db'.versions k := by
    intro rev mem
    have bound := (represented.known k rev mem).1
    omega
  refine ⟨issued, represented.own_of_write write, ?_, ?_, ?_, ?_, ?_⟩
  · intro k'
    by_cases kindEq : k' = k
    · subst kindEq
      simp only [Store.commit, update_self]
      exact List.pairwise_append.2 ⟨represented.increasing k', List.pairwise_singleton _ _,
        fun rev mem _ isNew => List.mem_singleton.1 isNew ▸ older rev mem⟩
    simp only [Store.commit, update_of_ne kindEq]
    exact represented.increasing k'
  · intro k' rev mem
    by_cases kindEq : k' = k
    · subst kindEq
      simp only [Store.commit, update_self, List.mem_append, List.mem_singleton] at mem
      rcases mem with inCommits | rfl
      · exact represented.known_of_write write k' rev inCommits
      · exact ⟨le_rfl, next ▸ ver, rfl, issued.uid k' _ out write.filed.here⟩
    simp only [Store.commit, update_of_ne kindEq] at mem
    exact represented.known_of_write write k' rev mem
  · refine write.filed.forall_find_apart _ ?_ ?_
    · intro k' key' o apart hit
      rw [revisionsOf_commit_apart (represented.uid_ne write rfl apart hit)]
      exact represented.head k' key' o hit
    · intro o wrote
      cases wrote
      rw [revisionsOf_commit_self]
      refine ⟨fun rev mem => ?_, _, List.getLast?_concat, .refl out⟩
      rcases List.mem_append.1 mem with past | isNew
      · exact keys rev past
      · rw [List.mem_singleton.1 isNew]
  · refine write.filed.forall_find_apart _ ?_ ?_
    · intro k' key' o apart hit keeps
      have ne := represented.uid_ne write rfl apart hit
      rw [history_commit_apart ne, revisionsOf_commit_apart ne]
      exact represented.kept k' key' o hit keeps
    · intro o wrote keeps
      cases wrote
      rw [history_commit_self keeps, revisionsOf_commit_self, pre keeps]
      exact pruneHistory_putRevision fun rev mem => older rev (List.mem_of_mem_filter mem)
  · intro k' uid' nonempty
    by_cases apart : k' = k → uid' ≠ (metaOf out).uid
    · rw [history_commit_apart apart] at nonempty
      obtain ⟨keeps, live⟩ := represented.live k' uid' nonempty
      refine ⟨keeps, ?_⟩
      rcases live.of_filed write.filed with live | ⟨rfl, stored, hit, rfl⟩
      · exact live
      · exact absurd (eq stored hit).symm (apart rfl)
    push Not at apart
    obtain ⟨rfl, rfl⟩ := apart
    refine ⟨?_, _, out, write.filed.here, rfl⟩
    by_contra forbids
    have isNone : s.history k' (metaOf out).uid = [] := by
      by_contra some
      exact forbids (represented.live k' _ some).1
    simp only [Bool.not_eq_false] at forbids
    simp [Store.commit, forbids, isNone] at nonempty

variable {stored : Obj k}

theorem Represented.status {o : Obj k}
    (write : DB.Write s.db db' k key (some (withStatusOf stored o)))
    (hit : s.db.find k key = some stored) : Represented { s with db := db' } := by
  have sameMeta : metaOf (withStatusOf stored o) = metaOf stored := metaOf_withStatusOf _ _
  refine ⟨represented.issued.of_write write, represented.own_of_write write, represented.increasing,
    represented.known_of_write write, ?_, ?_, ?_⟩
  · refine write.filed.forall_find _ represented.head ?_
    intro out wrote
    cases wrote
    obtain ⟨keys, newest, isNewest, core⟩ := represented.head k key stored hit
    rw [sameMeta]
    exact ⟨keys, newest, isNewest, core.trans (sameCore_withStatusOf stored o)⟩
  · refine write.filed.forall_find _ represented.kept ?_
    intro out wrote
    cases wrote
    rw [sameMeta]
    exact represented.kept k key stored hit
  · intro k' uid' ne
    obtain ⟨keeps, live⟩ := represented.live k' uid' ne
    refine ⟨keeps, ?_⟩
    rcases live.of_filed write.filed with live | ⟨rfl, found, isFound, rfl⟩
    · exact live
    cases hit.symm.trans isFound
    exact ⟨key, _, write.filed.here, by rw [sameMeta]⟩

theorem Represented.erase (write : DB.Write s.db db' k key none)
    (hit : s.db.find k key = some stored) :
    Represented { s with db := db', history := s.setHistory k (metaOf stored).uid [] } := by
  have ne : ∀ {k' : Kind} {key' : String} {o : Obj k'}, (k' = k → key' ≠ key) →
      s.db.find k' key' = some o → k' = k → (metaOf o).uid ≠ (metaOf stored).uid := by
    rintro k' key' o apart found rfl eq
    exact apart rfl (represented.issued.unique k' _ _ o stored found hit eq)
  refine ⟨represented.issued.of_write write, represented.own_of_write write, represented.increasing,
    represented.known_of_write write, ?_, ?_, ?_⟩
  · exact write.filed.forall_find _ represented.head (by simp)
  · refine write.filed.forall_find_apart _ ?_ (by simp)
    intro k' key' o apart found keeps
    exact (setHistory_apart (ne apart found)).trans (represented.kept k' key' o found keeps)
  · intro k' uid' nonempty
    have apart : k' = k → uid' ≠ (metaOf stored).uid := by
      rintro rfl rfl
      exact nonempty setHistory_self
    have kept : s.history k' uid' ≠ [] := setHistory_apart apart ▸ nonempty
    obtain ⟨keeps, live⟩ := represented.live k' uid' kept
    refine ⟨keeps, ?_⟩
    rcases live.of_filed write.filed with live | ⟨rfl, found, isFound, rfl⟩
    · exact live
    cases hit.symm.trans isFound
    exact absurd rfl (apart rfl)

end

section

variable {s s' : Store}

theorem Represented.unborn (represented : Represented s) (k : Kind) :
    s.revisionsOf k s.db.newUID = [] ∧ s.history k s.db.newUID = [] := by
  constructor
  · refine List.filter_eq_nil_iff.2 fun rev mem eq => ?_
    obtain ⟨-, -, -, n, count, isUid⟩ := represented.known k rev mem
    have drawn := DB.uid_inj (isUid.symm.trans (of_decide_eq_true eq))
    omega
  by_contra nonempty
  obtain ⟨-, key, o, hit, eq⟩ := represented.live k _ nonempty
  obtain ⟨n, count, isUid⟩ := represented.issued.uid k key o hit
  have drawn := DB.uid_inj (isUid.symm.trans eq)
  omega

variable {operation : Operation}

theorem Represented.of_change (represented : Represented s) (change : Change s operation s') :
    Represented s' := by
  cases change with
  | @created k _ _ out _ _ write gone advanced ver _ =>
    have isNew : (metaOf out).uid = s.db.newUID := by
      rcases write.uid out rfl with ⟨stored, hit, -⟩ | ⟨isNew, -⟩
      · cases gone.symm.trans hit
      · exact isNew
    obtain ⟨noRevisions, noEntries⟩ := represented.unborn k
    refine represented.commit write advanced ver ?_ ?_ ?_
    · simp [isNew, noRevisions]
    · intro _
      rw [isNew, noRevisions, noEntries]
      rfl
    · intro stored hit
      cases gone.symm.trans hit
  | @replaced _ k stored out _ _ _ write hit advanced ver uid _ _ _ =>
    refine represented.commit write advanced ver ?_ ?_ ?_
    · rw [uid]
      exact (represented.head k _ stored hit).1
    · rw [uid]
      exact represented.kept k _ stored hit
    · intro found isFound
      cases hit.symm.trans isFound
      exact uid
  | status write hit => exact represented.status write hit
  | erased write hit => exact represented.erase write hit

theorem represented_empty : Represented {} where
  issued := DB.issued_empty
  own := by simp [DB.find]
  increasing := by simp
  known := by simp
  head := by simp [DB.find]
  kept := by simp [DB.find]
  live := by simp

theorem perform_of_step (moved : s.step operation = some s') : s.perform operation = .ok s' := by
  unfold Store.step at moved
  cases performed : s.perform operation with
  | error e => simp [performed, Except.toOption] at moved
  | ok next =>
    simp only [performed, Except.toOption, Option.some.injEq] at moved
    rw [moved]

theorem represented_of_run (reached : Reachable Store.step anyOperation {} s) : Represented s :=
  reached.invariant Represented represented_empty fun represented _ moved =>
    represented.of_change (change_of_perform represented (perform_of_step moved))

/-- The store fits together: versions come from the counter and are issued once, the history of a
live object is the last of its core writes and ends with the state of its head, and nothing else has
a history. -/
theorem store_is_represented (reached : Reachable Store.step anyOperation {} s) (k : Kind) :
    (∀ key (head : Obj k), s.db.find k key = some head →
      ∃ n ≤ s.db.versions k, (metaOf head).resourceVersion = DB.formatVersion n) ∧
    (s.commits k).Pairwise (fun earlier later => earlier.version < later.version) ∧
    (∀ revision ∈ s.commits k, (metaOf revision.object).uid = revision.uid ∧
      (metaOf revision.object).resourceVersion = DB.formatVersion revision.version) ∧
    (noHistory k = true → ∀ uid, s.history k uid = []) ∧
    (noHistory k = false →
      (∀ key (head : Obj k), s.db.find k key = some head →
        s.history k (metaOf head).uid = lastRevisions (s.revisionsOf k (metaOf head).uid) ∧
        ∃ newest, (s.history k (metaOf head).uid).getLast? = some newest ∧
          DB.formatVersion newest.1 = (metaOf head).resourceVersion ∧ SameCore newest.2 head) ∧
      ∀ uid, ∀ entry ∈ s.history k uid, ∃ head : Obj k,
        s.db.find k (keyOf entry.2) = some head ∧ (metaOf head).uid = uid) := by
  have represented := represented_of_run reached
  refine ⟨represented.issued.version k, represented.increasing k, ?_, ?_, fun keeps => ⟨?_, ?_⟩⟩
  · intro revision member
    obtain ⟨-, stamped, uid, -⟩ := represented.known k revision member
    exact ⟨uid, stamped⟩
  · intro forbids uid
    by_contra nonempty
    have keeps := (represented.live k uid nonempty).1
    cases forbids.symm.trans keeps
  · intro key head present
    have kept := represented.kept k key head present keeps
    obtain ⟨-, newest, isNewest, core⟩ := represented.head k key head present
    obtain ⟨member, -⟩ := List.mem_filter.1 (List.mem_of_getLast? isNewest)
    refine ⟨kept, (newest.version, newest.object), ?_, ?_, core⟩
    · obtain ⟨before, split⟩ := List.getLast?_eq_some_iff.1 isNewest
      rw [kept, split, lastRevisions, List.map_append, List.map_singleton,
        show maxHistory = 9 + 1 from rfl, List.rtake_concat_succ, List.getLast?_concat]
    rw [core.metaOf_eq]
    exact (represented.known k newest member).2.1.symm
  · intro uid entry member
    obtain ⟨head, present, isUid, -⟩ := represented.mem_history member
    exact ⟨head, present, isUid⟩

def serviceNamed (name : String) (port : Int) (version : String) : Service where
  metadata := { name := name, ns := "team", resourceVersion := version }
  spec := { ports := [{ port := port }] }

/-- A service is created, deleted, created again under the same name, edited and rolled back. -/
def serviceEdited : List Operation :=
  [.create .service 0 (serviceNamed "web" 80 ""), .delete .service "team" "web",
    .create .service 1 (serviceNamed "web" 81 ""), .update .service (serviceNamed "web" 82 "2"),
    .rollback .service "uid-1" 2]

theorem store_is_represented_edited : ∃ s, Reachable Store.step anyOperation {} s ∧
    (s.history .service "uid-1").map Prod.fst = [2, 3, 4] ∧
    ∃ head : Service, s.db.find .service "team/web" = some head ∧
      s.history .service head.metadata.uid =
        lastRevisions (s.revisionsOf .service head.metadata.uid) := by
  obtain ⟨s, reached, versions, stored⟩ : ∃ s, Reachable Store.step anyOperation {} s ∧
      (s.history .service "uid-1").map Prod.fst = [2, 3, 4] ∧
      (s.db.find .service "team/web").isSome = true := exists_of_run serviceEdited (by decide +kernel)
  obtain ⟨head, present⟩ := Option.isSome_iff_exists.1 stored
  have represented := (store_is_represented reached .service).2.2.2.2 rfl
  exact ⟨s, reached, versions, head, present, (represented.1 _ head present).1⟩

end

end Horchestra.Storage
