import Horchestra.Storage.Filing

/-!
# Versions and uids over the life of a store

Every operation of the store changes a single record.  `Write` says what the changed record can
look like: it keeps the metadata of the record before it, or it carries the next version of its
kind; and its uid is the one the record had, or a new one.  From that it follows, for every
sequence of writes, that a version names one state of an object's metadata and a uid one record
(`Issued.of_write`, `Coherent.of_write`).
-/

namespace Horchestra.Storage

open Api

namespace DB

variable {db db' : DB} {k : Kind}

theorem formatVersion_ne_empty (n : Nat) : formatVersion n ≠ "" := by
  intro empty
  have ds := congrArg String.toList empty
  simp [formatVersion, Nat.repr, Nat.toDigits_ne_nil] at ds

structure Write (db db' : DB) (k : Kind) (key : String) (out : Option (Obj k)) : Prop where
  filed : Filed db db' k key out
  own : ∀ o ∈ out, key = keyOf o
  versions : ∀ k', db.versions k' ≤ db'.versions k'
  issued : db.issued ≤ db'.issued
  version : ∀ o ∈ out, (∃ stored, db.find k key = some stored ∧ metaOf o = metaOf stored) ∨
    ((metaOf o).resourceVersion = formatVersion (db.versions k + 1) ∧
      db'.versions k = db.versions k + 1)
  uid : ∀ o ∈ out, (∃ stored, db.find k key = some stored ∧ (metaOf o).uid = (metaOf stored).uid) ∨
    ((metaOf o).uid = db.newUID ∧ db'.issued = db.issued + 1)

theorem versions_le_update (db : DB) (k k' : Kind) :
    db.versions k' ≤ Function.update db.versions k (db.versions k + 1) k' := by
  by_cases same : k' = k
  · subst same
    simp
  · simp [Function.update_of_ne same]

theorem Write.of_some {key : String} {out : Obj k} (filed : Filed db db' k key (some out))
    (own : key = keyOf out) (versions : ∀ k', db.versions k' ≤ db'.versions k')
    (issued : db.issued ≤ db'.issued)
    (ver : (∃ stored, db.find k key = some stored ∧ metaOf out = metaOf stored) ∨
      ((metaOf out).resourceVersion = formatVersion (db.versions k + 1) ∧
        db'.versions k = db.versions k + 1))
    (uid : (∃ stored, db.find k key = some stored ∧ (metaOf out).uid = (metaOf stored).uid) ∨
      ((metaOf out).uid = db.newUID ∧ db'.issued = db.issued + 1)) :
    Write db db' k key (some out) := by
  refine ⟨filed, ?_, versions, issued, ?_, ?_⟩ <;> intro o eq <;>
    obtain rfl := Option.mem_some_iff.1 eq <;> assumption

theorem write_of_create {now : Time} {o out : Obj k} (done : db.create now o = .ok (out, db')) :
    Write db db' k (keyOf o) (some out) := by
  obtain ⟨-, -, rfl, filed, versions, issued⟩ := create_spec done
  refine .of_some filed (by simp [keyOf]) ?_ (by omega) (.inr ⟨by simp, by simp [versions]⟩)
    (.inr ⟨by simp, issued⟩)
  intro k'
  rw [versions]
  exact versions_le_update db k k'

theorem write_of_update {o out : Obj k} (done : db.update o = .ok (out, db')) :
    Write db db' k (keyOf o) (some out) := by
  obtain ⟨stored, hit, -, rfl, filed, versions, issued⟩ := update_spec done
  refine .of_some filed (by simp [keyOf, mergeCore]) ?_ (by omega)
    (.inr ⟨by simp [mergeCore], by simp [versions]⟩)
    (.inl ⟨stored, hit, by simp [mergeCore]⟩)
  intro k'
  rw [versions]
  exact versions_le_update db k k'

theorem write_of_updateStatus {o out : Obj k}
    (own : ∀ stored, db.find k (keyOf o) = some stored → keyOf o = keyOf stored)
    (done : db.updateStatus o = .ok (out, db')) : Write db db' k (keyOf o) (some out) := by
  obtain ⟨stored, hit, -, rfl, wrote, versions, issued⟩ := updateStatus_spec done
  refine .of_some wrote ?_ (by simp [versions]) (by omega) (.inl ⟨stored, hit, by simp⟩)
    (.inl ⟨stored, hit, by simp⟩)
  simpa [keyOf] using own stored hit

theorem write_of_delete {ns name : String} (done : db.delete k ns name = .ok db') :
    Write db db' k (recordKey ns name) none := by
  obtain ⟨-, filed, versions, issued⟩ := delete_spec done
  exact ⟨filed, by simp, by simp [versions], by omega, by simp, by simp⟩

/-! ## One store -/

theorem formatVersion_inj {m n : Nat} (eq : formatVersion m = formatVersion n) : m = n :=
  Nat.repr_inj.1 eq

theorem uid_inj {m n : Nat} (eq : "uid-" ++ Nat.repr m = "uid-" ++ Nat.repr n) : m = n := by
  have ds := congrArg String.toList eq
  simp only [String.toList_append, List.append_cancel_left_eq, String.toList_inj] at ds
  exact Nat.repr_inj.1 ds

/-- Every version and uid in a store is one it has issued, and no two records share a uid. -/
structure Issued (db : DB) : Prop where
  version : ∀ (k : Kind) (key : String) (o : Obj k), db.find k key = some o →
    ∃ n ≤ db.versions k, (metaOf o).resourceVersion = formatVersion n
  uid : ∀ (k : Kind) (key : String) (o : Obj k), db.find k key = some o →
    ∃ n < db.issued, (metaOf o).uid = "uid-" ++ Nat.repr n
  unique : ∀ (k : Kind) (key key' : String) (o o' : Obj k), db.find k key = some o →
    db.find k key' = some o' → (metaOf o).uid = (metaOf o').uid → key = key'

theorem issued_empty : ({} : DB).Issued := by constructor <;> intro k key <;> simp [find]

theorem Write.key_of_uid {key key' : String} {out : Option (Obj k)} {o o' : Obj k}
    (write : Write db db' k key out) (issued : db.Issued) (wrote : o ∈ out)
    (hit : db.find k key' = some o') (eq : (metaOf o).uid = (metaOf o').uid) :
    key = key' := by
  rcases write.uid o wrote with ⟨stored, pre, kept⟩ | ⟨fresh, -⟩
  · exact issued.unique k key key' stored o' pre hit (kept.symm.trans eq)
  obtain ⟨n, bound, old⟩ := issued.uid k key' o' hit
  have clash : "uid-" ++ Nat.repr db.issued = "uid-" ++ Nat.repr n :=
    fresh.symm.trans (eq.trans old)
  exact absurd (uid_inj clash) (by omega)

theorem Issued.of_write {key : String} {out : Option (Obj k)} (issued : db.Issued)
    (write : Write db db' k key out) : db'.Issued where
  version := by
    refine write.filed.forall_find
      (fun k _ o => ∃ n ≤ db'.versions k, (metaOf o).resourceVersion = formatVersion n) ?_ ?_
    · intro k' key' o hit
      obtain ⟨n, bound, version⟩ := issued.version k' key' o hit
      exact ⟨n, bound.trans (write.versions k'), version⟩
    intro o wrote
    rcases write.version o wrote with ⟨stored, hit, eq⟩ | ⟨version, advanced⟩
    · obtain ⟨n, bound, version⟩ := issued.version k key stored hit
      exact ⟨n, bound.trans (write.versions k), eq ▸ version⟩
    · exact ⟨db.versions k + 1, advanced.ge, version⟩
  uid := by
    refine write.filed.forall_find
      (fun _ _ o => ∃ n < db'.issued, (metaOf o).uid = "uid-" ++ Nat.repr n) ?_ ?_
    · intro k' key' o hit
      obtain ⟨n, bound, uid⟩ := issued.uid k' key' o hit
      exact ⟨n, bound.trans_le write.issued, uid⟩
    intro o wrote
    rcases write.uid o wrote with ⟨stored, hit, eq⟩ | ⟨fresh, advanced⟩
    · obtain ⟨n, bound, uid⟩ := issued.uid k key stored hit
      exact ⟨n, bound.trans_le write.issued, eq.trans uid⟩
    · exact ⟨db.issued, by omega, fresh⟩
  unique := by
    intro k' key₁ key₂ o₁ o₂ first second eq
    refine write.filed.forall_find (fun k' key₁ o₁ => ∀ key₂ o₂, db'.find k' key₂ = some o₂ →
      (metaOf o₁).uid = (metaOf o₂).uid → key₁ = key₂) ?_ ?_ k' key₁ o₁ first key₂ o₂ second eq
    · intro k₁ key₁ o₁ pre key₂ o₂ second
      refine write.filed.forall_find (fun k₂ key₂ o₂ => ∀ o₁ : Obj k₂, db.find k₂ key₁ = some o₁ →
        (metaOf o₁).uid = (metaOf o₂).uid → key₁ = key₂) ?_ ?_ k₁ key₂ o₂ second
        o₁ pre
      · intro k₂ key₂ o₂ hit o₁ pre eq
        exact issued.unique k₂ key₁ key₂ o₁ o₂ pre hit eq
      intro o₂ wrote o₁ pre eq
      exact (write.key_of_uid issued wrote pre eq.symm).symm
    intro o₁ wrote key₂ o₂ second eq
    by_cases keyEq : key₂ = key
    · exact keyEq.symm
    rw [write.filed.elsewhere _ keyEq] at second
    exact write.key_of_uid issued wrote second eq

/-! ## A store and an earlier state of it -/

/-- Versions read from `past` still mean the same in `db`: none of them is ahead of the counter,
and a record that carries one has the metadata it was read with. -/
structure Coherent (past db : DB) : Prop where
  version : ∀ (k : Kind) (key : String) (read : Obj k), past.find k key = some read →
    ∃ n ≤ db.versions k, (metaOf read).resourceVersion = formatVersion n
  same : ∀ (k : Kind) (key : String) (cur : Obj k), db.find k key = some cur →
    ∀ read : Obj k, past.find k key = some read →
      (metaOf cur).resourceVersion = (metaOf read).resourceVersion → metaOf cur = metaOf read

theorem Issued.coherent (issued : db.Issued) : Coherent db db where
  version := issued.version
  same := by
    intro k key cur hit read hit' _
    rw [hit] at hit'
    cases hit'
    rfl

theorem Coherent.of_write {past : DB} {key : String} {out : Option (Obj k)}
    (coherent : Coherent past db) (write : Write db db' k key out) : Coherent past db' where
  version := by
    intro k' key' read seen
    obtain ⟨n, bound, version⟩ := coherent.version k' key' read seen
    exact ⟨n, bound.trans (write.versions k'), version⟩
  same := by
    refine write.filed.forall_find _ coherent.same ?_
    intro o wrote read seen verEq
    rcases write.version o wrote with ⟨stored, hit, same⟩ | ⟨version, -⟩
    · rw [same] at verEq ⊢
      exact coherent.same k key stored hit read seen verEq
    obtain ⟨n, bound, readVersion⟩ := coherent.version k key read seen
    have clash := formatVersion_inj (version.symm.trans (verEq.trans readVersion))
    omega

end DB

end Horchestra.Storage
