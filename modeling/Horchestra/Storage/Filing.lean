import Horchestra.Storage.Bolt

/-!
# Filing by identity

An object's key joins its namespace and its name with a slash.  Names are checked at the
write boundary and contain none, so the key determines the two.  In a database where every
object is filed under its own key (`WellFiled`), looking an object up by identity and
finding it in a listing come to the same.
-/

namespace Horchestra.Storage

open Api Foundations.Text

/-- A name that cannot be mistaken for two. -/
def SlashFree (text : String) : Prop := '/' ∉ text.toList

instance (text : String) : Decidable (SlashFree text) :=
  inferInstanceAs (Decidable ('/' ∉ text.toList))

/-- The identity of an object as the write boundary lets it through: both names are
unambiguous, and an object of a cluster-wide kind is in no namespace. -/
structure Identified (k : Kind) (m : ObjectMeta) : Prop where
  ns : SlashFree m.ns
  name : SlashFree m.name
  scope : k.namespaced = false → m.ns = ""

variable {ns ns' name name' : String}

theorem recordKey_inj (free : SlashFree ns) (free' : SlashFree ns')
    (eq : recordKey ns name = recordKey ns' name') : ns = ns' ∧ name = name' := by
  have joined : ∀ ns name : String,
      (recordKey ns name).toList = ns.toList ++ '/' :: name.toList := by
    intro ns name
    simp [recordKey]
  have lists := congrArg String.toList eq
  rw [joined, joined] at lists
  simpa only [String.toList_inj] using append_separator_inj free free' lists

theorem recordKey_inj_of_slashFree (nsFree : SlashFree ns) (nameFree : SlashFree name)
    (eq : recordKey ns' name' = recordKey ns name) : ns' = ns ∧ name' = name := by
  have nsFree' : SlashFree ns' := by
    have counted := congrArg (fun text => text.toList.count '/') eq
    simp only [recordKey, String.toList_append, List.count_append, List.count_eq_zero.2 nsFree,
      List.count_eq_zero.2 nameFree] at counted
    have single : List.count '/' "/".toList = 1 := by decide
    exact List.count_eq_zero.1 (by omega)
  exact recordKey_inj nsFree' nsFree eq

namespace DB

variable {db : DB} {k : Kind} {o : Obj k}

/-- Every object is filed under its own key, and its identity is unambiguous. -/
def WellFiled (db : DB) : Prop :=
  ∀ (k : Kind) (key : String) (o : Obj k),
    db.find k key = some o → key = keyOf o ∧ Identified k (metaOf o)

theorem wellFiled_empty : ({} : DB).WellFiled := by
  intro k key o hit
  simp [find] at hit

variable {db' : DB} {key ns name : String}

theorem mem_list_of_get (hit : db.get k ns name = some o) : o ∈ db.list k := mem_list.2 ⟨_, hit⟩

theorem nodup_of_sorted {l : List (Obj k)} (sorted : l.Pairwise fun a b => keyOf a < keyOf b) :
    l.Nodup := by
  refine sorted.imp ?_
  rintro a b less rfl
  exact lt_irrefl _ less

variable (filed : db.WellFiled)

include filed

theorem WellFiled.of_filed {wrote : Option (Obj k)} (step : Filed db db' k key wrote)
    (own : ∀ o ∈ wrote, key = keyOf o ∧ Identified k (metaOf o)) : db'.WellFiled :=
  step.forall_find _ filed own

theorem WellFiled.putHead (own : key = keyOf o)
    (known : Identified k (metaOf o)) : (db.putHead key o).WellFiled := by
  refine filed.of_filed (filed_putHead db key o) ?_
  rintro o' eq
  cases eq
  exact ⟨own, known⟩

theorem WellFiled.identified (mem : o ∈ db.list k) : Identified k (metaOf o) := by
  obtain ⟨key, hit⟩ := mem_list.1 mem
  exact (filed k key o hit).2

theorem WellFiled.get_of_mem (mem : o ∈ db.list k) :
    db.get k (metaOf o).ns (metaOf o).name = some o := by
  obtain ⟨key, hit⟩ := mem_list.1 mem
  obtain ⟨rfl, -⟩ := filed k key o hit
  exact hit

theorem WellFiled.meta_of_get (free : SlashFree ns)
    (hit : db.get k ns name = some o) : (metaOf o).ns = ns ∧ (metaOf o).name = name := by
  obtain ⟨key, known⟩ := filed k _ o hit
  obtain ⟨nsEq, nameEq⟩ := recordKey_inj free known.ns key
  exact ⟨nsEq.symm, nameEq.symm⟩

theorem WellFiled.same_identity {stored : Obj k} (hit : db.find k (keyOf o) = some stored) :
    (metaOf o).ns = (metaOf stored).ns ∧ (metaOf o).name = (metaOf stored).name := by
  obtain ⟨key, known⟩ := filed k _ stored hit
  exact recordKey_inj_of_slashFree known.ns known.name key

theorem WellFiled.sorted (k : Kind) : (db.list k).Pairwise fun a b => keyOf a < keyOf b := by
  have own : ∀ e ∈ (db.heads k).toList, e.1 = keyOf e.2 := by
    intro e mem
    exact (filed k e.1 e.2 (Std.ExtTreeMap.mem_toList_iff_getElem?_eq_some.1 mem)).1
  have ordered := Std.ExtTreeMap.ordered_keys_toList (t := db.heads k)
  refine List.pairwise_map.2 (ordered.imp_of_mem ?_)
  intro first second firstMember secondMember less
  rw [← own first firstMember, ← own second secondMember]
  exact compare_lt_iff_lt.1 less

theorem WellFiled.nodup (k : Kind) : (db.list k).Nodup := nodup_of_sorted (filed.sorted k)

/-! ## The operations keep it -/

variable {out : Obj k}

theorem WellFiled.create {now : Time}
    (known : Identified k (metaOf o)) (done : db.create now o = .ok (out, db')) :
    db'.WellFiled := by
  obtain ⟨-, -, rfl, step, -⟩ := create_spec done
  refine filed.of_filed step ?_
  intro stored eq
  cases eq
  refine ⟨by simp [keyOf], ?_⟩
  rw [metaOf_withMeta]
  exact ⟨known.ns, known.name, known.scope⟩

theorem WellFiled.update (done : db.update o = .ok (out, db')) : db'.WellFiled := by
  obtain ⟨stored, hit, -, rfl, step, -⟩ := update_spec done
  have known := (filed k _ stored hit).2
  obtain ⟨nsEq, nameEq⟩ := filed.same_identity hit
  refine filed.of_filed step ?_
  intro merged eq
  cases eq
  refine ⟨by simp [keyOf, mergeCore], ?_⟩
  simp only [mergeCore, metaOf_withMeta]
  exact ⟨nsEq ▸ known.ns, nameEq ▸ known.name, nsEq ▸ known.scope⟩

theorem WellFiled.updateStatus (done : db.updateStatus o = .ok (out, db')) : db'.WellFiled := by
  obtain ⟨stored, hit, -, rfl, step, -⟩ := updateStatus_spec done
  refine filed.of_filed step ?_
  intro merged eq
  cases eq
  have own := filed k _ stored hit
  simpa [keyOf] using own

theorem WellFiled.delete (done : db.delete k ns name = .ok db') : db'.WellFiled := by
  obtain ⟨-, step, -⟩ := delete_spec done
  exact filed.of_filed step (by simp)

end DB

end Horchestra.Storage
