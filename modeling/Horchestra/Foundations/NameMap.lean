import Mathlib

/-!
# Maps indexed by name

A list of things indexed by their names is a map that holds, under each name, the last
thing of that name.  A loop that copies some entries of one map into another adds those
entries and leaves the rest.  These are the two ways the programs verified here build a
map, and what each holds afterwards.
-/

namespace Foundations.NameMap

open Std

variable {α β : Type}

/-- The map of a list by name; a later entry replaces an earlier one. -/
def indexBy (name : β → String) (value : β → α) (entries : List β) : ExtTreeMap String α :=
  entries.foldl (fun index entry => index.insert (name entry) (value entry)) ∅

@[simp] theorem indexBy_nil (name : β → String) (value : β → α) : indexBy name value [] = ∅ := rfl

theorem indexBy_concat (name : β → String) (value : β → α) (entries : List β) (last : β) :
    indexBy name value (entries ++ [last]) =
      (indexBy name value entries).insert (name last) (value last) := by
  simp [indexBy]

theorem values_eq (m : ExtTreeMap String α) : m.values = m.toList.map Prod.snd := by
  rcases m with ⟨m⟩
  induction m using Std.ExtDTreeMap.inductionOn with
  | _ m =>
    change m.inner.values = (Std.DTreeMap.Internal.Impl.Const.toList m.inner).map Prod.snd
    rw [Std.DTreeMap.Internal.Impl.values_eq_map_snd,
      Std.DTreeMap.Internal.Impl.Const.toList_eq_toListModel_map, List.map_map]
    rfl

variable {key : String} {found : α}

theorem insert_cases {m : ExtTreeMap String α} {name : String} {new : α}
    (hit : (m.insert name new)[key]? = some found) :
    (key = name ∧ found = new) ∨ m[key]? = some found := by
  rw [ExtTreeMap.getElem?_insert] at hit
  split at hit
  next eq =>
    exact .inl ⟨(Std.LawfulEqCmp.eq_of_compare eq).symm, (Option.some.inj hit).symm⟩
  · exact .inr hit

variable {name : β → String} {value : β → α} {entries : List β}

theorem exists_of_indexBy (hit : (indexBy name value entries)[key]? = some found) :
    ∃ e ∈ entries, name e = key ∧ value e = found := by
  induction entries using List.reverseRecOn with
  | nil => simp at hit
  | append_singleton rest last ih =>
    rw [indexBy_concat, ExtTreeMap.getElem?_insert] at hit
    split at hit
    next eq => exact ⟨last, by simp, Std.LawfulEqCmp.eq_of_compare eq, Option.some.inj hit⟩
    obtain ⟨e, mem, named⟩ := ih hit
    exact ⟨e, List.mem_append_left _ mem, named⟩

theorem indexBy_of_mem (nodup : (entries.map name).Nodup) {entry : β}
    (mem : entry ∈ entries) :
    (indexBy name value entries)[name entry]? = some (value entry) := by
  induction entries using List.reverseRecOn with
  | nil => simp at mem
  | append_singleton rest last ih =>
    rw [List.map_append, List.nodup_append] at nodup
    obtain ⟨distinctRest, -, apart⟩ := nodup
    rw [indexBy_concat, ExtTreeMap.getElem?_insert]
    rcases List.mem_append.1 mem with past | isLast
    · have ne : name last ≠ name entry :=
        (apart _ (List.mem_map_of_mem past) _ (by simp)).symm
      simp [ne, ih distinctRest past]
    obtain rfl : entry = last := by simpa using isLast
    simp

theorem indexBy_id_eq_some_iff {name : α → String} {entries : List α}
    (nodup : (entries.map name).Nodup) {e : α} :
    (indexBy name id entries)[key]? = some e ↔ e ∈ entries ∧ name e = key := by
  constructor
  · intro hit
    obtain ⟨found, mem, named, rfl⟩ := exists_of_indexBy hit
    exact ⟨mem, named⟩
  rintro ⟨mem, rfl⟩
  exact indexBy_of_mem nodup mem

/-- Copies the entries of the named keys from one map into another; a key the source does
not have is copied as `zero`. -/
def copyKeys (zero : α) (source : ExtTreeMap String α) (keys : List String)
    (target : ExtTreeMap String α) : ExtTreeMap String α :=
  keys.foldl (fun out key => out.insert key (source.getD key zero)) target

theorem getElem?_copyKeys {zero : α} {source target : ExtTreeMap String α}
    {keys : List String} (known : ∀ key ∈ keys, key ∈ source) (key : String) :
    (copyKeys zero source keys target)[key]? = if key ∈ keys then source[key]? else target[key]? := by
  induction keys generalizing target with
  | nil => simp [copyKeys]
  | cons first rest ih =>
    have knownRest : ∀ key ∈ rest, key ∈ source := fun key mem => known key (by simp [mem])
    have unfolded : copyKeys zero source (first :: rest) target =
        copyKeys zero source rest (target.insert first (source.getD first zero)) := rfl
    rw [unfolded, ih knownRest, ExtTreeMap.getElem?_insert]
    by_cases inRest : key ∈ rest
    · simp [inRest]
    by_cases same : key = first
    · subst same
      have hit : key ∈ source := known key (by simp)
      simp [inRest, ExtTreeMap.getD_eq_getD_getElem?, ExtTreeMap.getElem?_eq_some_getElem hit]
    have ne : first ≠ key := fun equal => same equal.symm
    simp [inRest, same, ne]

end Foundations.NameMap
