import Mathlib.Data.List.DropRight
import Horchestra.Foundations.Text

/-!
# Environments and the files they are kept in

The environment of a process is a list of texts of the form `name=value`.  Nothing keeps a name from
occurring twice, and who reads such a list decides which of the two counts; so what a list says
about a name is only clear where every name occurs once (`lookup_append_comm`).

A file of assignments has one a line.  Reading the lines back returns what was written, as long as
no assignment is empty or has a line break inside (`nonemptyLines_unlines`).
-/

namespace Foundations.Assignments

open Foundations.Text

/-! ## One assignment -/

def assign (name value : String) : String := name ++ "=" ++ value

/-- The name and the value of an assignment; a text without a sign assigns nothing. -/
def assignment (entry : String) : Option (String × String) :=
  (cut '=' entry.toList).map fun (name, value) => (String.ofList name, String.ofList value)

variable {name : String}

theorem assignment_assign (plain : '=' ∉ name.toList) (v : String) :
    assignment (assign name v) = some (name, v) := by
  have text : (assign name v).toList = name.toList ++ '=' :: v.toList := by simp [assign]
  rw [assignment, text, cut_append _ _ _ plain]
  simp

def cutPrefix (start text : String) : Option String :=
  if start.toList.isPrefixOf text.toList then
    some (String.ofList (text.toList.drop start.toList.length)) else none

theorem cutPrefix_eq_some_iff (plain : '=' ∉ name.toList) {e v : String} :
    cutPrefix (name ++ "=") e = some v ↔ assignment e = some (name, v) := by
  have start : (name ++ "=").toList = name.toList ++ ['='] := by simp
  constructor
  · intro found
    rw [cutPrefix, start] at found
    split at found
    next leads =>
      obtain ⟨rest, whole⟩ := List.isPrefixOf_iff_prefix.1 leads
      rw [← whole, List.drop_left] at found
      rw [assignment, ← whole, List.append_assoc, List.singleton_append, cut_append _ _ _ plain]
      simp [Option.some.inj found]
    · cases found
  intro found
  obtain ⟨⟨pre, after⟩, cutAt, parts⟩ := Option.map_eq_some_iff.1 found
  cases parts
  obtain ⟨whole, -⟩ := eq_append_of_cut cutAt
  have split : e.toList = (String.ofList pre ++ "=").toList ++ after := by
    rw [whole]
    simp
  rw [cutPrefix, split, if_pos (List.isPrefixOf_iff_prefix.2 (List.prefix_append _ _)),
    List.drop_left]

/-! ## A whole environment -/

def assignments (env : List String) : List (String × String) := env.filterMap assignment

@[simp] theorem assignments_append (first second : List String) :
    assignments (first ++ second) = assignments first ++ assignments second :=
  List.filterMap_append

variable {vars : List (String × String)}

theorem assignments_map_assign (plain : ∀ var ∈ vars, '=' ∉ var.1.toList) :
    assignments (vars.map fun var => assign var.1 var.2) = vars := by
  rw [assignments, List.filterMap_map]
  conv_rhs => rw [← List.filterMap_some (l := vars)]
  apply List.filterMap_congr
  intro var mem
  exact assignment_assign (plain var mem) var.2

theorem findSome?_cutPrefix (plain : '=' ∉ name.toList) (env : List String) :
    env.findSome? (cutPrefix (name ++ "=")) = (assignments env).lookup name := by
  induction env with
  | nil => rfl
  | cons entry rest ih =>
    rw [List.findSome?_cons]
    cases found : cutPrefix (name ++ "=") entry with
    | some v =>
      have own := (cutPrefix_eq_some_iff plain).1 found
      rw [assignments, List.filterMap_cons_some own, List.lookup_cons_self]
    | none =>
      dsimp only
      rw [ih]
      cases other : assignment entry with
      | none => rw [assignments, assignments, List.filterMap_cons_none other]
      | some pair =>
        have ne : (name == pair.1) = false := by
          rw [beq_eq_false_iff_ne]
          rintro rfl
          rw [(cutPrefix_eq_some_iff plain).2 other] at found
          cases found
        rw [assignments, assignments, List.filterMap_cons_some other, List.lookup_cons, ne]

theorem lookup_isSome_iff_mem : (vars.lookup name).isSome = true ↔ name ∈ vars.map Prod.fst := by
  rw [List.lookup_isSome_iff, List.mem_map]
  constructor
  · rintro ⟨var, mem, eq⟩
    exact ⟨var, mem, (beq_iff_eq.1 eq).symm⟩
  rintro ⟨var, mem, eq⟩
  exact ⟨var, mem, beq_iff_eq.2 eq.symm⟩

/-- Where no name is in both halves, it does not matter which is looked at first. -/
theorem lookup_append_comm {first second : List (String × String)}
    (ne : ∀ name ∈ first.map Prod.fst, name ∉ second.map Prod.fst) (name : String) :
    (first ++ second).lookup name = (second.lookup name).or (first.lookup name) := by
  rw [List.lookup_append]
  cases found : first.lookup name with
  | none => simp
  | some v =>
    have hit : name ∈ first.map Prod.fst := lookup_isSome_iff_mem.1 (by rw [found]; rfl)
    have gone : second.lookup name = none := by
      cases other : second.lookup name with
      | none => rfl
      | some _ => exact absurd (lookup_isSome_iff_mem.1 (by rw [other]; rfl)) (ne name hit)
    rw [gone]
    rfl

/-! ## Files of assignments -/

def unlines (entries : List (List Char)) : List Char := entries.flatMap (· ++ ['\n'])

def nonemptyLines (text : List Char) : List (List Char) := (text.splitOn '\n').filter (· ≠ [])

theorem nonemptyLines_rdropWhile (text : List Char) :
    nonemptyLines (text.rdropWhile (· == '\n')) = nonemptyLines text := by
  induction text using List.reverseRecOn with
  | nil => rfl
  | append_singleton rest last ih =>
    by_cases ends : last = '\n'
    · subst ends
      rw [List.rdropWhile_concat_pos _ _ _ (by simp), ih, nonemptyLines,
        nonemptyLines, List.splitOn_append_cons_self, List.splitOn_nil, List.filter_append]
      simp
    · rw [List.rdropWhile_concat_neg _ _ _ (by simpa using ends)]

/-- **Reading the lines back returns what was written.** -/
theorem nonemptyLines_unlines {entries : List (List Char)}
    (plain : ∀ e ∈ entries, e ≠ [] ∧ '\n' ∉ e) :
    nonemptyLines (unlines entries) = entries := by
  induction entries with
  | nil => rfl
  | cons e rest ih =>
    obtain ⟨ne, unbroken⟩ := plain e (.head _)
    rw [unlines, List.flatMap_cons, List.append_assoc, List.singleton_append, ← unlines,
      nonemptyLines, List.splitOn_append_cons_self, List.splitOn_eq_singleton unbroken,
      List.singleton_append, List.filter_cons_of_pos (by simpa using ne), ← nonemptyLines,
      ih fun later mem => plain later (.tail _ mem)]

end Foundations.Assignments
