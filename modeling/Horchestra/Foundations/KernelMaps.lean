import Mathlib.Data.List.AList
import Mathlib.Tactic.Common

/-!
# Tables of the kernel, rewritten one operation at a time

A hash table of the kernel has one value under a key, is read in an order of its own, and is
changed by single operations, each of which may fail.  A program that replaces the contents of
such tables performs a sequence of operations and collects the errors; other programs see every
state in between.

* `Table` with `writeAll` and `dropAll`: what a table holds after a list of writes
  (`lookup_writeAll_of_mem`, `lookup_writeAll_of_notMem`) and of removals (`lookup_dropAll`);
* `Shuffle`: the order in which the entries of a table come, which no program can rely on;
* `Progress` with `perform` and `each`: operations that may fail, with the states passed through.
  A sequence without an error has performed everything (`each_of_noErrors`).
-/

namespace Foundations.KernelMaps

/-! ## Tables -/

section

variable {K V : Type} [DecidableEq K]

abbrev Table (K V : Type) := AList fun _ : K => V

def writeAll (entries : List (K × V)) (table : Table K V) : Table K V :=
  entries.foldl (fun table entry => table.insert entry.1 entry.2) table

def dropAll (keys : List K) (table : Table K V) : Table K V :=
  keys.foldl (fun table key => table.erase key) table

variable {entries : List (K × V)} {key : K}

theorem lookup_writeAll_of_notMem (gone : key ∉ entries.map Prod.fst) (table : Table K V) :
    (writeAll entries table).lookup key = table.lookup key := by
  induction entries generalizing table with
  | nil => rfl
  | cons entry rest ih =>
    rw [List.map_cons, List.mem_cons, not_or] at gone
    change (writeAll rest (table.insert entry.1 entry.2)).lookup key = _
    rw [ih gone.2, AList.lookup_insert_ne gone.1]

theorem mem_writeAll {table : Table K V} :
    key ∈ writeAll entries table ↔ key ∈ table ∨ key ∈ entries.map Prod.fst := by
  induction entries generalizing table with
  | nil => simp [writeAll]
  | cons entry rest ih =>
    change key ∈ writeAll rest (table.insert entry.1 entry.2) ↔ _
    rw [ih, AList.mem_insert, List.map_cons, List.mem_cons, or_assoc, or_left_comm]

theorem lookup_writeAll_of_mem {value : V} (mem : (key, value) ∈ entries)
    (only : ∀ other, (key, other) ∈ entries → other = value) (table : Table K V) :
    (writeAll entries table).lookup key = some value := by
  induction entries generalizing table with
  | nil => cases mem
  | cons entry rest ih =>
    have onlyRest : ∀ other, (key, other) ∈ rest → other = value := fun other later =>
      only other (by simp [later])
    change (writeAll rest (table.insert entry.1 entry.2)).lookup key = _
    by_cases later : key ∈ rest.map Prod.fst
    · obtain ⟨⟨_, other⟩, inRest, rfl⟩ := List.mem_map.1 later
      obtain rfl := onlyRest other inRest
      exact ih inRest onlyRest _
    rcases List.mem_cons.1 mem with rfl | inRest
    · rw [lookup_writeAll_of_notMem later, AList.lookup_insert]
    · exact absurd (List.mem_map_of_mem inRest) later

theorem lookup_dropAll (keys : List K) (key : K) (table : Table K V) :
    (dropAll keys table).lookup key = if key ∈ keys then none else table.lookup key := by
  induction keys generalizing table with
  | nil => rfl
  | cons first rest ih =>
    change (dropAll rest (table.erase first)).lookup key = _
    rw [ih]
    by_cases eq : key = first
    · subst eq
      simp
    · simp [eq, AList.lookup_erase_ne eq]

end

/-- The order in which a collection is gone through. -/
structure Shuffle (α : Type) where
  arrange : List α → List α
  perm : ∀ list, (arrange list).Perm list

namespace Shuffle

variable {α : Type}

def inOrder : Shuffle α := ⟨id, fun list => List.Perm.refl list⟩

variable {list : List α}

theorem mem_arrange (shuffle : Shuffle α) {x : α} :
    x ∈ shuffle.arrange list ↔ x ∈ list := (shuffle.perm list).mem_iff

theorem nodup_arrange (shuffle : Shuffle α) (nodup : list.Nodup) :
    (shuffle.arrange list).Nodup := (shuffle.perm list).nodup_iff.2 nodup

end Shuffle

/-! ## Operations that may fail -/

/-- How far a sequence of operations has come: the state it has reached, the states it has passed
through, and what went wrong. -/
structure Progress (σ : Type) where
  state : σ
  seen : List σ := []
  errs : List String := []

namespace Progress

variable {σ ω : Type}

/-- One operation.  A failed one changes nothing and is reported. -/
def perform (failure : Option String) (report : String → String) (change : σ → σ)
    (p : Progress σ) : Progress σ :=
  match failure with
  | some err => { p with errs := p.errs ++ [report err] }
  | none => { p with state := change p.state, seen := p.seen ++ [change p.state] }

/-- Operations in turn, each carried on with whatever became of the one before. -/
def each (failure : σ → ω → Option String) (report : ω → String → String) (change : ω → σ → σ)
    (ops : List ω) (p : Progress σ) : Progress σ :=
  ops.foldl (fun p op => p.perform (failure p.state op) (report op) (change op)) p

variable {failure : σ → ω → Option String} {report : ω → String → String} {change : ω → σ → σ}

/-- **A sequence without an error has performed every operation.** -/
theorem each_of_noErrors {ops : List ω} {p : Progress σ}
    (clean : (each failure report change ops p).errs = []) :
    p.errs = [] ∧
      (each failure report change ops p).state = ops.foldl (fun s op => change op s) p.state := by
  induction ops generalizing p with
  | nil => exact ⟨clean, rfl⟩
  | cons op rest ih =>
    obtain ⟨pre, after⟩ := ih
      (p := p.perform (failure p.state op) (report op) (change op)) clean
    change p.errs = [] ∧ (each failure report change rest _).state = _
    rw [after]
    cases res : failure p.state op with
    | none =>
      rw [res, perform] at pre
      exact ⟨pre, rfl⟩
    | some err =>
      rw [res, perform] at pre
      simp at pre

section

/-! When the operations that fail are fixed from the start, the state reached is what the others
make of the first state, and so is every state passed through. -/

variable {faults : ω → Option String}

def performed (faults : ω → Option String) (change : ω → σ → σ) (ops : List ω) (s : σ) : σ :=
  (ops.filter fun op => (faults op).isNone).foldl (fun s op => change op s) s

theorem performed_append (first second : List ω) (s : σ) :
    performed faults change (first ++ second) s =
      performed faults change second (performed faults change first s) := by
  rw [performed, List.filter_append, List.foldl_append]
  rfl

theorem performed_concat {op : ω} (ok : faults op = none) (ops : List ω) (s : σ) :
    performed faults change (ops ++ [op]) s = change op (performed faults change ops s) := by
  rw [performed_append]
  simp [performed, ok]

theorem performed_cons (op : ω) (ops : List ω) (p : Progress σ) :
    performed faults change (op :: ops) p.state =
      performed faults change ops (p.perform (faults op) (report op) (change op)).state := by
  cases res : faults op <;> simp [performed, perform, res]

theorem state_each (ops : List ω) (p : Progress σ) :
    (each (fun _ => faults) report change ops p).state = performed faults change ops p.state := by
  induction ops generalizing p with
  | nil => rfl
  | cons op rest ih =>
    change (each (fun _ => faults) report change rest _).state = _
    rw [ih, performed_cons]

/-- **The states passed through are those after each operation that is performed.** -/
theorem mem_seen_each {ops : List ω} {p : Progress σ} {s : σ} :
    s ∈ (each (fun _ => faults) report change ops p).seen ↔
      s ∈ p.seen ∨ ∃ pre op after, ops = pre ++ op :: after ∧ faults op = none ∧
        s = performed faults change (pre ++ [op]) p.state := by
  induction ops generalizing p with
  | nil => simp [each]
  | cons first rest ih =>
    have eq : s ∈ (p.perform (faults first) (report first) (change first)).seen ↔
        s ∈ p.seen ∨ faults first = none ∧ s = performed faults change [first] p.state := by
      cases res : faults first <;> simp [perform, performed, res]
    change s ∈ (each (fun _ => faults) report change rest _).seen ↔ _
    rw [ih, eq, or_assoc]
    refine or_congr Iff.rfl ⟨?_, ?_⟩
    · rintro (⟨ok, rfl⟩ | ⟨pre, op, after, rfl, ok, rfl⟩)
      · exact ⟨[], first, rest, rfl, ok, rfl⟩
      · exact ⟨first :: pre, op, after, rfl, ok, (performed_cons first (pre ++ [op]) p).symm⟩
    rintro ⟨pre, op, after, whole, ok, rfl⟩
    rcases List.cons_eq_append_iff.1 whole with ⟨rfl, same⟩ | ⟨shorter, rfl, rfl⟩
    · cases same
      exact .inl ⟨ok, rfl⟩
    · exact .inr ⟨shorter, op, after, rfl, ok, performed_cons first (shorter ++ [op]) p⟩

end

end Progress

end Foundations.KernelMaps
