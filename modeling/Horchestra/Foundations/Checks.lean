import Mathlib.Data.List.Forall2
import Mathlib.Tactic.Common

/-!
# Checks that stop at the first failure

A validation is a computation that returns nothing or an error, and a list is validated by
validating its entries in order.  A validation of a list succeeds exactly when every
entry's does (`checkAll_eq_ok_iff`), and a sequence of two exactly when both do
(`andThen_eq_ok_iff`, `bind_eq_ok_iff`).  What every successful step of a loop keeps, a successful loop keeps
(`foldlM_keeps`).
-/

namespace Foundations.Checks

variable {α ε : Type}

/-- Refuses with `error` unless `condition` holds. -/
def require (condition : Bool) (error : ε) : Except ε Unit :=
  if condition then .ok () else .error error

@[simp] theorem require_eq_ok_iff {condition : Bool} {error : ε} :
    require condition error = .ok () ↔ condition = true := by
  cases condition <;> simp [require]

def andThen (first second : Except ε Unit) : Except ε Unit :=
  match first with
  | .error e => .error e
  | .ok () => second

@[simp] theorem andThen_eq_ok_iff {first second : Except ε Unit} :
    andThen first second = .ok () ↔ first = .ok () ∧ second = .ok () := by
  cases first <;> simp [andThen]

variable {β : Type}

theorem bind_eq_ok_iff {first : Except ε α} {next : α → Except ε β} {result : β} :
    (first >>= next) = .ok result ↔ ∃ v, first = .ok v ∧ next v = .ok result := by
  cases first <;> simp [bind, Except.bind]

def checkAll (check : α → Except ε Unit) : List α → Except ε Unit
  | [] => .ok ()
  | x :: rest => andThen (check x) (checkAll check rest)

variable {entries : List α}

theorem checkAll_eq_ok_iff {check : α → Except ε Unit} :
    checkAll check entries = .ok () ↔ ∀ x ∈ entries, check x = .ok () := by
  induction entries with
  | nil => simp [checkAll]
  | cons x rest ih => simp [checkAll, ih]

/-- The entries of a list, in order, each with its position. -/
def checkIndexed (check : Nat → α → Except ε Unit) : Nat → List α → Except ε Unit
  | _, [] => .ok ()
  | i, x :: rest => andThen (check i x) (checkIndexed check (i + 1) rest)

/-! ## Loops that may fail -/

/-- What one successful step keeps, the whole loop keeps. -/
theorem foldlM_keeps {step : β → α → Except ε β} (kept : β → Prop)
    (keeps : ∀ b, ∀ x ∈ entries, ∀ b', kept b → step b x = .ok b' → kept b') {start finish : β}
    (initial : kept start) (done : entries.foldlM step start = .ok finish) : kept finish := by
  induction entries generalizing start with
  | nil =>
    cases done
    exact initial
  | cons x rest ih =>
    cases taken : step start x with
    | error e => simp [List.foldlM_cons, taken, bind, Except.bind] at done
    | ok next =>
      simp only [List.foldlM_cons, taken, bind, Except.bind] at done
      have keepsRest : ∀ b, ∀ y ∈ rest, ∀ b', kept b → step b y = .ok b' → kept b' :=
        fun b y mem => keeps b y (List.mem_cons_of_mem x mem)
      exact ih keepsRest (keeps _ _ (by simp) _ initial taken) done

variable {step : α → Except ε β}

theorem exists_mapM_eq_ok_iff :
    (∃ result, entries.mapM step = .ok result) ↔ ∀ x ∈ entries, ∃ y, step x = .ok y := by
  induction entries with
  | nil => exact ⟨fun _ => by simp, fun _ => ⟨[], rfl⟩⟩
  | cons x rest ih =>
    rw [List.forall_mem_cons, ← ih]
    simp only [List.mapM_cons, bind_eq_ok_iff, pure, Except.pure, Except.ok.injEq]
    constructor
    · rintro ⟨_, y, taken, later, done, -⟩
      exact ⟨⟨y, taken⟩, later, done⟩
    rintro ⟨⟨y, taken⟩, later, done⟩
    exact ⟨_, y, taken, later, done, rfl⟩

variable {result : List β}

theorem mapM_eq_ok_iff_forall₂ :
    entries.mapM step = .ok result ↔ List.Forall₂ (fun x y => step x = .ok y) entries result := by
  induction entries generalizing result with
  | nil =>
    rw [List.mapM_nil, List.forall₂_nil_left_iff]
    exact ⟨fun eq => (Except.ok.inj eq).symm, fun eq => congrArg Except.ok eq.symm⟩
  | cons x rest ih =>
    simp only [List.mapM_cons, bind_eq_ok_iff, ih]
    constructor
    · rintro ⟨y, taken, later, others, whole⟩
      cases whole
      exact .cons taken others
    intro steps
    cases steps with
    | cons taken others => exact ⟨_, taken, _, others, rfl⟩

theorem exists_getElem?_of_forall₂ {R : α → β → Prop} (related : List.Forall₂ R entries result)
    (i : Nat) :
    (∀ x, entries[i]? = some x → ∃ y, result[i]? = some y ∧ R x y) ∧
      ∀ y, result[i]? = some y → ∃ x, entries[i]? = some x ∧ R x y := by
  induction related generalizing i with
  | nil => simp
  | cons first _ ih =>
    cases i with
    | zero => simp [first]
    | succ i => simpa using ih i

theorem mapM_eq_ok {v : α → β} (each : ∀ x ∈ entries, step x = .ok (v x)) :
    entries.mapM step = .ok (entries.map v) := by
  induction entries with
  | nil => rfl
  | cons x rest ih =>
    have later := ih fun y mem => each y (List.mem_cons_of_mem x mem)
    rw [List.mapM_cons, each x (.head _), later]
    rfl

end Foundations.Checks

/-! ## Loops that collect what they compute -/

namespace Foundations.Collecting

variable {α β : Type} {f : α → Option β} {entries : List α} {result : List β}

variable {x : α}

theorem mapM_cons_eq_some_iff {rest : List α} :
    (x :: rest).mapM f = some result ↔
      ∃ y, f x = some y ∧ ∃ others, rest.mapM f = some others ∧ y :: others = result := by
  simp only [List.mapM_cons, bind, Option.bind_eq_some_iff, pure, Option.some.injEq]

theorem exists_of_mem_mapM (done : entries.mapM f = some result) {y : β} (mem : y ∈ result) :
    ∃ x ∈ entries, f x = some y := by
  induction entries generalizing result with
  | nil =>
    obtain rfl : [] = result := by simpa using done
    cases mem
  | cons x rest ih =>
    obtain ⟨first, eq, others, later, rfl⟩ := mapM_cons_eq_some_iff.1 done
    rcases List.mem_cons.1 mem with rfl | inRest
    · exact ⟨x, .head _, eq⟩
    obtain ⟨found, listed, gives⟩ := ih later inRest
    exact ⟨found, .tail _ listed, gives⟩

theorem exists_mem_of_mapM (done : entries.mapM f = some result) (mem : x ∈ entries) :
    ∃ y ∈ result, f x = some y := by
  induction entries generalizing result with
  | nil => cases mem
  | cons first rest ih =>
    obtain ⟨y, eq, others, later, rfl⟩ := mapM_cons_eq_some_iff.1 done
    rcases List.mem_cons.1 mem with rfl | inRest
    · exact ⟨y, .head _, eq⟩
    obtain ⟨found, listed, gives⟩ := ih later inRest
    exact ⟨found, .tail _ listed, gives⟩

end Foundations.Collecting
