import Horchestra.Storage.Bolt

/-!
# Admission: requests, plugins and chains

An admission plugin has two passes over a request: one may rewrite the object, the
other may only refuse it.  A chain runs every plugin's first pass in order and then every
plugin's second pass, and a deletion, which carries no object to rewrite, runs the second
pass alone.

`Chain.run_eq_ok_iff` takes an accepted run apart: the object that is stored is the one
the first passes produced, and every plugin accepted exactly that object.
-/

namespace Horchestra.Admission

open Api Storage

structure Identity where
  name : String
  groups : List String := []

/-- A refusal: on authorization grounds, or because the object is not valid. -/
inductive AdmissionError where
  | forbidden (reason : String)
  | invalid (message : String)
  deriving DecidableEq

inductive Operation where
  | create
  | update
  | delete
  deriving DecidableEq

/-- The request a plugin inspects.  `subresource` is empty for a write of the object
itself. -/
structure Attributes (k : Kind) where
  operation : Operation
  object : Obj k
  oldObject : Option (Obj k) := none
  subresource : String := ""

def Attributes.isSubresource {k : Kind} (a : Attributes k) : Bool := a.subresource ≠ ""

/-- What a plugin can consult besides the request: who is calling (the control plane's own
loops carry no identity), and the stored objects. -/
structure Context where
  identity : Option Identity := none
  db : DB

/-- A plugin: its rewriting pass and its refusing pass. -/
structure Plugin where
  admitPass : (k : Kind) → Context → Attributes k → Except AdmissionError (Obj k)
  validate : (k : Kind) → Context → Attributes k → Except AdmissionError Unit

/-- The rewriting pass of a plugin that rewrites nothing. -/
def keep (k : Kind) (_ : Context) (a : Attributes k) : Except AdmissionError (Obj k) := .ok a.object

/-- The refusing pass of a plugin that refuses nothing. -/
def accept (k : Kind) (_ : Context) (_ : Attributes k) : Except AdmissionError Unit := .ok ()

abbrev Chain := List Plugin

namespace Chain

variable {k : Kind}

/-- Every rewriting pass in turn, each on the object the one before it produced. -/
def admitPass (ctx : Context) : Chain → Attributes k → Except AdmissionError (Attributes k)
  | [], a => .ok a
  | plugin :: rest, a =>
    match plugin.admitPass k ctx a with
    | .error e => .error e
    | .ok object => admitPass ctx rest { a with object := object }

def validate (ctx : Context) : Chain → Attributes k → Except AdmissionError Unit
  | [], _ => .ok ()
  | plugin :: rest, a =>
    match plugin.validate k ctx a with
    | .error e => .error e
    | .ok () => validate ctx rest a

/-- Both passes; the outcome is the object to store. -/
def run (ctx : Context) (chain : Chain) (a : Attributes k) : Except AdmissionError (Obj k) :=
  match admitPass ctx chain a with
  | .error e => .error e
  | .ok admitted =>
    match validate ctx chain admitted with
    | .error e => .error e
    | .ok () => .ok admitted.object

variable {ctx : Context} {chain : Chain} {a admitted : Attributes k}

theorem validate_eq_ok_iff :
    validate ctx chain a = .ok () ↔ ∀ plugin ∈ chain, plugin.validate k ctx a = .ok () := by
  induction chain with
  | nil => simp [validate]
  | cons plugin rest ih =>
    cases verdict : plugin.validate k ctx a with
    | error e => simp [validate, verdict]
    | ok _ => simp [validate, verdict, ih]

theorem admitPass_request (done : admitPass ctx chain a = .ok admitted) :
    admitted = { a with object := admitted.object } := by
  induction chain generalizing a with
  | nil =>
    cases done
    rfl
  | cons plugin rest ih =>
    unfold admitPass at done
    split at done
    · cases done
    have unchanged := ih done
    exact unchanged

theorem admitPass_cons_eq_ok_iff {plugin : Plugin} {rest : Chain} :
    admitPass ctx (plugin :: rest) a = .ok admitted ↔
      ∃ object, plugin.admitPass k ctx a = .ok object ∧
        admitPass ctx rest { a with object := object } = .ok admitted := by
  cases verdict : plugin.admitPass k ctx a with
  | error e | ok object => simp [admitPass, verdict]

theorem admitPass_keeps {ctx : Context} {chain : Chain} {a admitted : Attributes k}
    (kept : Obj k → Prop)
    (keeps : ∀ plugin ∈ chain, ∀ object next, kept object →
      plugin.admitPass k ctx { a with object := object } = .ok next → kept next)
    (initial : kept a.object) (done : admitPass ctx chain a = .ok admitted) :
    kept admitted.object := by
  induction chain generalizing a with
  | nil =>
    cases done
    exact initial
  | cons plugin rest ih =>
    obtain ⟨object, rewritten, done⟩ := admitPass_cons_eq_ok_iff.1 done
    refine ih ?_ (keeps plugin (by simp) a.object object initial rewritten) done
    intro later mem
    exact keeps later (List.mem_cons_of_mem plugin mem)

theorem admitPass_of_fixed (fixed : ∀ plugin ∈ chain, plugin.admitPass k ctx a = .ok a.object) :
    admitPass ctx chain a = .ok a := by
  induction chain with
  | nil => rfl
  | cons plugin rest ih =>
    refine admitPass_cons_eq_ok_iff.2 ⟨a.object, fixed plugin (by simp), ?_⟩
    exact ih fun later mem => fixed later (List.mem_cons_of_mem plugin mem)

theorem admitPass_append_of_keep (chain : Chain) {guards : Chain}
    (keep : ∀ plugin ∈ guards, ∀ a : Attributes k, plugin.admitPass k ctx a = .ok a.object)
    (a : Attributes k) : admitPass ctx (chain ++ guards) a = admitPass ctx chain a := by
  induction chain generalizing a with
  | nil => exact admitPass_of_fixed fun plugin mem => keep plugin mem a
  | cons plugin rest ih => simp only [List.cons_append, admitPass, ih]

theorem run_eq_ok_iff {object : Obj k} :
    run ctx chain a = .ok object ↔
      admitPass ctx chain a = .ok { a with object := object } ∧
        ∀ plugin ∈ chain, plugin.validate k ctx { a with object := object } = .ok () := by
  unfold run
  constructor
  · intro done
    split at done
    · cases done
    rename_i admitted rewritten
    split at done
    · cases done
    rename_i ok
    cases done
    rw [admitPass_request rewritten] at ok rewritten
    exact ⟨rewritten, validate_eq_ok_iff.1 ok⟩
  rintro ⟨rewritten, ok⟩
  rw [rewritten]
  simp only [validate_eq_ok_iff.2 ok]

end Chain

end Horchestra.Admission
