import Mathlib.Tactic.Common

/-!
# Id maps of user namespaces

A user namespace carries a list of extents, each mapping a run of ids inside it onto a
run of ids outside.  `toHost` is the kernel's translation of an inside id; an id that no
extent covers has no meaning outside.
-/

namespace Foundations.UserNamespace

/-- A run of `count` ids starting at `inside`, mapped onto the run starting at `outside`. -/
structure Extent where
  inside : Int
  outside : Int
  count : Int

abbrev IdMap := List Extent

def Extent.covers (e : Extent) (id : Int) : Bool :=
  decide (e.inside ≤ id) && decide (id < e.inside + e.count)

theorem Extent.covers_iff {e : Extent} {id : Int} :
    e.covers id = true ↔ e.inside ≤ id ∧ id < e.inside + e.count := by
  simp [Extent.covers]

/-- The id outside the namespace that an id inside it stands for. -/
def toHost (map : IdMap) (id : Int) : Option Int :=
  (map.find? fun e => e.covers id).map fun e => e.outside + (id - e.inside)

theorem toHost_cons_of_covers {e : Extent} {map : IdMap} {id : Int} (covered : e.covers id) :
    toHost (e :: map) id = some (e.outside + (id - e.inside)) := by
  simp [toHost, covered]

theorem toHost_cons_of_not_covers {e : Extent} {map : IdMap} {id : Int}
    (uncovered : ¬ e.covers id) : toHost (e :: map) id = toHost map id := by
  simp [toHost, uncovered]

end Foundations.UserNamespace
