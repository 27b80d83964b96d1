import Horchestra.Foundations.KeepFirst

/-!
# Layers of a file system

A layer changes the tree below it: it has entries of its own and hides others.  A mounted stack shows
at every path what the topmost layer that has an entry there or hides it says.  So of a layer that is
in the stack twice only the upper one counts (`mount_keepFirst`).
-/

namespace Foundations.Overlays

open KeepFirst

variable {Path Entry α κ : Type} [DecidableEq κ]

/-- The entries of a layer, and the paths below it that it hides. -/
structure Changeset (Path Entry : Type) where
  adds : Path → Option Entry
  hides : Path → Bool

def Changeset.apply (c : Changeset Path Entry) (below : Path → Option Entry) (path : Path) :
    Option Entry :=
  match c.adds path with
  | some entry => some entry
  | none => if c.hides path then none else below path

/-- The tree a stack of layers shows, the topmost layer first. -/
def mount (layer : κ → Changeset Path Entry) : List κ → Path → Option Entry
  | [], _ => none
  | top :: rest, path => (layer top).apply (mount layer rest) path

/-- The layer says nothing about the path. -/
def Changeset.Transparent (c : Changeset Path Entry) (path : Path) : Prop :=
  c.adds path = none ∧ c.hides path = false

variable {layer : κ → Changeset Path Entry} {key : α → κ} {path : Path}

theorem mount_keepFirst_of_seen {seen : List κ} {layers : List α}
    (transparent : ∀ k ∈ seen, (layer k).Transparent path) :
    mount layer ((keepFirst key seen layers).map key) path = mount layer (layers.map key) path := by
  induction layers generalizing seen with
  | nil => rfl
  | cons top rest ih =>
    rw [keepFirst]
    split
    next again =>
      obtain ⟨empty, shown⟩ := transparent _ again
      rw [ih transparent]
      simp [mount, Changeset.apply, empty, shown]
    rename_i new
    simp only [List.map_cons, mount, Changeset.apply]
    split
    · rfl
    rename_i empty
    split
    · rfl
    next shown => exact ih (List.forall_mem_cons.2 ⟨⟨empty, by simpa using shown⟩, transparent⟩)

/-- **Only the topmost of equal layers counts.** -/
theorem mount_keepFirst (layers : List α) :
    mount layer ((keepFirst key [] layers).map key) = mount layer (layers.map key) :=
  funext fun _ => mount_keepFirst_of_seen (by simp)

end Foundations.Overlays
