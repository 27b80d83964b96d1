import Mathlib.Data.Set.Function

/-!
# Keeping the first entry of every key

A loop that walks a list and skips an entry whose key it has seen keeps one entry for each
key.  What it keeps is in the list, in the order of the first places of the keys, and no key is kept
twice.
-/

namespace Foundations.KeepFirst

variable {α κ : Type} [DecidableEq κ] (key : α → κ)

/-- The entries whose key occurs neither in `seen` nor earlier in the list. -/
def keepFirst (seen : List κ) : List α → List α
  | [] => []
  | x :: rest =>
    if key x ∈ seen then keepFirst seen rest
    else x :: keepFirst (key x :: seen) rest

variable {key}

theorem mem_keepFirst {seen : List κ} {es : List α} {x : α}
    (kept : x ∈ keepFirst key seen es) : x ∈ es ∧ key x ∉ seen := by
  induction es generalizing seen with
  | nil => cases kept
  | cons y rest ih =>
    unfold keepFirst at kept
    split at kept
    · exact ⟨.tail _ (ih kept).1, (ih kept).2⟩
    rename_i unseen
    rcases List.mem_cons.1 kept with rfl | later
    · exact ⟨.head _, unseen⟩
    obtain ⟨mem, other⟩ := ih later
    exact ⟨.tail _ mem, fun pre => other (.tail _ pre)⟩

theorem nodup_keepFirst (seen : List κ) (es : List α) :
    ((keepFirst key seen es).map key).Nodup := by
  induction es generalizing seen with
  | nil => exact List.nodup_nil
  | cons y rest ih =>
    unfold keepFirst
    split
    · exact ih seen
    refine List.nodup_cons.2 ⟨fun again => ?_, ih _⟩
    obtain ⟨x, kept, eq⟩ := List.mem_map.1 again
    exact (mem_keepFirst kept).2 (eq ▸ (.head _))

theorem mem_map_keepFirst {seen : List κ} {es : List α} {k : κ} :
    k ∈ (keepFirst key seen es).map key ↔ k ∈ es.map key ∧ k ∉ seen := by
  induction es generalizing seen with
  | nil => simp [keepFirst]
  | cons y rest ih =>
    unfold keepFirst
    split
    next again =>
      rw [ih, List.map_cons, List.mem_cons]
      grind
    next unseen =>
      rw [List.map_cons, List.mem_cons, ih, List.map_cons, List.mem_cons, List.mem_cons]
      grind

omit [DecidableEq κ] in
theorem rel_or_eq_of_pairwise {R : κ → κ → Prop} {ks : List κ} (sorted : ks.Pairwise R) {a b : κ}
    (mem : a ∈ ks) (mem' : b ∈ ks) : R a b ∨ a = b ∨ R b a := by
  induction sorted with
  | nil => cases mem
  | cons first _ ih => grind

/-- What is kept is in the order of the first places of its keys. -/
theorem pairwise_idxOf_keepFirst (seen : List κ) (es : List α) :
    ((keepFirst key seen es).map key).Pairwise fun a b =>
      (es.map key).idxOf a < (es.map key).idxOf b := by
  induction es generalizing seen with
  | nil => exact List.Pairwise.nil
  | cons y rest ih =>
    have later {seen' : List κ} (known : key y ∈ seen') :
        ((keepFirst key seen' rest).map key).Pairwise fun a b =>
          ((y :: rest).map key).idxOf a < ((y :: rest).map key).idxOf b := by
      refine (ih seen').imp_of_mem fun {a b} mem mem' less => ?_
      have ne := fun eq : key y = a => (mem_map_keepFirst.1 mem).2 (eq ▸ known)
      have ne' := fun eq : key y = b => (mem_map_keepFirst.1 mem').2 (eq ▸ known)
      simpa [List.idxOf_cons, beq_eq_false_iff_ne.2 ne, beq_eq_false_iff_ne.2 ne'] using less
    unfold keepFirst
    split
    next again => exact later again
    next unseen =>
      refine List.pairwise_cons.2 ⟨fun b mem => ?_, later (.head _)⟩
      have ne := fun eq : key y = b => (mem_map_keepFirst.1 mem).2 (eq ▸ .head _)
      simp [List.idxOf_cons, beq_eq_false_iff_ne.2 ne]

end Foundations.KeepFirst
