import Horchestra.Foundations.Overlays
import Horchestra.Oci.Layout

/-!
# The layers of an image as a stack

A directory can be in a stack once only, so a layer that a manifest repeats is left out but once.
`lowerdir`, which the log of a pull shows, keeps the upper one and is right for every manifest; what
is mounted (`layerDigests`) keeps the lower one.

`layer_stack_is_image_iff` says for which manifests what is mounted shows the image: those whose layers
come in one order by their first and by their last places.  `repeated_layer_is_buried` is an image whose
topmost layer is also its lowest.
-/

namespace Horchestra.Oci

open Foundations KeepFirst Overlays

/-- The stack a pull logs, topmost layer first. -/
def lowerdir (manifest : Manifest) : List String :=
  (keepFirst Descriptor.digest [] manifest.layers.reverse).map Descriptor.digest

/-- The digest of every layer, lowest first, repeated ones included. -/
def digests (manifest : Manifest) : List String := manifest.layers.map Descriptor.digest

section

variable {Path Entry : Type} (layer : String → Changeset Path Entry) (manifest : Manifest)

/-- The layers of a manifest, applied one after the other to an empty tree. -/
def applied : Path → Option Entry :=
  (digests manifest).foldl (fun tree digest => (layer digest).apply tree) fun _ => none

theorem mount_reverse (ds : List String) :
    mount layer ds.reverse = ds.foldl (fun tree d => (layer d).apply tree) fun _ => none := by
  induction ds using List.reverseRecOn with
  | nil => rfl
  | append_singleton lower top ih =>
    rw [List.reverse_concat, List.foldl_concat, ← ih]
    rfl

theorem mount_lowerdir : mount layer (lowerdir manifest) = applied layer manifest := by
  rw [lowerdir, mount_keepFirst, List.map_reverse, mount_reverse, applied, digests]

/-- The last place of `a` is before that of `b`. -/
def LastBefore (a b : String) : Prop :=
  (digests manifest).reverse.idxOf b < (digests manifest).reverse.idxOf a

/-- A layer that comes before another one for the first time does so for the last time too. -/
def InPlace : Prop :=
  ∀ a ∈ digests manifest, ∀ b ∈ digests manifest,
    (digests manifest).idxOf a < (digests manifest).idxOf b → LastBefore manifest a b

/-- **The mounted stack is the image**, whatever the layers hold, exactly when the layers come in one
order by their first and by their last places; the stack of `lowerdir` always is. -/
theorem layer_stack_is_image_iff :
    (∀ (Path Entry : Type) (layer : String → Changeset Path Entry),
      mount layer (lowerdir manifest) = applied layer manifest) ∧
    ((∀ (Path Entry : Type) (layer : String → Changeset Path Entry),
        mount layer (layerDigests manifest).reverse = applied layer manifest) ∧
      layerDigests manifest = (lowerdir manifest).reverse ↔ InPlace manifest) := by
  refine ⟨fun _ _ layer => mount_lowerdir layer manifest, ?_⟩
  have firsts : (layerDigests manifest).Pairwise fun a b =>
      (digests manifest).idxOf a < (digests manifest).idxOf b := pairwise_idxOf_keepFirst ..
  have lasts : (lowerdir manifest).reverse.Pairwise (LastBefore manifest) := by
    unfold LastBefore
    rw [List.pairwise_reverse, digests, ← List.map_reverse]
    exact pairwise_idxOf_keepFirst ..
  have kept {d : String} : d ∈ layerDigests manifest ↔ d ∈ digests manifest := by
    simp [layerDigests, mem_map_keepFirst, digests]
  have kept' {d : String} : d ∈ lowerdir manifest ↔ d ∈ digests manifest := by
    simp [lowerdir, mem_map_keepFirst, digests]
  constructor
  · rintro ⟨-, same⟩ a isLayer b isLayer' less
    rw [← same] at lasts
    -- one list is in both orders, and in either of them `a` comes before `b` or after it
    obtain both | eq | both :=
      rel_or_eq_of_pairwise (firsts.and lasts) (kept.2 isLayer) (kept.2 isLayer')
    · exact both.2
    · exact absurd less (eq ▸ lt_irrefl _)
    · exact absurd less both.1.asymm
  · intro inPlace
    have same : layerDigests manifest = (lowerdir manifest).reverse := by
      have : Std.Antisymm (LastBefore manifest) := ⟨fun _ _ less less' => absurd less less'.asymm⟩
      have : Std.Irrefl (LastBefore manifest) := ⟨fun _ => lt_irrefl _⟩
      refine List.Pairwise.eq_of_mem_iff (firsts.imp_of_mem ?_) lasts (by simp [kept, kept'])
      exact fun mem mem' => inPlace _ (kept.1 mem) _ (kept.1 mem')
    refine ⟨fun _ _ layer => ?_, same⟩
    rw [same, List.reverse_reverse, mount_lowerdir]

end

def oneFile (digest : String) : Changeset String String where
  adds path := if path = "etc/motd" then some digest else none
  hides _ := false

def layered (digests : List String) : Manifest where
  layers := digests.map fun digest => { digest }

-- a repeated layer does no harm where no other one stands between
theorem layer_stack_is_image_iff_repeated :
    mount oneFile (layerDigests (layered ["a", "b", "b"])).reverse =
      applied oneFile (layered ["a", "b", "b"]) :=
  ((layer_stack_is_image_iff (layered ["a", "b", "b"])).2.2 (by unfold InPlace LastBefore; decide +kernel)).1
    _ _ oneFile

/-- The topmost layer was unpacked as the lowest one, and its file is hidden. -/
theorem repeated_layer_is_buried :
    applied oneFile (layered ["a", "b", "a"]) "etc/motd" = some "a" ∧
      mount oneFile (layerDigests (layered ["a", "b", "a"])).reverse "etc/motd" = some "b" := by
  decide +kernel

end Horchestra.Oci
