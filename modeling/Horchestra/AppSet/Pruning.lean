import Horchestra.AppSet.Pass

/-!
# What a pass over a set may delete

Pruning is meant to remove the children a set no longer renders.  It compares the owned
children with those that are left after the init gate and the pinning stage, so it also
removes a child that is only being withheld.  `prunes_only_unrendered_iff` gives the exact
inputs on which a pass deletes no rendered child, and `running_service_pruned` is a running
service that goes because an init step was added in front of it.
-/

namespace Horchestra.AppSet

open Api Foundations Text NameMap

section

variable {digests : Digests} {answers : Answers} {set : ApplicationSet} {nodes : List Node}
  {apps : List Application}

/-- No child that the set renders is deleted in a pass. -/
def PrunesOnlyUnrendered (digests : Digests) (answers : Answers) (set : ApplicationSet)
    (nodes : List Node) (apps : List Application) : Prop :=
  ∀ ns name, .deleteApplication ns name ∈ reconcileSet digests answers set nodes apps →
    ∀ children, expand digests set nodes = .ok children →
      ∀ child ∈ children, child.metadata.name ≠ name

theorem delete_mem_converge_iff {kids : List Application} {ns name : String} :
    .deleteApplication ns name ∈ converge digests answers set nodes apps kids ↔
      set.spec.prune = true ∧ ∃ c, (ownedChildren set apps)[name]? = some c ∧
        name ∉ (wanted set (renderedByName kids) (ownedChildren set apps)).1 ∧
        c.metadata.ns = ns := by
  rw [mem_converge_iff rfl, mem_prune_iff]
  constructor
  · rintro (wrote | ⟨on, other, c, owned, unwanted, eq⟩)
    · obtain ⟨other, want, -, due⟩ := childWrites_due wrote
      cases due
    · cases eq
      exact ⟨on, c, owned, unwanted, rfl⟩
  rintro ⟨on, c, owned, unwanted, rfl⟩
  exact .inr ⟨on, name, c, owned, unwanted, rfl⟩

/-- **Pruning spares every rendered child exactly when none of those that exist is being
withheld.** -/
theorem prunes_only_unrendered_iff (live : set.deleting = false) :
    PrunesOnlyUnrendered digests answers set nodes apps ↔
      set.spec.prune = false ∨ ∀ children, expand digests set nodes = .ok children →
        ∀ child ∈ children, child.metadata.name ∈ ownedChildren set apps →
          InTurn set (renderedByName children) (ownedChildren set apps) child.metadata.name
            child := by
  constructor
  · intro spares
    cases on : set.spec.prune with
    | false => exact .inl rfl
    | true =>
      refine .inr fun children done child member owned => ?_
      have found := (indexBy_id_eq_some_iff (expand_nodup done)).2 ⟨member, rfl⟩
      have isWanted : child.metadata.name ∈
          (wanted set (renderedByName children) (ownedChildren set apps)).1 := by
        by_contra unwanted
        obtain ⟨stored, present⟩ :=
          Option.isSome_iff_exists.1 (Std.ExtTreeMap.mem_iff_isSome_getElem?.1 owned)
        refine spares stored.metadata.ns child.metadata.name ?_ children done child member rfl
        simp only [reconcileSet, live, done]
        exact delete_mem_converge_iff.2 ⟨on, stored, present, unwanted, rfl⟩
      obtain ⟨other, rendered, inTurn⟩ := mem_wanted_iff.1 isWanted
      cases found.symm.trans rendered
      exact inTurn
  intro harmless ns name deleted children done child member same
  simp only [reconcileSet, live, done] at deleted
  obtain ⟨on, stored, present, unwanted, -⟩ := delete_mem_converge_iff.1 deleted
  rcases harmless with off | inTurn
  · rw [off] at on
    cases on
  subst same
  have owned : child.metadata.name ∈ ownedChildren set apps :=
    Std.ExtTreeMap.mem_iff_isSome_getElem?.2 (by simp [present])
  have found := (indexBy_id_eq_some_iff (expand_nodup done)).2 ⟨member, rfl⟩
  exact unwanted (mem_wanted_iff.2 ⟨child, found, inTurn children done child member owned⟩)

end

/-! ### A running service that goes when a step is added

The set `shop` renders a service `web`, which runs.  An edit adds the init step `migrate`. -/

def component (name policy image : String) : NamedApplicationSpec :=
  { name := name, spec := { image := image, lifecycle := { restartPolicy := policy } } }

def shopOf (components : List NamedApplicationSpec) : ApplicationSet where
  metadata := { name := "shop", ns := "a", uid := "uid-1" }
  spec := { applications := components }

/-- Digests that tell specs apart by their image. -/
def imageDigests : Digests where
  specHash := fun spec => .ok spec.image
  short := fun name => name

/-- The stored child of a component of `shop`, with what its node reports. -/
def storedChild (comp : NamedApplicationSpec) (phase : String) : Application where
  metadata := {
    name := "shop-" ++ comp.name
    ns := "a"
    generation := 1
    labels := childLabels (shopOf [comp]) comp
    annotations := (∅ : StringMap).insert annAppsetSpecHash comp.spec.image
    ownerReferences := [ownerReference (shopOf [comp])] }
  spec := comp.spec
  status := { phase := phase, observedGeneration := 1 }

def migrate (image : String) : NamedApplicationSpec := component "migrate" restartNever image

def web (image : String) : NamedApplicationSpec := component "web" restartAlways image

def refuseAll : Answers := { services := some [], accepts := fun _ => false }

theorem running_service_pruned :
    (shopOf [migrate "m:1", web "w:1"]).deleting = false ∧
      ¬ PrunesOnlyUnrendered imageDigests refuseAll (shopOf [migrate "m:1", web "w:1"]) []
        [storedChild (web "w:1") appPhaseRunning] := by
  refine ⟨rfl, fun spares => ?_⟩
  have rendered : ∃ children, expand imageDigests (shopOf [migrate "m:1", web "w:1"]) [] =
      .ok children ∧ ∃ child ∈ children, child.metadata.name = "shop-web" :=
    ⟨_, rfl, by decide +kernel⟩
  obtain ⟨children, done, child, member, named⟩ := rendered
  exact spares "a" "shop-web" (by decide +kernel) children done child member named

theorem prunes_only_unrendered_iff_shop :
    PrunesOnlyUnrendered imageDigests refuseAll (shopOf [migrate "m:1", web "w:1"]) []
        [storedChild (web "w:1") appPhaseRunning] ↔
      (shopOf [migrate "m:1", web "w:1"]).spec.prune = false ∨
        ∀ children, expand imageDigests (shopOf [migrate "m:1", web "w:1"]) [] = .ok children →
          ∀ child ∈ children,
            child.metadata.name ∈ ownedChildren (shopOf [migrate "m:1", web "w:1"])
              [storedChild (web "w:1") appPhaseRunning] →
            InTurn (shopOf [migrate "m:1", web "w:1"]) (renderedByName children)
              (ownedChildren (shopOf [migrate "m:1", web "w:1"])
                [storedChild (web "w:1") appPhaseRunning]) child.metadata.name child :=
  prunes_only_unrendered_iff rfl

end Horchestra.AppSet
