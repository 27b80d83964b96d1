import Horchestra.AppSet.Pass
import Horchestra.Service.Soundness

/-!
# What a workload uses

A workload uses the secrets its environment and its volumes name, and a share of the service it
joins.  A rendered child uses nothing that its set does not name, with one exception: a component
with ports and no service of its own joins a service whose name is made up from the set's and the
component's (`specUses_renderSpec`).
-/

namespace Horchestra.AppSet

open Api Storage Admission Foundations Checks NameMap

/-! ## Uses -/

/-- Something of a namespace that a workload uses by naming it. -/
inductive Use where
  | secret (name : String)
  | service (name : String)
  deriving DecidableEq

def specUses (spec : ApplicationSpec) : List Use :=
  (secretNames spec.env spec.volumes).map .secret ++
    if spec.serviceName = "" then [] else [.service spec.serviceName]

/-- What the author of a set wrote down, in the shared block and in the components. -/
def setUses (set : ApplicationSet) : List Use :=
  (secretNames set.spec.common.env set.spec.common.volumes).map .secret ++
    set.spec.applications.flatMap fun comp => specUses comp.spec

variable {spec : ApplicationSpec}

theorem mem_specUses_iff {use : Use} :
    use ∈ specUses spec ↔
      (∃ name ∈ secretNames spec.env spec.volumes, use = .secret name) ∨
        (spec.serviceName ≠ "" ∧ use = .service spec.serviceName) := by
  unfold specUses
  split
  next none => simp [none, eq_comm]
  next joins => simp [joins, eq_comm]

theorem specUses_congr {spec' : ApplicationSpec} (env : spec'.env = spec.env)
    (vols : spec'.volumes = spec.volumes) (svc : spec'.serviceName = spec.serviceName) :
    specUses spec' = specUses spec := by
  rw [specUses, specUses, env, vols, svc]

/-! ## What a set renders -/

section

variable {digests : Digests} {set : ApplicationSet} {comp : NamedApplicationSpec}

variable {name n : String}

theorem mem_secretNames_iff {env : List EnvVar} {vols : List VolumeMount} :
    name ∈ secretNames env vols ↔
      (∃ v ∈ env, ∃ ref, v.secretRef = some ref ∧ ref.name = name ∧ name ≠ "") ∨
        (∃ m ∈ vols, m.isSecret = true ∧ m.volume.name = name ∧ name ≠ "") := by
  simp only [secretNames, List.mem_append, List.mem_filterMap, Option.bind_eq_some_iff,
    Option.ite_none_right_eq_some, Option.some.injEq, Bool.and_eq_true, decide_eq_true_eq]
  constructor
  · rintro (⟨v, mem, ref, isRef, named, rfl⟩ | ⟨m, mem, ⟨isSecret, named⟩, rfl⟩)
    · exact .inl ⟨v, mem, ref, isRef, rfl, named⟩
    · exact .inr ⟨m, mem, isSecret, rfl, named⟩
  rintro (⟨v, mem, ref, isRef, rfl, named⟩ | ⟨m, mem, isSecret, rfl, named⟩)
  · exact .inl ⟨v, mem, ref, isRef, named, rfl⟩
  · exact .inr ⟨m, mem, ⟨isSecret, named⟩, rfl⟩

variable {own common : List EnvVar}

theorem mem_projectEnv {v : EnvVar} (mem : v ∈ projectEnv own common) :
    v ∈ own ∨ v ∈ common := by
  unfold projectEnv at mem
  induction common generalizing own with
  | nil => exact .inl mem
  | cons first rest ih =>
    rw [List.foldl_cons] at mem
    rcases ih mem with pre | later
    · split at pre
      · exact .inl pre
      · rcases List.mem_append.1 pre with inOwn | isFirst
        · exact .inl inOwn
        · exact .inr (by simp_all)
    · exact .inr (.tail _ later)

theorem mem_projectVolumes {own common : List VolumeMount} {m : VolumeMount}
    (mem : m ∈ projectVolumes own common) : m ∈ own ∨ m ∈ common := by
  rcases List.mem_append.1 mem with inOwn | shared
  · exact .inl inOwn
  · exact .inr (List.mem_filter.1 shared).1

/-- The secrets of a child are the component's and the shared block's. -/
theorem secretNames_project {ownVolumes commonVolumes : List VolumeMount}
    (mem : name ∈ secretNames (projectEnv own common) (projectVolumes ownVolumes commonVolumes)) :
    name ∈ secretNames own ownVolumes ∨ name ∈ secretNames common commonVolumes := by
  simp only [mem_secretNames_iff] at mem ⊢
  rcases mem with ⟨v, inEnv, isRef⟩ | ⟨m, inVolumes, isSecret⟩
  · rcases mem_projectEnv inEnv with inOwn | shared
    · exact .inl (.inl ⟨v, inOwn, isRef⟩)
    · exact .inr (.inl ⟨v, shared, isRef⟩)
  rcases mem_projectVolumes inVolumes with inOwn | shared
  · exact .inl (.inr ⟨m, inOwn, isSecret⟩)
  · exact .inr (.inr ⟨m, shared, isSecret⟩)

theorem renderSpec_env (n : String) : (renderSpec digests set comp n).env =
    projectEnv comp.spec.env set.spec.common.env := by
  simp only [renderSpec]
  split <;> split <;> rfl

theorem renderSpec_volumes (n : String) : (renderSpec digests set comp n).volumes =
    projectVolumes comp.spec.volumes set.spec.common.volumes := by
  simp only [renderSpec]
  split <;> split <;> rfl

theorem renderSpec_serviceName (n : String) : (renderSpec digests set comp n).serviceName =
    serviceFor digests set comp := by
  have own : serviceFor digests set comp = "" → comp.spec.serviceName = "" := by
    intro none
    by_contra named
    simp [serviceFor, named] at none
  simp only [renderSpec]
  by_cases joins : serviceFor digests set comp = ""
  · simp only [joins, ne_eq, not_true_eq_false, if_false]
    split <;> exact own joins
  simp only [ne_eq, joins, not_false_eq_true, if_true]
  split <;> rfl

/-- **What a rendered spec uses is named by the set, or is the service the set makes up for the
component.** -/
theorem specUses_renderSpec {use : Use} (listed : comp ∈ set.spec.applications)
    (mem : use ∈ specUses (renderSpec digests set comp n)) :
    use ∈ setUses set ∨ (renderedServiceName digests set comp ≠ "" ∧
      use = .service (renderedServiceName digests set comp)) := by
  have ofComponent : ∀ {use : Use}, use ∈ specUses comp.spec → use ∈ setUses set := fun inSpec =>
    List.mem_append.2 (.inr (List.mem_flatMap.2 ⟨comp, listed, inSpec⟩))
  rcases mem_specUses_iff.1 mem with ⟨name, named, rfl⟩ | ⟨joins, rfl⟩
  · rw [renderSpec_env, renderSpec_volumes] at named
    rcases secretNames_project named with own | shared
    · exact .inl (ofComponent (mem_specUses_iff.2 (.inl ⟨name, own, rfl⟩)))
    · exact .inl (List.mem_append.2 (.inl (List.mem_map_of_mem shared)))
  rw [renderSpec_serviceName] at joins ⊢
  by_cases named : comp.spec.serviceName = ""
  · have madeUp : serviceFor digests set comp = renderedServiceName digests set comp := by
      simp [serviceFor, named]
    rw [madeUp] at joins ⊢
    exact .inr ⟨joins, rfl⟩
  have wrote : serviceFor digests set comp = comp.spec.serviceName := by
    simp [serviceFor, named]
  rw [wrote]
  exact .inl (ofComponent (mem_specUses_iff.2 (.inr ⟨named, rfl⟩)))

variable {nodes : List Node} {kids : List Application}

theorem expand_built (done : expand digests set nodes = .ok kids) :
    ∀ child ∈ kids, ∃ comp ∈ set.spec.applications, ∃ n replica,
      buildChild digests set comp n replica = .ok child := by
  refine expand_induction (fun kids => ∀ child ∈ kids, ∃ comp ∈ set.spec.applications,
    ∃ n replica, buildChild digests set comp n replica = .ok child) (by simp) ?_ done
  intro kids comp n replica child listed isChild unseen built other mem
  rcases List.mem_append.1 mem with past | isLast
  · exact built other past
  obtain rfl := List.mem_singleton.1 isLast
  exact ⟨comp, listed, n, replica, isChild⟩

theorem buildChild_spec {replica : Option Nat} {c : Application}
    (built : buildChild digests set comp n replica = .ok c) :
    c.spec = renderSpec digests set comp n ∧ c.metadata.ns = set.metadata.ns ∧
      c.metadata.ownerReferences = [ownerReference set] := by
  unfold buildChild at built
  split at built
  · cases built
  cases built
  exact ⟨rfl, rfl, rfl⟩

variable {old : Children}

/-- The writes of children in a pass over a live set: each is about a child whose uses the set
names or makes up. -/
structure ChildOf (digests : Digests) (set : ApplicationSet) (want : Application) : Prop where
  ns : want.metadata.ns = set.metadata.ns
  references : want.metadata.ownerReferences = [ownerReference set]
  uses : ∀ use ∈ specUses want.spec, use ∈ setUses set ∨
    ∃ comp ∈ set.spec.applications, renderedServiceName digests set comp ≠ "" ∧
      use = .service (renderedServiceName digests set comp)

theorem childOf_of_wanted {want : Application} (done : expand digests set nodes = .ok kids)
    (hit : (wanted set (renderedByName kids) old).1[name]? = some want) :
    ChildOf digests set want := by
  obtain ⟨c, isRendered, -, placement, rfl⟩ := wanted_lookup hit
  obtain ⟨c, listed, -, rfl⟩ := exists_of_indexBy isRendered
  obtain ⟨comp, isComponent, n, replica, built⟩ := expand_built done c listed
  obtain ⟨spec, ns, refs⟩ := buildChild_spec built
  refine ⟨ns, refs, ?_⟩
  intro use mem
  rw [specUses_congr rfl rfl rfl, id, spec] at mem
  rcases specUses_renderSpec isComponent mem with named | madeUp
  · exact .inl named
  · exact .inr ⟨comp, isComponent, madeUp⟩

end

end Horchestra.AppSet
