import Horchestra.Api.Core
import Horchestra.Foundations.Checks

/-!
# Rendering an application set

An `ApplicationSet` is a list of named components.  Each component becomes one child
`Application`, or as many as its replica count says, or one for every node its selector
matches.  A child carries the component's spec with the set's shared configuration
projected in, the reserved labels, a digest of the rendered spec and a reference to the set
that controls it.  Components with ports also render a `Service`.

Rendering fails rather than produce two children of one name, so the children of a rendered
set are told apart by their names (`expand_nodup`), and every child is labelled with the
component it was rendered from.  What a child gets of the shared configuration is
`common_is_layered_iff`.
-/

namespace Horchestra.AppSet

open Api Foundations Text Checks

def maxChildren : Nat := 500

/-- The two digests the renderer takes: of a spec, through its JSON text, and of a name that
is too long, cut to its first eight hexadecimal digits. -/
structure Digests where
  specHash : ApplicationSpec → Except String String
  short : String → String

/-! ## Names -/

/-- Lower case of the letters whose lower case is an ASCII letter. -/
def toLower (c : Char) : Char :=
  if 'A' ≤ c ∧ c ≤ 'Z' then c.toLower
  else if c.toNat = 0x212A then 'k'
  else if c.toNat = 0x130 then 'i'
  else c

def nameChar (c : Char) : Char :=
  if ('a' ≤ c ∧ c ≤ 'z') ∨ ('0' ≤ c ∧ c ≤ '9') ∨ c = '-' ∨ c = '.' then c else '-'

def isTrimmed (c : Char) : Bool := c == '-' || c == '.'

/-- A valid object name from any text: foreign characters become dashes, dashes and dots are
trimmed at both ends, and a name that is too long ends in a digest. -/
def sanitizeName (digests : Digests) (name : String) : String :=
  let mapped := name.toList.map fun c => nameChar (toLower c)
  let trimmed := ((mapped.dropWhile isTrimmed).reverse.dropWhile isTrimmed).reverse
  if 253 < trimmed.length then
    String.ofList (trimmed.take 244) ++ "-" ++ digests.short (String.ofList trimmed)
  else String.ofList trimmed

/-- The service a set renders for a component; empty when it renders none. -/
def renderedServiceName (digests : Digests) (set : ApplicationSet) (comp : NamedApplicationSpec) :
    String :=
  if comp.spec.ports.isEmpty || comp.spec.serviceName ≠ "" ||
      comp.spec.lifecycle.restartPolicy == restartNever then ""
  else sanitizeName digests (set.metadata.name ++ "-" ++ comp.name)

def serviceFor (digests : Digests) (set : ApplicationSet) (comp : NamedApplicationSpec) : String :=
  if comp.spec.serviceName ≠ "" then comp.spec.serviceName
  else renderedServiceName digests set comp

/-! ## One child -/

/-- The child's own variables, then the shared ones whose names are still free. -/
def projectEnv (own common : List EnvVar) : List EnvVar :=
  common.foldl (fun env e => if env.any (·.name == e.name) then env else env ++ [e]) own

/-- The child's own mounts, then the shared ones at paths the child does not mount itself. -/
def projectVolumes (own common : List VolumeMount) : List VolumeMount :=
  own ++ common.filter fun m => !own.any (·.mountPath == m.mountPath)

def projectCommon (spec : ApplicationSpec) (common : CommonMeta) : ApplicationSpec :=
  { spec with
    env := projectEnv spec.env common.env
    volumes := projectVolumes spec.volumes common.volumes }

def mergeStrings (base top : StringMap) : StringMap := copyInto base top

/-- The reserved labels go on last, so that nothing overrides them. -/
def childLabels (set : ApplicationSet) (comp : NamedApplicationSpec) : StringMap :=
  ((mergeStrings set.spec.common.labels comp.metadata.labels).insert labelApplicationSet
    set.metadata.name).insert labelComponent comp.name

/-- The reference by which a set controls what it renders. -/
def ownerReference (set : ApplicationSet) : OwnerReference where
  apiVersion := groupVersion
  kind := "ApplicationSet"
  name := set.metadata.name
  uid := set.metadata.uid
  controller := some true

/-- The spec a child carries, before its digest is taken. -/
def renderSpec (digests : Digests) (set : ApplicationSet) (comp : NamedApplicationSpec)
    (node : String) : ApplicationSpec :=
  let spec := projectCommon comp.spec set.spec.common
  let service := serviceFor digests set comp
  let spec := if service ≠ "" then { spec with serviceName := service } else spec
  if node ≠ "" then { spec with placement := { spec.placement with nodeName := node } } else spec

def childName (digests : Digests) (set : ApplicationSet) (comp : NamedApplicationSpec)
    (node : String) (replica : Option Nat) : String :=
  let name := set.metadata.name ++ "-" ++ comp.name
  let name := match replica with
    | some i => name ++ "-" ++ Nat.repr i
    | none => name
  sanitizeName digests (if node ≠ "" then name ++ "-" ++ node else name)

/-- One child of a component.  `node` is empty for a child the scheduler places. -/
def buildChild (digests : Digests) (set : ApplicationSet) (comp : NamedApplicationSpec)
    (node : String) (replica : Option Nat) : Except String Application :=
  match digests.specHash (renderSpec digests set comp node) with
  | .error e =>
    .error ("applicationset " ++ quote set.metadata.name ++ " component " ++ quote comp.name ++
      ": " ++ e)
  | .ok hash => .ok {
      metadata := {
        name := childName digests set comp node replica
        ns := set.metadata.ns
        labels := childLabels set comp
        annotations := (mergeStrings set.spec.common.annotations
          comp.metadata.annotations).insert annAppsetSpecHash hash
        ownerReferences := [ownerReference set] }
      spec := renderSpec digests set comp node }

/-! ## All children -/

/-- The child indexes of a component that is not spread over nodes. -/
def replicaIndexes (comp : NamedApplicationSpec) : List (Option Nat) :=
  match comp.scale.replicas with
  | none => [none]
  | some count => (List.range count.toNat).map some

/-- Whether every selector label has the same value among `labels`, where an absent label
reads as empty. -/
def selectorMatches (selector labels : StringMap) : Bool :=
  selector.toList.all fun (key, value) => labels.getD key "" == value

/-- The node and the index of every child of a component. -/
def slots (nodes : List Node) (comp : NamedApplicationSpec) : List (String × Option Nat) :=
  match comp.scale.nodeSpread with
  | none => (replicaIndexes comp).map fun replica => ("", replica)
  | some selector =>
    (nodes.filter fun n => selectorMatches selector n.schedulingLabels).map
      fun n => (n.metadata.name, none)

/-- Adds a child, unless its name is taken or the set is full. -/
def addChild (set : ApplicationSet) (children : List Application) (child : Application) :
    Except String (List Application) :=
  if children.any (·.metadata.name == child.metadata.name) then
    .error ("applicationset " ++ quote set.metadata.name ++ " renders a duplicate child name " ++
      quote child.metadata.name)
  else if maxChildren ≤ children.length then
    .error ("applicationset " ++ quote set.metadata.name ++ " renders more than " ++
      Nat.repr maxChildren ++ " children")
  else .ok (children ++ [child])

def expandSlot (digests : Digests) (set : ApplicationSet) (comp : NamedApplicationSpec)
    (children : List Application) (slot : String × Option Nat) :
    Except String (List Application) :=
  match buildChild digests set comp slot.1 slot.2 with
  | .error e => .error e
  | .ok child => addChild set children child

def expandComponent (digests : Digests) (set : ApplicationSet) (nodes : List Node)
    (children : List Application) (comp : NamedApplicationSpec) :
    Except String (List Application) :=
  (slots nodes comp).foldlM (expandSlot digests set comp) children

def expand (digests : Digests) (set : ApplicationSet) (nodes : List Node) :
    Except String (List Application) :=
  if set.spec.applications.isEmpty then
    .error ("applicationset " ++ quote set.metadata.name ++ " has no applications")
  else set.spec.applications.foldlM (expandComponent digests set nodes) []

/-- The services a set wants: one for every component that renders a service name. -/
def expandServices (digests : Digests) (set : ApplicationSet) : List Service :=
  set.spec.applications.filterMap fun comp =>
    if renderedServiceName digests set comp = "" then none
    else some {
      metadata := {
        name := renderedServiceName digests set comp
        ns := set.metadata.ns
        labels := ((∅ : StringMap).insert labelApplicationSet set.metadata.name).insert
          labelComponent comp.name
        ownerReferences := [ownerReference set] }
      -- the port is narrowed to 32 bits on the way
      spec := { ports := comp.spec.ports.map fun p =>
        { name := p.name, port := Int.bmod p.port (2 ^ 32) } } }

/-! ## What rendering guarantees -/

/-- The component a child was rendered from, as its label says. -/
def componentOf (app : Application) : String := app.metadata.labels.getD labelComponent ""

variable {digests : Digests} {set : ApplicationSet} {comp : NamedApplicationSpec}

theorem componentOf_buildChild {n : String} {replica : Option Nat} {c : Application}
    (built : buildChild digests set comp n replica = .ok c) :
    componentOf c = comp.name := by
  unfold buildChild at built
  split at built
  · cases built
  cases built
  simp [componentOf, childLabels]

/-- The children rendered so far: told apart by name, and labelled with a component of the
set. -/
structure Rendered (set : ApplicationSet) (children : List Application) : Prop where
  distinct : (children.map (·.metadata.name)).Nodup
  labelled : ∀ child ∈ children, ∃ comp ∈ set.spec.applications, componentOf child = comp.name

variable {children : List Application}

variable {nodes : List Node}

/-- What holds of no children and stays when one is added holds of the children of a set. -/
theorem expand_induction (holds : List Application → Prop) (none : holds [])
    (add : ∀ (children : List Application) (comp : NamedApplicationSpec) (n : String)
      (replica : Option Nat) (c : Application), comp ∈ set.spec.applications →
      buildChild digests set comp n replica = .ok c →
      (∀ other ∈ children, other.metadata.name ≠ c.metadata.name) →
      holds children → holds (children ++ [c]))
    (done : expand digests set nodes = .ok children) : holds children := by
  unfold expand at done
  split at done
  · cases done
  refine foldlM_keeps holds ?_ none done
  intro start comp listed next kept step
  refine foldlM_keeps holds ?_ kept step
  intro pre slot _ after kept taken
  unfold expandSlot at taken
  split at taken
  · cases taken
  rename_i c built
  unfold addChild at taken
  split at taken
  · cases taken
  rename_i unseen
  split at taken
  · cases taken
  cases taken
  simp only [List.any_eq_true, beq_iff_eq, not_exists, not_and] at unseen
  exact add pre comp slot.1 slot.2 c listed built unseen kept

theorem expand_rendered (done : expand digests set nodes = .ok children) :
    Rendered set children := by
  refine expand_induction (Rendered set) ⟨by simp, by simp⟩ ?_ done
  intro children comp n replica c listed built unseen made
  constructor
  · rw [List.map_append, List.map_singleton]
    refine List.nodup_append.2 ⟨made.distinct, by simp, ?_⟩
    intro name past last isLast
    obtain ⟨other, mem, rfl⟩ := List.mem_map.1 past
    obtain rfl := List.mem_singleton.1 isLast
    exact unseen other mem
  intro other mem
  rcases List.mem_append.1 mem with past | isLast
  · exact made.labelled other past
  obtain rfl := List.mem_singleton.1 isLast
  exact ⟨comp, listed, componentOf_buildChild built⟩

theorem expand_nodup (done : expand digests set nodes = .ok children) :
    (children.map (·.metadata.name)).Nodup :=
  (expand_rendered done).distinct

/-! ## The common block -/

theorem projectEnv_cons (own rest : List EnvVar) (e : EnvVar) :
    projectEnv own (e :: rest) =
      projectEnv (if own.any (·.name == e.name) then own else own ++ [e]) rest := rfl

/-- The variables of the component come first, every shared name is defined, and a shared variable
is there only if the component does not define its name. -/
theorem projectEnv_spec (own common : List EnvVar) :
    own <+: projectEnv own common ∧ (∀ e ∈ common, ∃ x ∈ projectEnv own common, x.name = e.name) ∧
      ∀ x ∈ projectEnv own common, x ∈ own ∨ x ∈ common ∧ ∀ y ∈ own, y.name ≠ x.name := by
  induction common generalizing own with
  | nil => exact ⟨List.prefix_rfl, by simp, fun x mem => .inl mem⟩
  | cons e rest ih =>
    rw [projectEnv_cons]
    split
    next taken =>
      obtain ⟨first, defined, shared⟩ := ih own
      obtain ⟨x, held, eq⟩ : ∃ x ∈ own, x.name = e.name := by simpa using taken
      refine ⟨first, List.forall_mem_cons.2 ⟨⟨x, first.subset held, eq⟩, defined⟩, fun x mem => ?_⟩
      exact (shared x mem).imp_right fun later => ⟨.tail _ later.1, later.2⟩
    rename_i free
    obtain ⟨first, defined, shared⟩ := ih (own ++ [e])
    refine ⟨(List.prefix_append own _).trans first, List.forall_mem_cons.2
      ⟨⟨e, first.subset (by simp), rfl⟩, defined⟩, fun x mem => ?_⟩
    rcases shared x mem with held | ⟨later, ne⟩
    · rcases List.mem_append.1 held with held | last
      · exact .inl held
      obtain rfl := List.mem_singleton.1 last
      exact .inr ⟨.head _, by simpa using free⟩
    · exact .inr ⟨.tail _ later, fun y held => ne y (List.mem_append_left _ held)⟩

/-- Nothing is added where every shared name is defined. -/
theorem projectEnv_of_defined {own common : List EnvVar}
    (defined : ∀ e ∈ common, ∃ x ∈ own, x.name = e.name) : projectEnv own common = own := by
  induction common with
  | nil => rfl
  | cons e rest ih =>
    rw [List.forall_mem_cons] at defined
    rw [projectEnv_cons, if_pos (by simpa using defined.1), ih defined.2]

theorem mem_projectEnv_iff {own before after : List EnvVar} {e : EnvVar} (new : e ∉ own ++ before) :
    e ∈ projectEnv own (before ++ e :: after) ↔ ∀ x ∈ own ++ before, x.name ≠ e.name := by
  obtain ⟨first, defined, shared⟩ := projectEnv_spec own before
  have within : ∀ x ∈ projectEnv own before, x ∈ own ++ before := fun x mem =>
    List.mem_append.2 ((shared x mem).imp_right And.left)
  have split : projectEnv own (before ++ e :: after) =
      projectEnv (projectEnv own before) (e :: after) := List.foldl_append
  rw [split]
  constructor
  · intro mem x held eq
    rcases (projectEnv_spec _ _).2.2 e mem with old | ⟨-, ne⟩
    · exact new (within e old)
    rcases List.mem_append.1 held with held | held
    · exact ne x (first.subset held) eq
    obtain ⟨y, hit, named⟩ := defined x held
    exact ne y hit (named.trans eq)
  intro ne
  rw [projectEnv_cons, if_neg (by simpa using fun x held => ne x (within x held))]
  exact (projectEnv_spec _ _).1.subset (by simp)

/-- How often a path is mounted: as often as the component does, or else as often as the block does. -/
theorem count_projectVolumes (own common : List VolumeMount) (path : String) :
    ((projectVolumes own common).map (·.mountPath)).count path =
      (own.map (·.mountPath)).count path +
        if path ∈ own.map (·.mountPath) then 0 else (common.map (·.mountPath)).count path := by
  rw [projectVolumes, List.map_append, List.count_append, Nat.add_left_cancel_iff]
  simp only [List.count, List.countP_map, List.countP_filter]
  split
  next held =>
    obtain ⟨m, mounted, rfl⟩ := List.mem_map.1 held
    refine List.countP_eq_zero.2 fun x _ => ?_
    simp only [Function.comp_apply, Bool.and_eq_true, beq_iff_eq, Bool.not_eq_true',
      List.any_eq_false, not_and]
    exact fun eq free => free m mounted eq.symm
  rename_i free
  refine List.countP_congr fun x _ => ?_
  simp only [Function.comp_apply, Bool.and_eq_true, beq_iff_eq, Bool.not_eq_true',
    List.any_eq_false, and_iff_left_iff_imp]
  rintro rfl m mounted eq
  exact free (List.mem_map.2 ⟨m, mounted, eq⟩)

theorem projectVolumes_again (own common : List VolumeMount) :
    projectVolumes (projectVolumes own common) common = projectVolumes own common := by
  rw [projectVolumes, List.append_right_eq_self, List.filter_eq_nil_iff]
  intro m shared free
  simp only [Bool.not_eq_true', List.any_eq_false, beq_iff_eq] at free
  refine free m (List.mem_append_right _ (List.mem_filter.2 ⟨shared, ?_⟩)) rfl
  simp only [Bool.not_eq_true', List.any_eq_false, beq_iff_eq]
  exact fun x mounted => free x (List.mem_append_left _ mounted)

/-- **The common block is layered under the component but for imports and repeated paths.**  A
shared variable that is not there yet is added exactly when nothing before it has its name, which
for two imports is the empty one; a path is mounted once more exactly when the block repeats it. -/
theorem common_is_layered_iff (spec : ApplicationSpec) (common : CommonMeta) :
    let child := projectCommon spec common
    spec.env <+: child.env ∧ spec.volumes <+: child.volumes ∧
    (∀ before e after, common.env = before ++ e :: after → e ∉ spec.env ++ before →
      (e ∈ child.env ↔ ∀ x ∈ spec.env ++ before, x.name ≠ e.name)) ∧
    (∀ path, (child.volumes.map (·.mountPath)).count path ≤
        max 1 ((spec.volumes.map (·.mountPath)).count path) ↔
      path ∈ spec.volumes.map (·.mountPath) ∨ (common.volumes.map (·.mountPath)).count path ≤ 1) ∧
    projectCommon child common = child := by
  intro child
  refine ⟨(projectEnv_spec _ _).1, List.prefix_append _ _, ?_, fun path => ?_, ?_⟩
  · intro before e after given new
    rw [← mem_projectEnv_iff new, ← given]
    rfl
  · change ((projectVolumes _ _).map _).count path ≤ _ ↔ _
    rw [count_projectVolumes]
    split
    next held => simp [held]
    next free => simp [free, List.count_eq_zero.2 free]
  · have settled := projectEnv_of_defined (projectEnv_spec spec.env common.env).2.1
    change { child with env := projectEnv (projectEnv _ _) _
                        volumes := projectVolumes (projectVolumes _ _) _ } = child
    rw [settled, projectVolumes_again]
    rfl

/-- The shared import is dropped because the component imports another secret, and a path that the
block mounts twice is mounted twice. -/
theorem common_import_is_dropped :
    let wholeSecret (name : String) : EnvVar := { secretRef := some { name, key := "*" } }
    let cache : VolumeMount := { mountPath := "/cache" }
    let child := projectCommon { env := [wholeSecret "tls"] }
      { env := [wholeSecret "db"], volumes := [cache, cache] }
    child.env = [wholeSecret "tls"] ∧ child.volumes = [cache, cache] := by
  decide +kernel

end Horchestra.AppSet
