import Horchestra.AppSet.Expand
import Horchestra.Foundations.NameMap

/-!
# Which children may exist yet

A component that runs to completion is an init step.  Steps run in the order they are
declared, and the services of a set wait for all of them: `initGate` cuts the rendered
children down to those whose turn has come.  A co-located set then withholds every child but
one, the anchor, until the anchor has a node (`pinSameNode`).

What the two stages let through is said here without their loops.  A rendered child passes
the gate when every init step declared before its own is done (`initGate_lookup`).  The anchor does
not depend on what the gate let through (`anchorChild_initGate`).
-/

namespace Horchestra.AppSet

open Std Api Foundations Text NameMap

abbrev Children := ExtTreeMap String Application

/-! ## The stages -/

def initComponents (set : ApplicationSet) : ExtTreeMap String Bool :=
  indexBy (·.name) (fun comp => comp.spec.lifecycle.restartPolicy == restartNever)
    set.spec.applications

def isInit (set : ApplicationSet) (component : String) : Bool :=
  (initComponents set).getD component false

/-- The rendered children of one component, in name order. -/
def childrenOf (desired : Children) (component : String) : List String :=
  (desired.filter fun _ app => componentOf app == component).keys

def stepChild (set : ApplicationSet) (desired : Children) (comp : NamedApplicationSpec) :
    Option String :=
  if isInit set comp.name then (childrenOf desired comp.name).head? else none

/-- The child a co-located set places first: the first child of the first init step that has
any, or else the first child. -/
def anchorChild (set : ApplicationSet) (desired : Children) : String :=
  match set.spec.applications.findSome? (stepChild set desired) with
  | some name => name
  | none => desired.keys.head?.getD ""

def initializing (component detail : String) : Condition where
  type := "Initialized"
  status := "False"
  reason := "Initializing"
  message := "init step " ++ quote component ++ " has not completed: " ++ detail

def exitDetail (app : Application) : String :=
  match app.status.exitCode with
  | none => "the node reported no exit status"
  | some code => "exit " ++ String.ofList (itoa code)

/-- Why an init step is not done yet, if it is not. -/
def stepHold (component : String) (existing : Children) : List String → Option Condition
  | [] => none
  | name :: rest =>
    match existing[name]? with
    | none => some (initializing component
        ("child " ++ quote name ++ " has not been created yet"))
    | some cur =>
      if cur.status.phase == appPhaseFailed then
        some {
          type := "Initialized", status := "False", reason := "InitFailed"
          message := "init step " ++ quote component ++ " failed: " ++ exitDetail cur }
      else if !cur.finished then
        some (initializing component ("child " ++ quote name ++ " is still running"))
      else stepHold component existing rest

/-- The gate's walk over the components, with the children let through so far. -/
def gateSteps (set : ApplicationSet) (desired existing : Children) :
    List NamedApplicationSpec → Children → Children × Option Condition
  | [], allowed =>
    -- every step is done: the services follow
    let services := (desired.filter fun _ app => !isInit set (componentOf app)).keys
    (copyKeys {} desired services allowed, none)
  | comp :: rest, allowed =>
    if isInit set comp.name then
      let names := childrenOf desired comp.name
      let allowed := copyKeys {} desired names allowed
      match stepHold comp.name existing names with
      | some condition => (allowed, some condition)
      | none => gateSteps set desired existing rest allowed
    else gateSteps set desired existing rest allowed

/-- The rendered children that may exist right now, and why the others may not. -/
def initGate (set : ApplicationSet) (desired existing : Children) : Children × Option Condition :=
  gateSteps set desired existing set.spec.applications ∅

/-- The node a stored child is placed on; empty when it is not stored or not placed. -/
def nodeOf (existing : Children) (name : String) : String :=
  match existing[name]? with
  | some cur => cur.spec.placement.nodeName
  | none => ""

/-- A sibling that carries no node of its own is pinned to the anchor's. -/
def pinChild (anchor node name : String) (child : Application) : Application :=
  if name ≠ anchor ∧ child.spec.placement.nodeName = "" then
    { child with spec := { child.spec with
        placement := { child.spec.placement with nodeName := node } } }
  else child

/-- Co-locates the children on the anchor's node; until it has one, the anchor is all there
is, and the set is held. -/
def pinSameNode (desired existing : Children) (anchor : String) : Children × Bool :=
  if desired.isEmpty || anchor == "" then (desired, false)
  else
    let node := nodeOf existing anchor
    if node == "" then ((∅ : Children).insert anchor (desired.getD anchor {}), true)
    else (desired.map (pinChild anchor node), false)

/-! ## Lookups in filtered maps -/

variable {index desired existing : Children} {p : String → Application → Bool}
  {name component : String}

theorem getElem?_filter_eq_some_iff {app : Application} :
    (index.filter p)[name]? = some app ↔ index[name]? = some app ∧ p name app = true := by
  rw [ExtTreeMap.getElem?_filter]
  simp

theorem mem_keys_filter_iff :
    name ∈ (index.filter p).keys ↔ ∃ app, index[name]? = some app ∧ p name app = true := by
  rw [ExtTreeMap.mem_keys, ExtTreeMap.mem_iff_isSome_getElem?, Option.isSome_iff_exists]
  simp only [getElem?_filter_eq_some_iff]

theorem mem_childrenOf_iff :
    name ∈ childrenOf desired component ↔
      ∃ app, desired[name]? = some app ∧ componentOf app = component := by
  rw [childrenOf, mem_keys_filter_iff]
  simp only [beq_iff_eq]

/-! ## The gate without its loop -/

/-- Every rendered child of an init step exists, did not fail and has finished. -/
def StepDone (desired existing : Children) (component : String) : Prop :=
  ∀ (name : String) (app : Application), desired[name]? = some app → componentOf app = component →
    ∃ cur : Application, existing[name]? = some cur ∧ cur.status.phase ≠ appPhaseFailed ∧
      cur.finished = true

/-- The components a child of `component` comes after: for a child of an init step those
declared before it, for a service all of them. -/
def declaredBefore (set : ApplicationSet) (component : String) :
    List NamedApplicationSpec → List NamedApplicationSpec :=
  List.takeWhile fun comp => !(isInit set component && comp.name == component)

/-- The init steps a child of `component` waits for. -/
def stepsBefore (set : ApplicationSet) (component : String) : List NamedApplicationSpec :=
  (declaredBefore set component set.spec.applications).filter fun comp => isInit set comp.name

/-- The turn of a child has come: every step it waits for is done. -/
def Released (set : ApplicationSet) (desired existing : Children) (app : Application) : Prop :=
  ∀ step ∈ stepsBefore set (componentOf app), StepDone desired existing step.name

theorem stepHold_eq_none_iff {names : List String} :
    stepHold component existing names = none ↔
      ∀ name ∈ names, ∃ cur : Application, existing[name]? = some cur ∧
        cur.status.phase ≠ appPhaseFailed ∧ cur.finished = true := by
  induction names with
  | nil => simp [stepHold]
  | cons name rest ih =>
    rw [List.forall_mem_cons, ← ih]
    cases stored : existing[name]? with
    | none => simp [stepHold, stored]
    | some cur =>
      by_cases failed : cur.status.phase = appPhaseFailed
      · simp [stepHold, stored, failed]
      cases done : cur.finished with
      | false | true => simp [stepHold, stored, failed, done]

theorem stepHold_childrenOf_iff :
    stepHold component existing (childrenOf desired component) = none ↔
      StepDone desired existing component := by
  rw [stepHold_eq_none_iff]
  constructor
  · intro done name app made own
    exact done name (mem_childrenOf_iff.2 ⟨app, made, own⟩)
  intro done name mem
  obtain ⟨app, made, own⟩ := mem_childrenOf_iff.1 mem
  exact done name app made own

section

variable {set : ApplicationSet} {desired existing : Children}

variable {allowed : Children} {name component : String} {app : Application}

theorem copy_children_lookup {p : String → Application → Bool}
    (within : ∀ x, allowed[name]? = some x → desired[name]? = some x) :
    (copyKeys {} desired (desired.filter p).keys allowed)[name]? = some app ↔
      allowed[name]? = some app ∨ desired[name]? = some app ∧ p name app = true := by
  have known : ∀ key ∈ (desired.filter p).keys, key ∈ desired := by
    intro key mem
    obtain ⟨found, hit, -⟩ := mem_keys_filter_iff.1 mem
    exact ExtTreeMap.mem_iff_isSome_getElem?.2 (by simp [hit])
  rw [getElem?_copyKeys known]
  by_cases mem : name ∈ (desired.filter p).keys
  · obtain ⟨found, hit, holds⟩ := mem_keys_filter_iff.1 mem
    rw [if_pos mem, hit]
    constructor
    · rintro ⟨⟩
      exact .inr ⟨rfl, holds⟩
    rintro (past | ⟨eq, -⟩)
    · rw [← hit]
      exact within app past
    · exact eq
  rw [if_neg mem]
  constructor
  · exact .inl
  rintro (past | ⟨hit, holds⟩)
  · exact past
  · exact absurd (mem_keys_filter_iff.2 ⟨app, hit, holds⟩) mem

variable {comp step : NamedApplicationSpec} {rest : List NamedApplicationSpec}

/-- A component that does not stop the walk is among those declared before. -/
theorem declaredBefore_cons (passed : isInit set component = true → comp.name ≠ component) :
    declaredBefore set component (comp :: rest) = comp :: declaredBefore set component rest := by
  unfold declaredBefore
  rw [List.takeWhile_cons_of_pos]
  cases init : isInit set component with
  | false => rfl
  | true => simpa using passed init

/-- The walk reaches a child: its own step is among the components, or it is a service, and
every init step before it is done. -/
structure Reached (set : ApplicationSet) (desired existing : Children) (app : Application)
    (comps : List NamedApplicationSpec) : Prop where
  listed : isInit set (componentOf app) = true → ∃ comp ∈ comps, comp.name = componentOf app
  done : ∀ step ∈ declaredBefore set (componentOf app) comps,
    isInit set step.name = true → StepDone desired existing step.name

theorem reached_cons_own (init : isInit set comp.name = true) (own : componentOf app = comp.name) :
    Reached set desired existing app (comp :: rest) where
  listed := fun _ => ⟨comp, by simp, own.symm⟩
  done := by
    intro step pre
    simp [declaredBefore, own, init] at pre

theorem reached_cons_iff
    (passed : isInit set (componentOf app) = true → comp.name ≠ componentOf app) :
    Reached set desired existing app (comp :: rest) ↔
      (isInit set comp.name = true → StepDone desired existing comp.name) ∧
        Reached set desired existing app rest := by
  constructor
  · rintro ⟨listed, done⟩
    rw [declaredBefore_cons passed] at done
    refine ⟨done comp (by simp), ⟨?_, fun step pre => done step (by simp [pre])⟩⟩
    intro init
    obtain ⟨other, mem, named⟩ := listed init
    rcases List.mem_cons.1 mem with rfl | later
    · exact absurd named (passed init)
    · exact ⟨other, later, named⟩
  rintro ⟨eq, listed, done⟩
  constructor
  · intro init
    obtain ⟨other, mem, named⟩ := listed init
    exact ⟨other, .tail _ mem, named⟩
  rw [declaredBefore_cons passed]
  exact List.forall_mem_cons.2 ⟨eq, done⟩

/-- The walk lets through what it had let through before and what it reaches. -/
theorem gateSteps_lookup {comps : List NamedApplicationSpec}
    (within : ∀ x, allowed[name]? = some x → desired[name]? = some x) :
    (gateSteps set desired existing comps allowed).1[name]? = some app ↔
      allowed[name]? = some app ∨
        desired[name]? = some app ∧ Reached set desired existing app comps := by
  induction comps generalizing allowed with
  | nil =>
    rw [gateSteps, copy_children_lookup within]
    have atEnd : Reached set desired existing app [] ↔ isInit set (componentOf app) = false := by
      constructor
      · rintro ⟨listed, -⟩
        cases init : isInit set (componentOf app) with
        | false => rfl
        | true => simpa using listed init
      intro svc
      exact ⟨by simp [svc], by simp [declaredBefore]⟩
    simp [atEnd]
  | cons comp rest ih =>
    cases init : isInit set comp.name with
    | false =>
      have passed : isInit set (componentOf app) = true → comp.name ≠ componentOf app := by
        intro appInit same
        rw [← same, init] at appInit
        cases appInit
      have skipped : gateSteps set desired existing (comp :: rest) allowed =
          gateSteps set desired existing rest allowed := by simp [gateSteps, init]
      rw [skipped, ih within, reached_cons_iff passed]
      simp [init]
    | true =>
      have added : ∀ x, (copyKeys {} desired (childrenOf desired comp.name) allowed)[name]? =
          some x ↔ allowed[name]? = some x ∨
            desired[name]? = some x ∧ componentOf x = comp.name := by
        intro x
        rw [childrenOf, copy_children_lookup within]
        simp only [beq_iff_eq]
      have within' : ∀ x, (copyKeys {} desired (childrenOf desired comp.name) allowed)[name]? =
          some x → desired[name]? = some x := by
        intro x hit
        rcases (added x).1 hit with past | ⟨made, -⟩
        · exact within x past
        · exact made
      have walked : (gateSteps set desired existing (comp :: rest) allowed).1[name]? = some app ↔
          (allowed[name]? = some app ∨ desired[name]? = some app ∧ componentOf app = comp.name) ∨
          desired[name]? = some app ∧ StepDone desired existing comp.name ∧
            Reached set desired existing app rest := by
        cases held : stepHold comp.name existing (childrenOf desired comp.name) with
        | some condition =>
          have notDone : ¬ StepDone desired existing comp.name := by
            rw [← stepHold_childrenOf_iff, held]
            simp
          simp [gateSteps, init, held, added, notDone]
        | none =>
          have done := stepHold_childrenOf_iff.1 held
          simp [gateSteps, init, held, ih within', added, done]
      rw [walked]
      by_cases own : componentOf app = comp.name
      · have eq : Reached set desired existing app (comp :: rest) := reached_cons_own init own
        simp only [own, eq, and_true]
        tauto
      have passed : isInit set (componentOf app) = true → comp.name ≠ componentOf app :=
        fun _ same => own same.symm
      simp [own, reached_cons_iff passed, init]

theorem exists_of_isInit (init : isInit set component = true) :
    ∃ comp ∈ set.spec.applications, comp.name = component := by
  cases stored : (initComponents set)[component]? with
  | none => simp [isInit, ExtTreeMap.getD_eq_getD_getElem?, stored] at init
  | some v =>
    obtain ⟨comp, mem, named, -⟩ := exists_of_indexBy stored
    exact ⟨comp, mem, named⟩

/-- **The gate lets a rendered child through exactly when its turn has come.** -/
theorem initGate_lookup :
    (initGate set desired existing).1[name]? = some app ↔
      desired[name]? = some app ∧ Released set desired existing app := by
  unfold initGate
  rw [gateSteps_lookup (by simp)]
  simp only [ExtTreeMap.getElem?_empty, reduceCtorEq, false_or]
  refine and_congr_right fun _ => ⟨?_, ?_⟩
  · intro reached step mem
    obtain ⟨pre, init⟩ := List.mem_filter.1 mem
    exact reached.done step pre init
  intro released
  exact ⟨exists_of_isInit, fun step pre init => released step (List.mem_filter.2 ⟨pre, init⟩)⟩

/-! ## The anchor -/

theorem stepDone_of_childless (childless : childrenOf desired component = []) :
    StepDone desired existing component := by
  intro name app made own
  have mem : name ∈ childrenOf desired component := mem_childrenOf_iff.2 ⟨app, made, own⟩
  simp [childless] at mem

/-- The gate keeps a component's children together: it lets all of them through or none. -/
theorem childrenOf_initGate
    (done : ∀ step ∈ stepsBefore set component, StepDone desired existing step.name) :
    childrenOf (initGate set desired existing).1 component = childrenOf desired component := by
  have eq : ((initGate set desired existing).1.filter fun _ app => componentOf app == component) =
      desired.filter fun _ app => componentOf app == component := by
    refine ExtTreeMap.ext_getElem? fun name => Option.ext fun app => ?_
    rw [getElem?_filter_eq_some_iff, getElem?_filter_eq_some_iff, initGate_lookup]
    constructor
    · rintro ⟨⟨made, -⟩, own⟩
      exact ⟨made, own⟩
    rintro ⟨made, own⟩
    refine ⟨⟨made, ?_⟩, own⟩
    rw [beq_iff_eq] at own
    rwa [Released, own]
  rw [childrenOf, eq, childrenOf]

/-- Two searches that agree as long as the second has found nothing find the same. -/
theorem findSome?_congr_until {α β : Type} {f g : α → Option β} {es : List α}
    (agree : ∀ pre x after, es = pre ++ x :: after → (∀ b ∈ pre, f b = none) →
      g x = f x) : es.findSome? g = es.findSome? f := by
  induction es with
  | nil => rfl
  | cons x rest ih =>
    rw [List.findSome?_cons, List.findSome?_cons, agree [] x rest rfl (by simp)]
    cases found : f x with
    | some y => rfl
    | none =>
      refine ih fun pre y after split nothing => ?_
      refine agree (x :: pre) y after (by simp [split]) ?_
      exact List.forall_mem_cons.2 ⟨found, nothing⟩

theorem stepDone_of_stepChild (init : isInit set step.name = true)
    (nothing : stepChild set desired step = none) : StepDone desired existing step.name := by
  refine stepDone_of_childless ?_
  simpa [stepChild, init] using nothing

theorem mem_of_declaredBefore {before after : List NamedApplicationSpec}
    (init : isInit set comp.name = true)
    (mem : step ∈ declaredBefore set comp.name (before ++ comp :: after)) : step ∈ before := by
  induction before with
  | nil => simp [declaredBefore, init] at mem
  | cons first rest ih =>
    by_cases same : first.name = comp.name
    · simp [declaredBefore, init, same] at mem
    rw [List.cons_append, declaredBefore_cons fun _ => same] at mem
    rcases List.mem_cons.1 mem with rfl | later
    · exact .head _
    · exact .tail _ (ih later)

theorem anchorChild_initGate :
    anchorChild set (initGate set desired existing).1 = anchorChild set desired := by
  have sameSearch : set.spec.applications.findSome?
      (stepChild set (initGate set desired existing).1) =
        set.spec.applications.findSome? (stepChild set desired) := by
    refine findSome?_congr_until fun pre comp after split nothing => ?_
    cases init : isInit set comp.name with
    | false => simp [stepChild, init]
    | true =>
      simp only [stepChild, init, if_true]
      rw [childrenOf_initGate]
      intro step mem
      obtain ⟨declared, stepInit⟩ := List.mem_filter.1 mem
      rw [split] at declared
      exact stepDone_of_stepChild stepInit (nothing step (mem_of_declaredBefore init declared))
  unfold anchorChild
  rw [sameSearch]
  cases found : set.spec.applications.findSome? (stepChild set desired) with
  | some name => rfl
  | none =>
    -- no step has a child, so every step is done and the gate lets everything through
    have everything : (initGate set desired existing).1 = desired := by
      refine ExtTreeMap.ext_getElem? fun name => Option.ext fun app => ?_
      rw [initGate_lookup, and_iff_left_iff_imp]
      intro _ step mem
      obtain ⟨declared, stepInit⟩ := List.mem_filter.1 mem
      have listed : step ∈ set.spec.applications := List.takeWhile_subset _ declared
      exact stepDone_of_stepChild stepInit (List.findSome?_eq_none_iff.1 found step listed)
    rw [everything]

theorem anchorChild_mem (ne : desired ≠ ∅) : anchorChild set desired ∈ desired := by
  unfold anchorChild
  cases found : set.spec.applications.findSome? (stepChild set desired) with
  | some name =>
    obtain ⟨comp, -, first⟩ := List.exists_of_findSome?_eq_some found
    have mem : name ∈ childrenOf desired comp.name := by
      unfold stepChild at first
      split at first
      · exact List.mem_of_head? first
      · cases first
    obtain ⟨app, hit, -⟩ := mem_childrenOf_iff.1 mem
    exact ExtTreeMap.mem_iff_isSome_getElem?.2 (by simp [hit])
  | none =>
    have keyed : desired.keys ≠ [] := by
      rwa [Ne, ← List.isEmpty_iff, ExtTreeMap.isEmpty_keys, ExtTreeMap.isEmpty_iff]
    obtain ⟨first, rest, split⟩ := List.exists_cons_of_ne_nil keyed
    have mem : first ∈ desired := ExtTreeMap.mem_keys.1 (by simp [split])
    simpa [split] using mem

/-! ## Pinning without its branches -/

def AnchorSettled (existing : Children) (anchor : String) : Prop :=
  anchor = "" ∨ nodeOf existing anchor ≠ ""

@[simp] theorem pinChild_anchor (anchor n : String) (child : Application) :
    pinChild anchor n anchor child = child := by simp [pinChild]

theorem pinChild_same (anchor n name : String) (child : Application) : ∃ placement,
    pinChild anchor n name child = { child with spec := { child.spec with placement } } := by
  unfold pinChild
  split <;> exact ⟨_, rfl⟩

theorem pinSameNode_lookup {anchor : String} (mem : desired ≠ ∅ → anchor ∈ desired) :
    (pinSameNode desired existing anchor).1[name]? = some app ↔
      ∃ child, desired[name]? = some child ∧ (AnchorSettled existing anchor ∨ name = anchor) ∧
        app = if anchor = "" then child else pinChild anchor (nodeOf existing anchor) name child := by
  by_cases nothing : desired = ∅
  · subst nothing
    simp [pinSameNode]
  by_cases unnamed : anchor = ""
  · simp [pinSameNode, unnamed, AnchorSettled]
  by_cases unplaced : nodeOf existing anchor = ""
  · have waiting : ¬ AnchorSettled existing anchor := by simp [AnchorSettled, unnamed, unplaced]
    have alone : (pinSameNode desired existing anchor).1 =
        (∅ : Children).insert anchor (desired.getD anchor {}) := by
      simp [pinSameNode, nothing, unnamed, unplaced]
    have anchorPresent := ExtTreeMap.getElem?_eq_some_getElem (mem nothing)
    rw [alone, ExtTreeMap.getElem?_insert]
    by_cases isAnchor : name = anchor
    · subst isAnchor
      simp [unnamed, anchorPresent, ExtTreeMap.getD_eq_getD_getElem?, eq_comm]
    have other : anchor ≠ name := fun eq => isAnchor eq.symm
    simp [waiting, isAnchor, other]
  have settled : AnchorSettled existing anchor := .inr unplaced
  have pinned : (pinSameNode desired existing anchor).1 =
      desired.map (pinChild anchor (nodeOf existing anchor)) := by
    simp [pinSameNode, nothing, unnamed, unplaced]
  rw [pinned, ExtTreeMap.getElem?_map]
  simp [unnamed, settled, eq_comm]

end

end Horchestra.AppSet
