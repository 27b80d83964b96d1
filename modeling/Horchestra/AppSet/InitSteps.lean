import Horchestra.AppSet.Pruning
import Horchestra.AppSet.Sources

/-!
# What a pass over a set may write before its init steps are done

The init gate is meant to hold services back until the init steps of the version being rolled
out have succeeded.  It asks whether the stored children of the steps have finished, and not
from which spec they were rendered, so an edit of a step and of a service reaches both in one
pass.  `gates_on_rendered_version_iff` gives the exact inputs on which it does not.
-/

namespace Horchestra.AppSet

open Api Foundations Text NameMap

/-- What admission checks of the components of a set, as far as it matters here. -/
structure Admitted (set : ApplicationSet) : Prop where
  distinct : (set.spec.applications.map (·.name)).Nodup
  named : ∀ comp ∈ set.spec.applications, comp.name ≠ ""

/-- A child of `component` comes after `step`: the step runs to completion, and it is declared
before the component unless that is a service. -/
def WaitsFor (set : ApplicationSet) (component : String) (step : NamedApplicationSpec) : Prop :=
  step.spec.lifecycle.runToCompletion = true ∧
    ∃ before comp after, set.spec.applications = before ++ comp :: after ∧ comp.name = component ∧
      step ∈ if comp.spec.lifecycle.runToCompletion then before else set.spec.applications

/-- The digest of the spec a child was rendered from. -/
def specHashOf (app : Application) : String := app.metadata.annValue annAppsetSpecHash

/-- Whatever the answers, a pass writes a child only when every rendered child of every step it
waits for exists, has succeeded, and was rendered from the spec the set renders now. -/
def GatesOnRenderedVersion (digests : Digests) (set : ApplicationSet) (nodes : List Node)
    (apps : List Application) : Prop :=
  ∀ (answers : Answers) (app : Application),
    (.createApplication app ∈ reconcileSet digests answers set nodes apps ∨
      .updateApplication app ∈ reconcileSet digests answers set nodes apps) →
    ∀ children, expand digests set nodes = .ok children →
    ∀ step, WaitsFor set (componentOf app) step →
    ∀ child ∈ children, componentOf child = step.name →
      ∃ cur, (ownedChildren set apps)[child.metadata.name]? = some cur ∧
        cur.finished = true ∧ cur.status.phase ≠ appPhaseFailed ∧
        specHashOf cur = specHashOf child

section

variable {digests : Digests} {answers : Answers} {set : ApplicationSet} {nodes : List Node}
  {apps : List Application}

theorem isInit_of_mem (admitted : Admitted set) {comp : NamedApplicationSpec}
    (mem : comp ∈ set.spec.applications) :
    isInit set comp.name = comp.spec.lifecycle.runToCompletion := by
  have found : (initComponents set)[comp.name]? =
      some (comp.spec.lifecycle.restartPolicy == restartNever) :=
    indexBy_of_mem admitted.distinct mem
  simp [isInit, Std.ExtTreeMap.getD_eq_getD_getElem?, found, Lifecycle.runToCompletion]

variable {step : NamedApplicationSpec}

/-- The steps a child waits for are those the gate makes it wait for. -/
theorem mem_stepsBefore_of_waitsFor (admitted : Admitted set) {component : String}
    (waits : WaitsFor set component step) : step ∈ stepsBefore set component := by
  obtain ⟨isJob, pre, comp, after, split, rfl, declared⟩ := waits
  have listed : comp ∈ set.spec.applications := by simp [split]
  have compInit := isInit_of_mem admitted listed
  have stepListed : step ∈ set.spec.applications := by
    split_ifs at declared
    · simp [split, declared]
    · exact declared
  refine List.mem_filter.2 ⟨?_, by rw [isInit_of_mem admitted stepListed, isJob]⟩
  cases job : comp.spec.lifecycle.runToCompletion with
  | false =>
    rw [job] at compInit
    have everything : declaredBefore set comp.name set.spec.applications =
        set.spec.applications := List.takeWhile_eq_self_iff.2 (by simp [compInit])
    rwa [everything]
  | true =>
    rw [job] at compInit declared
    rw [if_pos rfl] at declared
    have ne : ∀ other ∈ pre, other.name ≠ comp.name := by
      have nodup := admitted.distinct
      rw [split, List.map_append, List.nodup_append] at nodup
      intro other mem
      exact nodup.2.2 _ (List.mem_map_of_mem mem) _ (by simp)
    rw [split, declaredBefore, List.takeWhile_append_of_pos]
    · exact List.mem_append_left _ declared
    intro other mem
    simpa [compInit] using ne other mem

/-! ### A set that is going writes no component's child

A deleted set updates its children only to let them go, and what it writes then carries no
component label. -/

/-- The component whose child a call writes; empty for any other call. -/
def Call.component : Call → String
  | .createApplication app | .updateApplication app => componentOf app
  | _ => ""

theorem component_released (app : Application) :
    (Call.updateApplication { app with metadata := releaseAppsetMeta app.metadata }).component =
      "" := by
  simp [Call.component, componentOf, releaseAppsetMeta, reservedChildLabels]

variable {call : Call}

theorem component_of_going (going : set.deleting = true)
    (issued : call ∈ reconcileSet digests answers set nodes apps) : call.component = "" := by
  cases sourced_of_mem_reconcileSet issued with
  | createApplication live => cases going.symm.trans live
  | mergeApplication live => cases going.symm.trans live
  | @releaseApplication c => exact component_released c
  | _ => rfl

/-! ### The theorem -/

variable {old : Children} {name : String} {want : Application}

/-- A write of the loop carries the labels of the child it wants. -/
theorem component_of_due (due : Due old name want call) :
    call.component = componentOf want := by
  cases due with
  | create gone | update stored differs => rfl

/-- The inputs on which a pass may write a child: it is wanted, a write is due, and with the
children that are down at the start the budget forbids no write up to its name. -/
structure MayWrite (set : ApplicationSet) (nodes : List Node) (apps children : List Application)
    (name : String) (want : Application) : Prop where
  isWanted : (wanted set (renderedByName children) (ownedChildren set apps)).1[name]? = some want
  due : ∃ call, Due (ownedChildren set apps) name want call
  affordable : ∀ other app,
    (wanted set (renderedByName children) (ownedChildren set apps)).1[other]? = some app →
      other ≤ name → Affords (ownedChildren set apps) (readyNodes nodes) set.spec.rolloutBudget
        (unavailableAtStart (ownedChildren set apps)
          (wanted set (renderedByName children) (ownedChildren set apps)).1 (readyNodes nodes)
          set.spec.rolloutBudget) (other, app)

variable {children : List Application}

theorem mayWrite_of_mem_childWrites (issued : call ∈ childWrites answers set nodes apps children) :
    ∃ name want, MayWrite set nodes apps children name want ∧ call.component = componentOf want := by
  obtain ⟨name, want, hit, due, affordable⟩ :=
    mayIssue_toList_iff.1 (mayIssue_of_mem_convergeChildren issued)
  exact ⟨name, want, ⟨hit, ⟨call, due⟩, affordable⟩, component_of_due due⟩

theorem mem_childWrites_of_mayWrite (refused : ∀ call, answers.accepts call = false)
    (may : MayWrite set nodes apps children name want) :
    ∃ call ∈ childWrites answers set nodes apps children,
      Due (ownedChildren set apps) name want call := by
  obtain ⟨call, due⟩ := may.due
  refine ⟨call, ?_, due⟩
  exact mem_convergeChildren_of_refused refused
    (mayIssue_toList_iff.2 ⟨name, want, may.isWanted, due, may.affordable⟩)

/-- The child a written application is for, as the pass may write it. -/
theorem mayWrite_of_written (admitted : Admitted set) {app : Application}
    {step : NamedApplicationSpec} (waits : WaitsFor set (componentOf app) step)
    {children : List Application} (done : expand digests set nodes = .ok children)
    (wrote : .createApplication app ∈ reconcileSet digests answers set nodes apps ∨
      .updateApplication app ∈ reconcileSet digests answers set nodes apps) :
    set.deleting = false ∧
      ∃ name want, MayWrite set nodes apps children name want ∧ componentOf app = componentOf want := by
  obtain ⟨call, issued, ofApp, aboutChild, keeps⟩ : ∃ call ∈ reconcileSet digests answers set nodes
      apps, call.component = componentOf app ∧ call.besideChildren = false ∧
        ∀ ns name, call ≠ .deleteApplication ns name := by
    rcases wrote with new | updated
    · exact ⟨_, new, rfl, rfl, by simp⟩
    · exact ⟨_, updated, rfl, rfl, by simp⟩
  cases live : set.deleting with
  | true =>
    obtain ⟨-, pre, comp, after, split, named, -⟩ := waits
    rw [← ofApp, component_of_going live issued] at named
    exact absurd named (admitted.named comp (by simp [split]))
  | false =>
    simp only [reconcileSet, live, done, Bool.false_eq_true, if_false] at issued
    rcases (mem_converge_iff aboutChild).1 issued with isWrite | isPrune
    · obtain ⟨name, want, may, eq⟩ := mayWrite_of_mem_childWrites isWrite
      exact ⟨rfl, name, want, may, ofApp.symm.trans eq⟩
    obtain ⟨-, name, c, -, -, isDelete⟩ := mem_prune_iff.1 isPrune
    exact absurd isDelete (keeps _ _)

/-- **The gate holds for the version being rolled out exactly when the steps are current.** -/
theorem gates_on_rendered_version_iff (admitted : Admitted set) :
    GatesOnRenderedVersion digests set nodes apps ↔
      set.deleting = true ∨ ∀ children, expand digests set nodes = .ok children →
        ∀ name want, MayWrite set nodes apps children name want →
        ∀ step, WaitsFor set (componentOf want) step →
        ∀ child ∈ children, componentOf child = step.name →
        ∀ cur, (ownedChildren set apps)[child.metadata.name]? = some cur →
          specHashOf cur = specHashOf child := by
  constructor
  · intro gates
    cases live : set.deleting with
    | true => exact .inl rfl
    | false =>
      refine .inr fun children done name want may step waits child member ofStep cur stored => ?_
      obtain ⟨call, issued, due⟩ : ∃ call ∈ childWrites refuseAll set nodes apps children,
          Due (ownedChildren set apps) name want call :=
        mem_childWrites_of_mayWrite (fun _ => rfl) may
      have inPass : call ∈ reconcileSet digests refuseAll set nodes apps := by
        simp only [reconcileSet, live, done, Bool.false_eq_true, if_false]
        refine (mem_converge_iff ?_).2 (.inl issued)
        cases due <;> rfl
      have shown : ∃ cur', (ownedChildren set apps)[child.metadata.name]? = some cur' ∧
          cur'.finished = true ∧ cur'.status.phase ≠ appPhaseFailed ∧
          specHashOf cur' = specHashOf child := by
        cases due with
        | create absent =>
          exact gates refuseAll _ (.inl inPass) children done step waits child member ofStep
        | update present differs =>
          exact gates refuseAll _ (.inr inPass) children done step waits child member ofStep
      obtain ⟨cur', stored', -, -, same⟩ := shown
      cases stored.symm.trans stored'
      exact same
  intro condition answers app written children done step waits child member ofStep
  obtain ⟨live, name, want, may, same⟩ := mayWrite_of_written admitted waits done written
  obtain ⟨source, -, inTurn, placement, sameSource⟩ := wanted_lookup may.isWanted
  have ofSource : componentOf app = componentOf source := by
    rw [same, sameSource]
    rfl
  have stepDone := inTurn.released step
    (mem_stepsBefore_of_waitsFor admitted (ofSource ▸ waits))
  have rendered : (renderedByName children)[child.metadata.name]? = some child :=
    (indexBy_id_eq_some_iff (expand_nodup done)).2 ⟨member, rfl⟩
  obtain ⟨cur, stored, notFailed, finished⟩ := stepDone _ child rendered ofStep
  rcases condition with deleting | current
  · rw [live] at deleting
    cases deleting
  exact ⟨cur, stored, finished, notFailed,
    current children done name want may step (same ▸ waits) child member ofStep cur stored⟩

end

/-! ### A step and a service edited together

Both children of `shop` run version 1, and the migration of version 1 has succeeded.  The edit
to version 2 reaches the service before the migration of version 2 has run. -/

def shopV2 : ApplicationSet := shopOf [migrate "m:2", web "w:2"]

def shopV1Children : List Application :=
  [storedChild (migrate "m:1") appPhaseSucceeded, storedChild (web "w:1") appPhaseRunning]

theorem shopV2_admitted : Admitted shopV2 := ⟨by decide, by decide⟩

theorem service_updated_beside_its_step :
    Admitted shopV2 ∧ ¬ GatesOnRenderedVersion imageDigests shopV2 [] shopV1Children := by
  refine ⟨shopV2_admitted, fun gates => ?_⟩
  have rendered : ∃ children, expand imageDigests shopV2 [] = .ok children ∧
      ∃ child ∈ children, componentOf child = "migrate" ∧
        child.metadata.name = "shop-migrate" ∧ specHashOf child = "m:2" :=
    ⟨_, rfl, by decide +kernel⟩
  obtain ⟨children, done, child, member, ofStep, named, digest⟩ := rendered
  have stored : (ownedChildren shopV2 shopV1Children)["shop-migrate"]?.map specHashOf = some "m:1" := by
    decide +kernel
  have waits : WaitsFor shopV2 "web" (migrate "m:2") :=
    ⟨rfl, [migrate "m:2"], web "w:2", [], rfl, rfl, by simp [shopV2, shopOf, web, component,
      restartAlways, restartNever, Lifecycle.runToCompletion]⟩
  have served : ∃ call ∈ reconcileSet imageDigests refuseAll shopV2 [] shopV1Children,
      call.component = "web" := by
    decide +kernel
  have stale : ∀ app, componentOf app = "web" →
      (.createApplication app ∈ reconcileSet imageDigests refuseAll shopV2 [] shopV1Children ∨
        .updateApplication app ∈ reconcileSet imageDigests refuseAll shopV2 [] shopV1Children) →
      False := by
    intro app ofWeb written
    obtain ⟨cur, present, -, -, same⟩ := gates refuseAll app written children done _
      (ofWeb ▸ waits) child member ofStep
    rw [named] at present
    rw [present, Option.map_some, same, digest] at stored
    exact absurd stored (by decide)
  obtain ⟨call, issued, ofWeb⟩ := served
  cases call with
  | createApplication app => exact stale app ofWeb (.inl issued)
  | updateApplication app => exact stale app ofWeb (.inr issued)
  | _ => exact absurd ofWeb (by decide : "" ≠ "web")

theorem gates_on_rendered_version_iff_shop :
    GatesOnRenderedVersion imageDigests shopV2 [] shopV1Children ↔
      shopV2.deleting = true ∨ ∀ children, expand imageDigests shopV2 [] = .ok children →
        ∀ name want, MayWrite shopV2 [] shopV1Children children name want →
        ∀ step, WaitsFor shopV2 (componentOf want) step →
        ∀ child ∈ children, componentOf child = step.name →
        ∀ cur, (ownedChildren shopV2 shopV1Children)[child.metadata.name]? = some cur →
          specHashOf cur = specHashOf child :=
  gates_on_rendered_version_iff shopV2_admitted

end Horchestra.AppSet
