import Horchestra.AppSet.Gate

/-!
# The application-set loop

One pass over a set reads the children it owns and issues calls: it creates and updates the
children the set renders, deletes those it no longer renders, converges the services beside
them and writes a status.  A deleted set is taken down instead, child by child, or lets its
children go.

A pass is modelled as the list of calls it issues.  Calls can fail, and what a pass does next
depends on it, so the answers are a parameter.  No call is issued twice in a pass, so one
answer per call covers every pattern of failures.  Go iterates over a map in no fixed order;
where the loop does that the model takes name order, and no result below depends on it.
-/

namespace Horchestra.AppSet

open Api Foundations Text NameMap

/-- A write the loop asks the control plane for. -/
inductive Call where
  | createApplication (app : Application)
  | updateApplication (app : Application)
  | deleteApplication (ns name : String)
  | createService (svc : Service)
  | updateService (svc : Service)
  | deleteService (ns name : String)
  | updateSetStatus (set : ApplicationSet)
  | updateSet (set : ApplicationSet)
  | deleteSet (ns name : String)
  deriving DecidableEq

/-- What the control plane answers during one pass: the services, unless listing them fails,
and which calls succeed. -/
structure Answers where
  services : Option (List Service)
  accepts : Call → Bool

/-! ## Ownership -/

/-- An object belongs to the set its controlling reference names: same namespace, same name,
same uid. -/
def ownedRefs (refs : List OwnerReference) (ns : String) (set : ApplicationSet) : Bool :=
  match appsetOwnerOf refs with
  | none => false
  | some ref => ns == set.metadata.ns && ref.name == set.metadata.name && ref.uid == set.metadata.uid

def ownedBySet (app : Application) (set : ApplicationSet) : Bool :=
  ownedRefs app.metadata.ownerReferences app.metadata.ns set

def ownedChildren (set : ApplicationSet) (apps : List Application) : Children :=
  indexBy (·.metadata.name) id (apps.filter fun app => ownedBySet app set)

/-! ## Status -/

def readyNodes (nodes : List Node) : Std.ExtTreeMap String Bool :=
  indexBy (·.metadata.name) (·.status.ready) nodes

/-- The child runs the version that is stored, on a node that is alive. -/
def childRunning (app : Application) (ready : Std.ExtTreeMap String Bool) : Bool :=
  app.spec.placement.nodeName ≠ "" && ready.getD app.spec.placement.nodeName false &&
    app.status.phase == appPhaseRunning &&
    app.status.observedGeneration == app.metadata.generation

def rollupPhase (desired current running : Nat) (conds : List Condition) : String :=
  match conds.find? fun c => c.status == "False" && c.reason ≠ "" with
  | some c => c.reason
  | none =>
    if desired = current ∧ desired = running then appSetPhaseReady else appSetPhaseProgressing

def childStatus (set : ApplicationSet) (ready : Std.ExtTreeMap String Bool) (name : String)
    (app : Application) : ChildStatus where
  name := name
  node := app.spec.placement.nodeName
  phase :=
    if isInit set (componentOf app) then
      if app.status.phase == "" then "Pending" else app.status.phase
    else if app.spec.placement.nodeName == "" then "Pending"
    else if childRunning app ready then "Running" else "Scheduled"

/-- The roll-up of a set's children.  Init steps are listed and not counted. -/
def buildStatus (set : ApplicationSet) (existing : Children) (desired : Nat) (nodes : List Node)
    (conds : List Condition) : ApplicationSetStatus :=
  let ready := readyNodes nodes
  let counted := (existing.toList.map Prod.snd).filter fun app => !isInit set (componentOf app)
  let placed := counted.filter fun app => app.spec.placement.nodeName ≠ ""
  let running := placed.filter fun app => childRunning app ready
  { phase := rollupPhase desired counted.length running.length conds
    desired := desired
    current := counted.length
    scheduled := placed.length
    running := running.length
    children := existing.toList.map fun (name, app) => childStatus set ready name app
    conditions := conds }

def terminatingPhase (st : ApplicationSetStatus) : ApplicationSetStatus :=
  { st with phase := appSetPhaseTerminating }

def childSetEqual (a b : List ChildStatus) : Bool :=
  let index := indexBy (·.name) id a
  a.length == b.length && b.all fun c => index.getD c.name {} == c

def statusEqual (a b : ApplicationSetStatus) : Bool :=
  a.phase == b.phase && a.desired == b.desired && a.current == b.current &&
    a.scheduled == b.scheduled && a.running == b.running && a.conditions == b.conditions &&
    childSetEqual a.children b.children

/-- A status is written only when it differs from the stored one. -/
def writeStatus (set : ApplicationSet) (status : ApplicationSetStatus) : List Call :=
  if statusEqual set.status status then [] else [.updateSetStatus { set with status := status }]

/-! ## Services -/

/-- Whether an application still declares a service. -/
def serviceHasMembers (apps : List Application) (svc : Service) : Bool :=
  apps.any fun app => app.metadata.ns == svc.metadata.ns && app.spec.serviceName == svc.metadata.name

def isOwnedService (set : ApplicationSet) (svc : Service) : Bool :=
  ownedRefs svc.metadata.ownerReferences svc.metadata.ns set

/-- The write one rendered service needs.  A service of that name that is not the set's own is
left alone. -/
def serviceCall (byName owned : Std.ExtTreeMap String Service)
    (name : String) (want : Service) : Option Call :=
  match byName[name]? with
  | none => some (.createService want)
  | some cur =>
    if !owned.contains name then none
    else if cur.spec.ports = want.spec.ports then none
    else some (.updateService { cur with spec := { cur.spec with ports := want.spec.ports } })

/-- Creates, updates and prunes the services a set renders. -/
def convergeServices (digests : Digests) (answers : Answers) (set : ApplicationSet)
    (apps : List Application) : List Call :=
  match answers.services with
  | none => []
  | some all =>
    let here := all.filter fun svc => svc.metadata.ns == set.metadata.ns
    let byName := indexBy (·.metadata.name) id here
    let owned := indexBy (·.metadata.name) id (here.filter (isOwnedService set))
    let desired := indexBy (·.metadata.name) id (expandServices digests set)
    let writes := desired.toList.filterMap fun (name, want) =>
      serviceCall byName owned name want
    let prunes := owned.toList.filterMap fun (name, svc) =>
      if desired.contains name || serviceHasMembers apps svc then none
      else some (.deleteService svc.metadata.ns name)
    if set.spec.prune then writes ++ prunes else writes

/-! ## Deleted sets -/

/-- Issues calls until one fails, and says whether all went through. -/
def untilRefused (answers : Answers) : List Call → List Call × Bool
  | [] => ([], true)
  | call :: rest =>
    if answers.accepts call then
      let (calls, done) := untilRefused answers rest
      (call :: calls, done)
    else ([call], false)

/-- Lets every child go; the calls, and whether all of them went through. -/
def release (answers : Answers) (existing : Children) : List Call × Bool :=
  let calls := existing.toList.map fun (_, child) =>
    Call.updateApplication { child with metadata := releaseAppsetMeta child.metadata }
  (calls, calls.all answers.accepts)

def releaseServices (answers : Answers) (set : ApplicationSet) : List Call × Bool :=
  match answers.services with
  | none => ([], false)
  | some all =>
    let calls := (all.filter (isOwnedService set)).map fun svc =>
      Call.updateService { svc with metadata := releaseAppsetMeta svc.metadata }
    (calls, calls.all answers.accepts)

def orphanRequested (set : ApplicationSet) : Bool :=
  finalizerOrphanDependents ∈ set.metadata.finalizers

def holdTerminating (set : ApplicationSet) (existing : Children) : List Call :=
  writeStatus set (terminatingPhase (buildStatus set existing set.status.desired [] []))

/-- Drops the loop's own holds, and erases the set when nothing else holds it. -/
def releaseHold (answers : Answers) (set : ApplicationSet) : List Call :=
  let kept := set.metadata.finalizers.filter fun f =>
    !(f == finalizerChildTeardown || f == finalizerOrphanDependents)
  let erase := if kept.isEmpty then [Call.deleteSet set.metadata.ns set.metadata.name] else []
  if kept.length < set.metadata.finalizers.length then
    let update := Call.updateSet { set with metadata := { set.metadata with finalizers := kept } }
    if answers.accepts update then update :: erase else [update]
  else erase

def finishCascade (answers : Answers) (set : ApplicationSet) : List Call :=
  if orphanRequested set then releaseHold answers set
  else
    match answers.services with
    | none => []
    | some all =>
      let owned := all.filter (isOwnedService set)
      let (calls, done) := untilRefused answers
        (owned.map fun svc => .deleteService svc.metadata.ns svc.metadata.name)
      if done then calls ++ releaseHold answers set else calls

/-- Takes a deleted set the rest of the way down. -/
def cascade (answers : Answers) (set : ApplicationSet) (existing : Children) : List Call :=
  if orphanRequested set then
    let (services, servicesDone) := releaseServices answers set
    if !servicesDone then services ++ holdTerminating set existing
    else
      let (children, childrenDone) := release answers existing
      if !childrenDone then services ++ children ++ holdTerminating set existing
      else services ++ children ++ finishCascade answers set
  else
    let deletes := existing.toList.filterMap fun (_, child) =>
      if child.deleting then none
      else some (Call.deleteApplication child.metadata.ns child.metadata.name)
    if existing.isEmpty then deletes ++ finishCascade answers set
    else deletes ++ holdTerminating set existing

/-! ## Children -/

/-- The stored child with the fields its set owns; a child that asks for no node keeps the
one it has. -/
def mergeManaged (cur desired : Application) : Application :=
  { cur with
    spec :=
      if desired.spec.placement.nodeName = "" then
        { desired.spec with placement :=
          { desired.spec.placement with nodeName := cur.spec.placement.nodeName } }
      else desired.spec
    metadata := { cur.metadata with
      labels := desired.metadata.labels
      annotations := desired.metadata.annotations
      ownerReferences := desired.metadata.ownerReferences } }

/-- Whether anything the set owns differs: the digest of the rendered spec, the labels, or a
node the set asks for. -/
def changed (cur desired : Application) : Bool :=
  cur.metadata.annValue annAppsetSpecHash ≠ desired.metadata.annValue annAppsetSpecHash ||
    cur.metadata.labels ≠ desired.metadata.labels ||
    (desired.spec.placement.nodeName ≠ "" &&
      cur.spec.placement.nodeName ≠ desired.spec.placement.nodeName)

/-- The wanted children in name order, with the number of children that are down so far: the
calls, and whether the rollout was held. -/
def convergeChildren (answers : Answers) (existing : Children)
    (ready : Std.ExtTreeMap String Bool) (budget : Nat) :
    List (String × Application) → Nat → List Call × Bool
  | [], _ => ([], false)
  | (name, want) :: rest, unavailable =>
    match existing[name]? with
    | none =>
      let (calls, held) := convergeChildren answers existing ready budget rest unavailable
      (.createApplication want :: calls, held)
    | some cur =>
      if !changed cur want then convergeChildren answers existing ready budget rest unavailable
      else if childRunning cur ready && 0 < budget && budget ≤ unavailable then ([], true)
      else
        let update := Call.updateApplication (mergeManaged cur want)
        let down := if answers.accepts update && childRunning cur ready && 0 < budget then
          unavailable + 1 else unavailable
        let (calls, held) := convergeChildren answers existing ready budget rest down
        (update :: calls, held)

/-- The wanted children that are down before the pass starts. -/
def unavailableAtStart (existing desired : Children) (ready : Std.ExtTreeMap String Bool)
    (budget : Nat) : Nat :=
  if 0 < budget then
    (existing.toList.filter fun (name, cur) =>
      desired.contains name && !childRunning cur ready).length
  else 0

/-- Deletes the owned children that are not wanted. -/
def prune (set : ApplicationSet) (existing desired : Children) : List Call :=
  if set.spec.prune then
    existing.toList.filterMap fun (name, child) =>
      if desired.contains name then none
      else some (.deleteApplication child.metadata.ns name)
  else []

def initChildCount (set : ApplicationSet) (rendered : List Application) : Nat :=
  (rendered.filter fun app => isInit set (componentOf app)).length

def awaitingAnchor : Condition where
  type := "Converged"
  status := "False"
  reason := "AwaitingAnchor"
  message := "co-located set: waiting for the anchor child to be scheduled"

def rolloutHeld (budget : Nat) : Condition where
  type := "Converged"
  status := "False"
  reason := "RolloutHeld"
  message := "rolling update held at maxUnavailable=" ++ Nat.repr budget

def renderError (message : String) : Condition where
  type := "Rendered"
  status := "False"
  reason := "RenderError"
  message := message

/-- The children a pass wants, after the gate and the pinning stage, and whether the set waits
for its anchor. -/
def wanted (set : ApplicationSet) (rendered existing : Children) : Children × Bool :=
  let allowed := (initGate set rendered existing).1
  if set.spec.sameNode then pinSameNode allowed existing (anchorChild set allowed)
  else (allowed, false)

def converge (digests : Digests) (answers : Answers) (set : ApplicationSet) (nodes : List Node)
    (apps children : List Application) : List Call :=
  let existing := ownedChildren set apps
  let rendered := indexBy (·.metadata.name) id children
  let (desired, waiting) := wanted set rendered existing
  let ready := readyNodes nodes
  let budget := set.spec.rolloutBudget
  let (writes, held) := convergeChildren answers existing ready budget desired.toList
    (unavailableAtStart existing desired ready budget)
  let convergence : Condition :=
    if held then rolloutHeld budget
    else if waiting then awaitingAnchor
    else { type := "Converged", status := "True", reason := "Converged" }
  let conds := [{ type := "Rendered", status := "True", reason := "Expanded" }, convergence] ++
    (initGate set rendered existing).2.toList
  let serviceCount := children.length - initChildCount set children
  convergeServices digests answers set apps ++ writes ++ prune set existing desired ++
    writeStatus set (buildStatus set existing serviceCount nodes conds)

def reconcileSet (digests : Digests) (answers : Answers) (set : ApplicationSet)
    (nodes : List Node) (apps : List Application) : List Call :=
  if set.deleting then cascade answers set (ownedChildren set apps)
  else
    match expand digests set nodes with
    | .error e =>
      -- nothing is pruned on the strength of a set that does not render
      writeStatus set
        (buildStatus set (ownedChildren set apps) set.status.desired nodes [renderError e])
    | .ok children => converge digests answers set nodes apps children

end Horchestra.AppSet
