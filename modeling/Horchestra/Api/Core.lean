import Mathlib
import Horchestra.Foundations.Text

/-!
# The API objects of the core group

The records every part of the control plane reads and writes: object metadata, and
the core kinds `Application`, `ApplicationSet`, `PersistentVolume`, `Secret`,
`Service`, `Namespace` and `Node`, with the small predicates the API package
attaches to them.  A string-keyed map is an extensional tree map, so two maps with
the same bindings are the same value and listing one is listing it in key order.

Quantities are counted in billionths of their unit, the precision at which they are
parsed, so that comparing and adding them is exact.  Times are plain counters.
-/

namespace Horchestra.Api

/-- String-keyed maps: labels, annotations, selectors. -/
abbrev StringMap := Std.ExtTreeMap String String

/-- Copies every binding of `top` into `base`, replacing what it finds. -/
def copyInto (base top : StringMap) : StringMap :=
  top.foldl (fun out key value => out.insert key value) base

abbrev Time := Nat

/-- A resource amount, in billionths of the unit. -/
abbrev Quantity := Int

/-! ## Object metadata -/

structure OwnerReference where
  apiVersion : String := ""
  kind : String := ""
  name : String := ""
  uid : String := ""
  controller : Option Bool := none
  deriving DecidableEq

structure ObjectMeta where
  name : String := ""
  ns : String := ""
  uid : String := ""
  resourceVersion : String := ""
  generation : Int := 0
  creationTimestamp : Option Time := none
  deletionTimestamp : Option Time := none
  labels : StringMap := ∅
  annotations : StringMap := ∅
  ownerReferences : List OwnerReference := []
  finalizers : List String := []
  deriving DecidableEq

/-- The object has been asked to go and waits for its finalizers. -/
def ObjectMeta.deleting (metadata : ObjectMeta) : Bool := metadata.deletionTimestamp.isSome

/-- Annotation lookup: an absent annotation reads as the empty string. -/
def ObjectMeta.annValue (metadata : ObjectMeta) (key : String) : String :=
  metadata.annotations.getD key ""

/-! ## Resource amounts -/

structure ResourceAmounts where
  cpu : Quantity := 0
  memory : Quantity := 0
  deriving DecidableEq

def ResourceAmounts.isZero (a : ResourceAmounts) : Bool := a.cpu == 0 && a.memory == 0

def ResourceAmounts.add (a b : ResourceAmounts) : ResourceAmounts where
  cpu := a.cpu + b.cpu
  memory := a.memory + b.memory

/-- Whether one requested amount is over a capacity.  A zero capacity is never
exceeded when it is read as unconstrained, and by any non-zero request otherwise. -/
def overResource (requested capacity : Quantity) (unconstrainedZero : Bool) : Bool :=
  if capacity == 0 then !unconstrainedZero && !(requested == 0)
  else decide (capacity < requested)

/-- The resources in which `a` is over `capacity`, as printed lines.  The canonical
spelling of a quantity is a parameter: it is chosen by the quantity library. -/
def ResourceAmounts.exceeds (render : Quantity → String) (a capacity : ResourceAmounts)
    (unconstrainedZero : Bool) : List String :=
  (if overResource a.cpu capacity.cpu unconstrainedZero then
    ["cpu " ++ render a.cpu ++ " > " ++ render capacity.cpu] else []) ++
  (if overResource a.memory capacity.memory unconstrainedZero then
    ["memory " ++ render a.memory ++ " > " ++ render capacity.memory] else [])

structure ResourceRequirements where
  requests : ResourceAmounts := {}
  limits : ResourceAmounts := {}
  deriving DecidableEq

/-- A resource with no request is charged at its limit. -/
def ResourceRequirements.effectiveRequests (r : ResourceRequirements) : ResourceAmounts where
  cpu := if r.requests.cpu == 0 then r.limits.cpu else r.requests.cpu
  memory := if r.requests.memory == 0 then r.limits.memory else r.requests.memory

/-! ## Applications -/

def appPhaseRunning : String := "Running"
def appPhaseSucceeded : String := "Succeeded"
def appPhaseFailed : String := "Failed"
def appPhaseTerminating : String := "Terminating"
def appPhaseTerminated : String := "Terminated"

def restartAlways : String := "Always"
def restartOnFailure : String := "OnFailure"
def restartNever : String := "Never"

/-- Holds an `Application` until its node says the workload is gone. -/
def finalizerNodeTeardown : String := "horchestra.io/node-teardown"

structure EnvSecretRef where
  name : String := ""
  key : String := ""
  namePrefix : String := ""
  optional : Option Bool := none
  deriving DecidableEq

def EnvSecretRef.isOptional (r : EnvSecretRef) : Bool := r.optional == some true

structure EnvVar where
  name : String := ""
  value : String := ""
  secretRef : Option EnvSecretRef := none
  deriving DecidableEq

structure Port where
  name : String := ""
  port : Int := 0
  deriving DecidableEq

structure KeyToPath where
  key : String := ""
  path : String := ""
  mode : Option Int := none
  deriving DecidableEq

def volumeTypePV : String := "pv"
def volumeTypeTmpfs : String := "tmpfs"
def volumeTypeSecret : String := "secret"
def volumeTypeToken : String := "token"

structure VolumeSource where
  type : String := ""
  name : String := ""
  size : Quantity := 0
  items : List KeyToPath := []
  defaultMode : Option Int := none
  optional : Option Bool := none
  audience : String := ""
  deriving DecidableEq

structure VolumeMount where
  volume : VolumeSource := {}
  mountPath : String := ""
  readOnly : Bool := false
  subPath : String := ""
  deriving DecidableEq

def VolumeMount.isPV (m : VolumeMount) : Bool := m.volume.type == volumeTypePV
def VolumeMount.isTmpfs (m : VolumeMount) : Bool := m.volume.type == volumeTypeTmpfs
def VolumeMount.isSecret (m : VolumeMount) : Bool := m.volume.type == volumeTypeSecret
def VolumeMount.isToken (m : VolumeMount) : Bool := m.volume.type == volumeTypeToken

/-- The volume a mount resolves to: the one it names, or one named after the application. -/
def VolumeMount.pvName (m : VolumeMount) (appName : String) : String :=
  if m.volume.name ≠ "" then m.volume.name else appName

structure SecurityContext where
  runAsUser : Option Int := none
  runAsGroup : Option Int := none
  deriving DecidableEq

structure Lifecycle where
  restartPolicy : String := ""
  terminationGracePeriodSeconds : Option Int := none
  activeDeadlineSeconds : Option Int := none
  backoffLimit : Option Int := none
  deriving DecidableEq

/-- A job rather than a service. -/
def Lifecycle.runToCompletion (l : Lifecycle) : Bool := l.restartPolicy == restartNever

/-- How many times a failed job is started again. -/
def Lifecycle.retries (l : Lifecycle) : Int :=
  match l.backoffLimit with
  | none => 0
  | some limit => if limit < 0 then 0 else limit

structure NodeSelectorRequirement where
  key : String := ""
  operator : String := ""
  values : List String := []
  deriving DecidableEq

structure NodeSelector where
  matchLabels : StringMap := ∅
  matchExpressions : List NodeSelectorRequirement := []
  deriving DecidableEq

structure NodeAffinity where
  required : Option NodeSelector := none
  preferred : List (Int × NodeSelector) := []
  deriving DecidableEq

structure WorkloadAffinityTerm where
  labelSelector : StringMap := ∅
  topologyKey : String := ""
  deriving DecidableEq

structure WorkloadAffinity where
  required : List WorkloadAffinityTerm := []
  preferred : List (Int × WorkloadAffinityTerm) := []
  deriving DecidableEq

structure Affinity where
  nodeAffinity : Option NodeAffinity := none
  workloadAffinity : Option WorkloadAffinity := none
  workloadAntiAffinity : Option WorkloadAffinity := none
  deriving DecidableEq

structure Placement where
  nodeName : String := ""
  nodeSelector : StringMap := ∅
  affinity : Option Affinity := none
  priority : Option Int := none
  deriving DecidableEq

/-- The desired state of a workload.  `values` keeps each free-form value as its JSON text. -/
structure ApplicationSpec where
  image : String := ""
  command : List String := []
  args : List String := []
  env : List EnvVar := []
  ports : List Port := []
  resources : ResourceRequirements := {}
  lifecycle : Lifecycle := {}
  placement : Placement := {}
  hostNetwork : Option Bool := none
  serviceName : String := ""
  runtimeClassName : String := ""
  securityContext : Option SecurityContext := none
  volumes : List VolumeMount := []
  values : StringMap := ∅
  deriving DecidableEq

structure ApplicationStatus where
  observedGeneration : Int := 0
  phase : String := ""
  message : String := ""
  address : String := ""
  exitCode : Option Int := none
  finishedAt : Option Time := none
  attempts : Int := 0
  deriving DecidableEq

structure Application where
  metadata : ObjectMeta := {}
  spec : ApplicationSpec := {}
  status : ApplicationStatus := {}
  deriving DecidableEq

def Application.deleting (app : Application) : Bool := app.metadata.deleting

/-- Whether a phase means the workload will never run again on its node without a new
spec.  An unreported attempt count is read as one run. -/
def terminalPhase (phase : String) (lifecycle : Lifecycle) (attempts : Int) : Bool :=
  if phase == appPhaseSucceeded then true
  else if phase ≠ appPhaseFailed || !lifecycle.runToCompletion then false
  else decide (lifecycle.retries < max attempts 1)

/-- The application has already run to completion on the spec it carries now. -/
def Application.finished (app : Application) : Bool :=
  terminalPhase app.status.phase app.spec.lifecycle app.status.attempts &&
    app.status.observedGeneration == app.metadata.generation

/-- The secrets an application reads, from a volume or from its environment, in name order. -/
def Application.secretRefsWith (app : Application) (includeOptional : Bool) : List String :=
  let mounted := app.spec.volumes.filterMap fun m =>
    if m.isSecret && m.volume.name ≠ "" && (includeOptional || !(m.volume.optional == some true)) then
      some m.volume.name else none
  let fromEnv := app.spec.env.filterMap fun v =>
    match v.secretRef with
    | some ref =>
      if ref.name ≠ "" && (includeOptional || !ref.isOptional) then some ref.name else none
    | none => none
  (mounted ++ fromEnv).dedup.insertionSort (· ≤ ·)

def Application.secretRefs (app : Application) : List String := app.secretRefsWith true

def Application.requiredSecretRefs (app : Application) : List String := app.secretRefsWith false

/-- The node-unique identity of a workload across namespaces. -/
def workloadID (ns name : String) : String :=
  if ns = "" then name else ns ++ "_" ++ name

/-! ## Application sets -/

def labelApplicationSet : String := "horchestra.io/application-set"
def annAppsetSpecHash : String := "horchestra.io/appset-spec-hash"
def labelComponent : String := "horchestra.io/component"

def groupVersion : String := "horchestra.io/v1"

/-- Whether a reference names the set that controls an object. -/
def isAppsetOwner (r : OwnerReference) : Bool :=
  r.kind == "ApplicationSet" && r.apiVersion == groupVersion && r.controller == some true

/-- The set that controls an object, if one does. -/
def appsetOwnerOf (refs : List OwnerReference) : Option OwnerReference := refs.find? isAppsetOwner

def reservedChildLabels : List String := [labelApplicationSet, labelComponent]

/-- An object as its set lets go of it: the first controlling reference, the two
reserved labels and the recorded spec hash are dropped. -/
def releaseAppsetMeta (m : ObjectMeta) : ObjectMeta where
  __ := m
  ownerReferences := m.ownerReferences.eraseP isAppsetOwner
  labels := reservedChildLabels.foldl (fun labels key => labels.erase key) m.labels
  annotations := m.annotations.erase annAppsetSpecHash

/-- Holds an `ApplicationSet` until its children are gone. -/
def finalizerChildTeardown : String := "horchestra.io/child-teardown"

/-- Asks that the children of a deleted set be let go rather than deleted. -/
def finalizerOrphanDependents : String := "orphan"

structure ChildMeta where
  labels : StringMap := ∅
  annotations : StringMap := ∅
  deriving DecidableEq

structure CommonMeta where
  labels : StringMap := ∅
  annotations : StringMap := ∅
  env : List EnvVar := []
  volumes : List VolumeMount := []
  deriving DecidableEq

structure Scale where
  replicas : Option Int := none
  nodeSpread : Option StringMap := none
  deriving DecidableEq

structure NamedApplicationSpec where
  name : String := ""
  metadata : ChildMeta := {}
  spec : ApplicationSpec := {}
  scale : Scale := {}
  deriving DecidableEq

def placementSameNode : String := "sameNode"

structure Rollout where
  maxUnavailable : Int := 0
  prune : Option Bool := none
  deriving DecidableEq

structure ApplicationSetSpec where
  applications : List NamedApplicationSpec := []
  common : CommonMeta := {}
  placementMode : String := ""
  rollout : Rollout := {}
  deriving DecidableEq

def ApplicationSetSpec.sameNode (s : ApplicationSetSpec) : Bool :=
  s.placementMode == placementSameNode

/-- How many children one rollout may take down at once; zero is no limit. -/
def ApplicationSetSpec.rolloutBudget (s : ApplicationSetSpec) : Nat :=
  s.rollout.maxUnavailable.toNat

/-- Pruning is on unless it is turned off. -/
def ApplicationSetSpec.prune (s : ApplicationSetSpec) : Bool := s.rollout.prune.getD true

structure ChildStatus where
  name : String := ""
  node : String := ""
  phase : String := ""
  deriving DecidableEq

structure Condition where
  type : String := ""
  status : String := ""
  reason : String := ""
  message : String := ""
  deriving DecidableEq

def appSetPhaseReady : String := "Ready"
def appSetPhaseProgressing : String := "Progressing"
def appSetPhaseTerminating : String := "Terminating"

structure ApplicationSetStatus where
  phase : String := ""
  observedResourceVersion : String := ""
  desired : Nat := 0
  current : Nat := 0
  scheduled : Nat := 0
  running : Nat := 0
  children : List ChildStatus := []
  conditions : List Condition := []
  deriving DecidableEq

structure ApplicationSet where
  metadata : ObjectMeta := {}
  spec : ApplicationSetSpec := {}
  status : ApplicationSetStatus := {}
  deriving DecidableEq

def ApplicationSet.deleting (set : ApplicationSet) : Bool := set.metadata.deleting

/-! ## Volumes, secrets, services, namespaces and nodes -/

structure PersistentVolumeSpec where
  size : Quantity := 0
  node : String := ""
  mode : String := ""
  reclaimPolicy : String := ""
  shared : Bool := false
  deriving DecidableEq

structure PersistentVolume where
  metadata : ObjectMeta := {}
  spec : PersistentVolumeSpec := {}
  deriving DecidableEq

instance decidableEqSecretData : DecidableEq (Std.ExtTreeMap String (List UInt8)) := inferInstance

structure Secret where
  metadata : ObjectMeta := {}
  immutable : Option Bool := none
  type : String := ""
  data : Std.ExtTreeMap String (List UInt8) := ∅
  stringData : StringMap := ∅
  deriving DecidableEq

structure ServicePort where
  name : String := ""
  port : Int := 0
  targetName : String := ""
  targetPort : Int := 0
  protocol : String := ""
  deriving DecidableEq

structure ServiceSpec where
  clusterIP : String := ""
  ports : List ServicePort := []
  deriving DecidableEq

structure Service where
  metadata : ObjectMeta := {}
  spec : ServiceSpec := {}
  deriving DecidableEq

def Service.catalogName (svc : Service) (p : ServicePort) : String :=
  if p.name = "" then svc.metadata.name else svc.metadata.name ++ "-" ++ p.name

def secretTypeOpaque : String := "Opaque"
def secretTypeVault : String := "horchestra.io/vault"

structure Namespace where
  metadata : ObjectMeta := {}
  deriving DecidableEq

structure Platform where
  os : String := ""
  arch : String := ""
  deriving DecidableEq

structure NodeStatus where
  capacity : ResourceAmounts := {}
  allocated : ResourceAmounts := {}
  os : String := ""
  ip : String := ""
  ready : Bool := false
  heartbeat : Option Time := none
  runtimes : List String := []
  platform : Platform := {}
  routedNetwork : Bool := false
  labels : StringMap := ∅
  deriving DecidableEq

structure Node where
  metadata : ObjectMeta := {}
  unschedulable : Bool := false
  status : NodeStatus := {}
  deriving DecidableEq

/-- The labels placement matches against: the operator's, under those derived from what the
node reported. -/
def Node.schedulingLabels (n : Node) : StringMap :=
  if n.status.labels.isEmpty then n.metadata.labels
  else copyInto n.metadata.labels n.status.labels

end Horchestra.Api
