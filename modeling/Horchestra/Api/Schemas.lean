import Horchestra.Api.Kinds
import Horchestra.Foundations.Records

/-!
# The types of the served kinds

The type every kind's objects are decoded into, as its fields' tags describe it: the name of a
field, whether it may be left out, the bounds on its value and the value it has when it is left out.
The schema a body is checked against is derived from these tags.

The status of an object is the server's, so no author has to give one.
-/

namespace Horchestra.Api.Schemas

open Foundations Documents Records

/-! ## Building blocks -/

def text : Shape := .leaf .text
def flag : Shape := .leaf .flag
def int32 : Shape := .leaf (.integer 32)
def int64 : Shape := .leaf (.integer 64)
def bytes : Shape := .leaf .bytes
def quantity : Shape := .leaf .literal
def time : Shape := .leaf .stamp
def texts : Shape := .slice text
def labels : Shape := .map text

def required (name : String) (shape : Shape) (rules : Rules := {}) : Tag × Shape :=
  ({ name, rules }, shape)

def optional (name : String) (shape : Shape) (rules : Rules := {}) (default : Option Doc := none) :
    Tag × Shape :=
  ({ name, optional := true, rules, default }, shape)

def nonempty : Rules := { minLength := some 1 }

def oneOf (values : List String) : Rules := { enum := values }

def defaultText (value : String) : Option Doc := some (.str value value)

def defaultNumber (value : String) : Option Doc := some (.num value)

def struct (fields : Fields) : Shape := .record .plain fields

/-! ## Metadata -/

def ownerReference : Shape := struct [
  required "apiVersion" text, required "kind" text, required "name" text, required "uid" text,
  optional "controller" (.pointer flag), optional "blockOwnerDeletion" (.pointer flag)]

def managedFieldsEntry : Shape := struct [
  optional "manager" text, optional "operation" text, optional "apiVersion" text,
  optional "time" (.pointer time), optional "fieldsType" text,
  optional "fieldsV1" (.pointer (.leaf .raw)), optional "subresource" text]

def objectMeta : Shape := .record .opened [
  optional "name" text, optional "generateName" text, optional "namespace" text,
  optional "selfLink" text, optional "uid" text, optional "resourceVersion" text,
  optional "generation" int64, optional "creationTimestamp" time,
  optional "deletionTimestamp" (.pointer time),
  optional "deletionGracePeriodSeconds" (.pointer int64), optional "labels" labels,
  optional "annotations" labels, optional "ownerReferences" (.slice ownerReference),
  optional "finalizers" texts, optional "managedFields" (.slice managedFieldsEntry)]

/-! ## Types that carry quantities -/

/-- The types that look their members over before they decode them. -/
inductive QuantityType where
  | volumeSource
  | persistentVolumeSpec
  | resourceAmounts

def keyToPath : Shape := struct [
  required "key" text, required "path" text, optional "mode" (.pointer int32)]

def QuantityType.fields : QuantityType → Fields
  | .volumeSource => [
      required "type" text (oneOf ["pv", "tmpfs", "secret", "token"]), optional "name" text,
      optional "size" quantity, optional "items" (.slice keyToPath),
      optional "defaultMode" (.pointer int32), optional "optional" (.pointer flag),
      optional "audience" text]
  | .persistentVolumeSpec => [
      optional "size" quantity, optional "node" text, optional "mode" text,
      optional "reclaimPolicy" text (oneOf ["Delete", "Retain"]), optional "shared" flag]
  | .resourceAmounts => [optional "cpu" quantity, optional "memory" quantity]

def QuantityType.shape (type : QuantityType) : Shape := .record .checked type.fields

/-! ## Applications -/

def envSecretRef : Shape := struct [
  required "name" text nonempty, required "key" text nonempty, optional "prefix" text,
  optional "optional" (.pointer flag)]

def envVar : Shape := struct [
  optional "name" text, optional "value" text, optional "secretRef" (.pointer envSecretRef)]

def port : Shape := struct [
  optional "name" text,
  required "port" int64 { minimum := some 1, maximum := some 65535 }]

def resourceRequirements : Shape := struct [
  optional "requests" QuantityType.resourceAmounts.shape,
  optional "limits" QuantityType.resourceAmounts.shape]

def lifecycle : Shape := struct [
  optional "restartPolicy" text (oneOf ["Always", "OnFailure", "Never"]) (defaultText "Always"),
  optional "terminationGracePeriodSeconds" (.pointer int64) { minimum := some 0 }
    (defaultNumber "30"),
  optional "activeDeadlineSeconds" (.pointer int64) { minimum := some 1 },
  optional "backoffLimit" (.pointer int32) { minimum := some 0 }]

def nodeSelectorRequirement : Shape := struct [
  required "key" text,
  required "operator" text (oneOf ["In", "NotIn", "Exists", "DoesNotExist"]),
  optional "values" texts]

def nodeSelector : Shape := struct [
  optional "matchLabels" labels, optional "matchExpressions" (.slice nodeSelectorRequirement)]

def nodeAffinity : Shape := struct [
  optional "requiredDuringScheduling" (.pointer nodeSelector),
  optional "preferredDuringScheduling" (.slice (struct [
    required "weight" int32, required "preference" nodeSelector]))]

def workloadAffinityTerm : Shape := struct [
  optional "labelSelector" labels, required "topologyKey" text]

def workloadAffinity : Shape := struct [
  optional "requiredDuringScheduling" (.slice workloadAffinityTerm),
  optional "preferredDuringScheduling" (.slice (struct [
    required "weight" int32, required "term" workloadAffinityTerm]))]

def affinity : Shape := struct [
  optional "nodeAffinity" (.pointer nodeAffinity),
  optional "workloadAffinity" (.pointer workloadAffinity),
  optional "workloadAntiAffinity" (.pointer workloadAffinity)]

def placement : Shape := struct [
  optional "nodeName" text, optional "nodeSelector" labels,
  optional "affinity" (.pointer affinity), optional "priority" (.pointer int32)]

def securityContext : Shape := struct [
  optional "runAsUser" (.pointer int64), optional "runAsGroup" (.pointer int64)]

def volumeMount : Shape := struct [
  required "volume" QuantityType.volumeSource.shape, required "mountPath" text nonempty,
  optional "readOnly" flag, optional "subPath" text]

def applicationSpec : Shape := struct [
  required "image" text nonempty, optional "command" texts, optional "args" texts,
  optional "env" (.slice envVar), optional "ports" (.slice port),
  optional "resources" resourceRequirements, optional "lifecycle" lifecycle,
  optional "placement" placement, optional "hostNetwork" (.pointer flag),
  optional "serviceName" text { maxLength := some 253 }, optional "runtimeClassName" text,
  optional "securityContext" (.pointer securityContext), optional "volumes" (.slice volumeMount),
  optional "values" (.map (.leaf .any))]

def applicationStatus : Shape := struct [
  optional "observedGeneration" int64, optional "phase" text, optional "message" text,
  optional "address" text, optional "exitCode" (.pointer int32), optional "finishedAt" time,
  optional "attempts" int32]

/-! ## Sets of applications -/

def childMeta : Shape := struct [optional "labels" labels, optional "annotations" labels]

def scale : Shape := struct [
  optional "replicas" (.pointer int32),
  optional "nodeSpread" (.pointer (struct [optional "nodeSelector" labels]))]

def namedApplicationSpec : Shape := struct [
  required "name" text, optional "metadata" childMeta, required "spec" applicationSpec,
  optional "scale" scale]

def commonMeta : Shape := struct [
  optional "labels" labels, optional "annotations" labels, optional "env" (.slice envVar),
  optional "volumes" (.slice volumeMount)]

def rollout : Shape := struct [
  optional "maxUnavailable" int32, optional "prune" (.pointer flag)]

def applicationSetSpec : Shape := struct [
  required "applications" (.slice namedApplicationSpec), optional "common" commonMeta,
  optional "placement" (struct [optional "mode" text]), optional "rollout" rollout]

def childStatus : Shape := struct [
  required "name" text, optional "node" text, optional "phase" text]

def condition : Shape := struct [
  required "type" text, required "status" text, optional "reason" text, optional "message" text]

def applicationSetStatus : Shape := struct [
  optional "phase" text, optional "observedResourceVersion" text, required "desired" int64,
  required "current" int64, required "scheduled" int64, required "running" int64,
  optional "children" (.slice childStatus), optional "conditions" (.slice condition)]

/-! ## Nodes and services -/

def nodeStatus : Shape := struct [
  required "capacity" QuantityType.resourceAmounts.shape,
  required "allocated" QuantityType.resourceAmounts.shape,
  optional "os" text, optional "ip" text, required "ready" flag, optional "heartbeat" time,
  optional "runtimes" texts,
  optional "platform" (struct [optional "os" text, optional "arch" text]),
  optional "routedNetwork" flag, optional "labels" labels]

def servicePort : Shape := struct [
  optional "name" text { maxLength := some 63 },
  required "port" int32 { minimum := some 1, maximum := some 65535 },
  optional "targetName" text { maxLength := some 63 },
  optional "targetPort" int32 { minimum := some 0, maximum := some 65535 },
  optional "protocol" text (oneOf ["TCP", "UDP"]) (defaultText "TCP")]

def serviceSpec : Shape := struct [
  optional "clusterIP" text, required "ports" (.slice servicePort)]

/-! ## Access rules, certificate requests and secret stores -/

def policyRule : Shape := struct [
  optional "apiGroups" texts, optional "resources" texts, required "verbs" texts,
  optional "nonResourceURLs" texts]

def roleSpec : Shape := struct [required "rules" (.slice policyRule)]

/-- A subject and a role reference have the same two fields. -/
def reference : Shape := struct [required "kind" text, required "name" text]

def roleBindingSpec : Shape := struct [
  required "subjects" (.slice reference), required "roleRef" reference]

def certificateSigningRequestSpec : Shape := struct [
  required "request" bytes, optional "groups" texts, optional "nodeName" text]

def certificateSigningRequestStatus : Shape := struct [
  optional "phase" text, optional "certificate" bytes, optional "reason" text]

def secretStoreSpec : Shape := struct [
  optional "provider" text, required "server" text, optional "mount" text,
  optional "kvVersion" int64, optional "vaultNamespace" text, optional "caBundle" bytes,
  optional "auth" (struct [optional "method" text, optional "path" text, optional "role" text])]

/-! ## Kinds -/

/-- What an object of a kind holds beside its type and its metadata. -/
def contentFields : Kind → Fields
  | .ns => []
  | .service => [required "spec" serviceSpec]
  | .application => [required "spec" applicationSpec, optional "status" applicationStatus]
  | .node => [required "spec" (struct [optional "unschedulable" flag]), optional "status" nodeStatus]
  | .persistentVolume => [required "spec" QuantityType.persistentVolumeSpec.shape]
  | .secret => [
      optional "immutable" (.pointer flag), optional "type" text, optional "data" (.map bytes),
      optional "stringData" labels]
  | .applicationSet => [
      required "spec" applicationSetSpec, optional "status" applicationSetStatus]
  | .role | .clusterRole => [required "spec" roleSpec]
  | .roleBinding | .clusterRoleBinding => [required "spec" roleBindingSpec]
  | .certificateSigningRequest => [
      required "spec" certificateSigningRequestSpec,
      optional "status" certificateSigningRequestStatus]
  | .secretStore => [required "spec" secretStoreSpec]

def kindFields (kind : Kind) : Fields :=
  optional "kind" text :: optional "apiVersion" text :: required "metadata" objectMeta ::
    contentFields kind

/-- The type an object of a kind is decoded into. -/
def kindShape (kind : Kind) : Shape := struct (kindFields kind)

end Horchestra.Api.Schemas
