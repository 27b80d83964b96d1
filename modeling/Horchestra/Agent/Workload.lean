import Horchestra.Api.Validation
import Horchestra.Node.HostIds

/-!
# Workloads as a node sees them

The agent does not run API objects.  It projects each application that is pushed to it onto a
workload, keyed by the uid of the object, resolves the volumes and the image, and renders all of it
into the configuration the sandbox of the workload starts from.  The digest of that configuration
is what says whether a unit runs what is wanted now, so everything it is rendered from is here.
-/

namespace Horchestra.Agent

open Api Foundations Text Checks Paths

/-! ## The projection of an application -/

structure App where
  uid : String := ""
  name : String := ""
  ns : String := ""
  generation : Int := 0
  node : String := ""
  image : String := ""
  command : List String := []
  args : List String := []
  limits : ResourceAmounts := {}
  env : List String := []
  /-- The variables that come from secrets, as references. -/
  envRefs : List EnvVar := []
  /-- The resolved form of the variables that come from secrets; the reconciler fills it. -/
  secretEnv : List String := []
  lifecycle : Lifecycle := {}
  attempts : Int := 0
  deleting : Bool := false
  securityContext : Option SecurityContext := none
  volumes : List VolumeMount := []
  /-- The identity tokens minted for the workload, by audience; the reconciler fills it. -/
  tokens : StringMap := ∅
  hostNetwork : Bool := true
  address : String := ""
  deriving DecidableEq

/-- The variables an application spells out, in the order it declares them. -/
def envStrings (vars : List EnvVar) : List String :=
  vars.filterMap fun v => if v.secretRef.isSome then none else some (v.name ++ "=" ++ v.value)

/-- The variables that come from secrets, in the order they are declared. -/
def envRefs (vars : List EnvVar) : List EnvVar := vars.filter (·.secretRef.isSome)

def onHostNetwork (app : Application) : Bool := app.spec.hostNetwork.getD true

def fromApplication (it : Application) : App where
  uid := it.metadata.uid
  name := it.metadata.name
  ns := it.metadata.ns
  generation := it.metadata.generation
  node := it.spec.placement.nodeName
  image := it.spec.image
  command := it.spec.command
  args := it.spec.args
  limits := it.spec.resources.limits
  env := envStrings it.spec.env
  envRefs := envRefs it.spec.env
  lifecycle := it.spec.lifecycle
  attempts := it.status.attempts
  deleting := it.deleting
  securityContext := it.spec.securityContext
  volumes := it.spec.volumes
  hostNetwork := onHostNetwork it

/-- The workloads of one node by uid.  One with no uid has no identity and is not run. -/
def appsForNode (apps : List App) (node : String) : Std.ExtTreeMap String App :=
  apps.foldl (fun want app =>
    if app.node ≠ node ∨ app.uid = "" then want else want.insert app.uid app) ∅

/-- What a node wants under a name is one of the workloads it was given, under its own uid. -/
theorem mem_of_appsForNode {apps : List App} {n id : String} {app : App}
    (wanted : (appsForNode apps n)[id]? = some app) : app ∈ apps ∧ app.uid = id := by
  induction apps using List.reverseRecOn with
  | nil => simp [appsForNode] at wanted
  | append_singleton rest last ih =>
    rw [appsForNode, List.foldl_append, List.foldl_cons, List.foldl_nil] at wanted
    rw [← appsForNode] at wanted
    split at wanted
    · exact (ih wanted).imp_left (List.mem_append_left _)
    rw [Std.ExtTreeMap.getElem?_insert] at wanted
    split at wanted
    next eq =>
      cases wanted
      exact ⟨by simp, Std.LawfulEqCmp.eq_of_compare eq⟩
    · exact (ih wanted).imp_left (List.mem_append_left _)

/-! ## Volumes -/

inductive VolumeKind where
  | hostPath | blockDevice | image | tmpfs | secret
  deriving DecidableEq

/-- A volume resolved for its workload; `content` holds the files of a secret one. -/
structure Volume where
  kind : VolumeKind := .hostPath
  ref : String := ""
  mountPath : String := ""
  readOnly : Bool := false
  content : List (String × String) := []

def validateVolumes (volumes : List Volume) : Except String Unit :=
  checkAll (fun v =>
    andThen (validMountPath v.mountPath) <|
    andThen (require (!(v.kind == .hostPath && !isRooted v.ref))
      ("volume at " ++ quote v.mountPath ++ ": host path " ++ quote v.ref ++ " must be absolute")) <|
    checkAll (fun file => validRelPath file.1) v.content) volumes

/-- A kind that has to be attached as a device is refused. -/
def supportedVolumes (volumes : List Volume) : Except String Unit :=
  checkAll (fun v =>
    require (v.kind == .tmpfs || v.kind == .secret || v.kind == .hostPath)
      ("runtime \"userns\" does not support the volume at " ++ quote v.mountPath ++
        ": block-device and image volumes need a runtime that attaches them")) volumes

/-! ## The sandbox configuration -/

structure LaunchSpec where
  layerDirs : List String := []
  entrypoint : List String := []
  cmd : List String := []
  env : List String := []
  workingDir : String := ""

structure SecretMount where
  source : String
  target : String

structure BindMount where
  source : String
  target : String
  readOnly : Bool

/-- What the sandbox of a workload is started from. -/
structure SandboxConfig where
  lowerDirs : List String
  merged : String
  initDir : String
  command : List String
  env : List String
  workingDir : String
  hostname : String
  tmpfsMounts : List String
  bindMounts : List BindMount
  secretMounts : List SecretMount
  uid : Int
  gid : Int
  secretEnvFile : String
  network : String
  netnsPidPath : String
  networkReadyPath : String

/-- Joins path elements, dropping the empty ones. -/
def joinPath (elements : List String) : String :=
  let present := elements.filter (· ≠ "")
  if present.isEmpty then "" else clean ("/".intercalate present)

/-! ## The runtime -/

inductive PropertyValue where
  | text (value : String)
  | number (value : Nat)
  | flag (value : Bool)
  | exec (argv : List String)
  deriving DecidableEq

structure Property where
  name : String
  value : PropertyValue

/-- The runtime of a node, with the three things it leaves to others: how the digest of a
configuration comes out, how the directory of a secret volume is named after its mount path, and
how the service manager reports the properties of a unit it was given. -/
structure Runtime where
  stateDir : String
  runtimeDir : String
  sandboxCmd : List String
  /-- The node has a helper that wires isolated workloads. -/
  network : Bool
  digest : SandboxConfig → String
  secretDirName : String → String
  reports : List Property → String → Option PropertyValue

def Runtime.configPath (r : Runtime) (id : String) : String :=
  joinPath [r.stateDir, "config", id ++ ".json"]

def Runtime.netnsPidPath (r : Runtime) (id : String) : String :=
  joinPath [r.runtimeDir, "net", id ++ ".pid"]

def Runtime.networkReadyPath (r : Runtime) (id : String) : String :=
  joinPath [r.runtimeDir, "net", id ++ ".ready"]

def Runtime.secretEnvFile (r : Runtime) (id : String) : String :=
  joinPath [r.runtimeDir, "secretenv", id]

def Runtime.secretVolumeDir (r : Runtime) (id mountPath : String) : String :=
  joinPath [r.runtimeDir, "secretvol", id, r.secretDirName mountPath]

def networkMode (app : App) : String := if app.hostNetwork then "host" else "routed"

/-- Renders the configuration: the command of the workload replaces the image's entry point and
its command, the arguments replace the command alone, and the environment of the image comes
first. -/
def Runtime.buildConfig (r : Runtime) (id : String) (ls : LaunchSpec) (app : App)
    (volumes : List Volume) (envFile : String) (secretMounts : List SecretMount) : SandboxConfig :=
  let entry := if app.command.isEmpty then ls.entrypoint else app.command
  let cmd := if app.args.isEmpty then (if app.command.isEmpty then ls.cmd else []) else app.args
  let (uid, gid) := Node.workloadRunAs app.securityContext
  let mounted := volumes.filter (·.mountPath ≠ "")
  { lowerDirs := ls.layerDirs
    merged := joinPath [r.stateDir, "merged", id]
    initDir := joinPath [r.stateDir, "init", id]
    command := entry ++ cmd
    env := ls.env ++ app.env
    workingDir := ls.workingDir
    hostname := app.name
    tmpfsMounts := (mounted.filter (·.kind == .tmpfs)).map (·.mountPath)
    bindMounts := (mounted.filter (·.kind == .hostPath)).map fun v => ⟨v.ref, v.mountPath, v.readOnly⟩
    secretMounts
    uid, gid
    secretEnvFile := envFile
    network := networkMode app
    netnsPidPath := r.netnsPidPath id
    networkReadyPath := r.networkReadyPath id }

end Horchestra.Agent
