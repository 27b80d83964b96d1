import Horchestra.Api.Ids

/-!
# The served kinds

The remaining API groups (access rules, certificate requests, secret stores), and the
closed list of kinds the server stores.  `Obj k` is the type of an object of kind `k`,
so a value can never be filed under another kind's name.  The store and the admission
chain treat objects of every kind alike through a few accessors: their metadata, their
status subresource, and the desired state that is neither of the two.
-/

namespace Horchestra.Api

/-! ## Access rules -/

structure PolicyRule where
  apiGroups : List String := []
  resources : List String := []
  verbs : List String := []
  nonResourceURLs : List String := []
  deriving DecidableEq

structure Role where
  metadata : ObjectMeta := {}
  rules : List PolicyRule := []
  deriving DecidableEq

structure ClusterRole where
  metadata : ObjectMeta := {}
  rules : List PolicyRule := []
  deriving DecidableEq

structure Subject where
  kind : String := ""
  name : String := ""
  deriving DecidableEq

structure RoleRef where
  kind : String := ""
  name : String := ""
  deriving DecidableEq

structure RoleBindingSpec where
  subjects : List Subject := []
  roleRef : RoleRef := {}
  deriving DecidableEq

structure RoleBinding where
  metadata : ObjectMeta := {}
  spec : RoleBindingSpec := {}
  deriving DecidableEq

structure ClusterRoleBinding where
  metadata : ObjectMeta := {}
  spec : RoleBindingSpec := {}
  deriving DecidableEq

/-! ## Certificate requests and secret stores -/

structure CertificateSigningRequestSpec where
  request : List UInt8 := []
  groups : List String := []
  nodeName : String := ""
  deriving DecidableEq

structure CertificateSigningRequestStatus where
  phase : String := ""
  certificate : List UInt8 := []
  reason : String := ""
  deriving DecidableEq

structure CertificateSigningRequest where
  metadata : ObjectMeta := {}
  spec : CertificateSigningRequestSpec := {}
  status : CertificateSigningRequestStatus := {}
  deriving DecidableEq

structure SecretStoreSpec where
  provider : String := ""
  server : String := ""
  mount : String := ""
  kvVersion : Int := 0
  vaultNamespace : String := ""
  caBundle : List UInt8 := []
  authMethod : String := ""
  authPath : String := ""
  authRole : String := ""
  deriving DecidableEq

structure SecretStore where
  metadata : ObjectMeta := {}
  spec : SecretStoreSpec := {}
  deriving DecidableEq

def authMethodCert : String := "cert"
def authMethodKubernetes : String := "kubernetes"

/-! The annotations with which a secret names its store and the keys it takes from it. -/

def annExternalSecretStore : String := "secrets.horchestra.io/store"
def annExternalSecretKeys : String := "secrets.horchestra.io/keys"

/-! ## Kinds -/

/-- The kinds the server stores; `ns` is the kind `Namespace`. -/
inductive Kind where
  | application
  | applicationSet
  | persistentVolume
  | secret
  | service
  | ns
  | node
  | role
  | roleBinding
  | clusterRole
  | clusterRoleBinding
  | certificateSigningRequest
  | secretStore
  deriving DecidableEq

namespace Kind

def all : List Kind :=
  [ns, service, application, node, persistentVolume, secret, applicationSet,
    role, roleBinding, clusterRole, clusterRoleBinding, certificateSigningRequest, secretStore]

/-- The name an object carries as its `kind`. -/
def name : Kind → String
  | application => "Application"
  | applicationSet => "ApplicationSet"
  | persistentVolume => "PersistentVolume"
  | secret => "Secret"
  | service => "Service"
  | ns => "Namespace"
  | node => "Node"
  | role => "Role"
  | roleBinding => "RoleBinding"
  | clusterRole => "ClusterRole"
  | clusterRoleBinding => "ClusterRoleBinding"
  | certificateSigningRequest => "CertificateSigningRequest"
  | secretStore => "SecretStore"

def group : Kind → String
  | role | roleBinding | clusterRole | clusterRoleBinding => "rbac.horchestra.io"
  | certificateSigningRequest => "certificates.horchestra.io"
  | secretStore => "secrets.horchestra.io"
  | _ => "horchestra.io"

/-- The path segment a kind's collection is served under. -/
def plural : Kind → String
  | application => "applications"
  | applicationSet => "applicationsets"
  | persistentVolume => "persistentvolumes"
  | secret => "secrets"
  | service => "services"
  | ns => "namespaces"
  | node => "nodes"
  | role => "roles"
  | roleBinding => "rolebindings"
  | clusterRole => "clusterroles"
  | clusterRoleBinding => "clusterrolebindings"
  | certificateSigningRequest => "certificatesigningrequests"
  | secretStore => "secretstores"

/-- Whether objects of the kind live inside a namespace. -/
def namespaced : Kind → Bool
  | ns | node | clusterRole | clusterRoleBinding | certificateSigningRequest => false
  | _ => true

theorem application_namespaced : application.namespaced = true := rfl

theorem service_namespaced : service.namespaced = true := rfl

end Kind

/-! ## Objects of a kind -/

@[reducible]
def Obj : Kind → Type
  | .application => Application
  | .applicationSet => ApplicationSet
  | .persistentVolume => PersistentVolume
  | .secret => Secret
  | .service => Service
  | .ns => Namespace
  | .node => Node
  | .role => Role
  | .roleBinding => RoleBinding
  | .clusterRole => ClusterRole
  | .clusterRoleBinding => ClusterRoleBinding
  | .certificateSigningRequest => CertificateSigningRequest
  | .secretStore => SecretStore

instance instDecidableEqObj : (k : Kind) → DecidableEq (Obj k)
  | .application => inferInstanceAs (DecidableEq Application)
  | .applicationSet => inferInstanceAs (DecidableEq ApplicationSet)
  | .persistentVolume => inferInstanceAs (DecidableEq PersistentVolume)
  | .secret => inferInstanceAs (DecidableEq Secret)
  | .service => inferInstanceAs (DecidableEq Service)
  | .ns => inferInstanceAs (DecidableEq Namespace)
  | .node => inferInstanceAs (DecidableEq Node)
  | .role => inferInstanceAs (DecidableEq Role)
  | .roleBinding => inferInstanceAs (DecidableEq RoleBinding)
  | .clusterRole => inferInstanceAs (DecidableEq ClusterRole)
  | .clusterRoleBinding => inferInstanceAs (DecidableEq ClusterRoleBinding)
  | .certificateSigningRequest => inferInstanceAs (DecidableEq CertificateSigningRequest)
  | .secretStore => inferInstanceAs (DecidableEq SecretStore)

def metaOf : {k : Kind} → Obj k → ObjectMeta
  | .application, o => Application.metadata o
  | .applicationSet, o => ApplicationSet.metadata o
  | .persistentVolume, o => PersistentVolume.metadata o
  | .secret, o => Secret.metadata o
  | .service, o => Service.metadata o
  | .ns, o => Namespace.metadata o
  | .node, o => Node.metadata o
  | .role, o => Role.metadata o
  | .roleBinding, o => RoleBinding.metadata o
  | .clusterRole, o => ClusterRole.metadata o
  | .clusterRoleBinding, o => ClusterRoleBinding.metadata o
  | .certificateSigningRequest, o => CertificateSigningRequest.metadata o
  | .secretStore, o => SecretStore.metadata o

def withMeta : {k : Kind} → Obj k → ObjectMeta → Obj k
  | .application, o, m => { (o : Application) with metadata := m }
  | .applicationSet, o, m => { (o : ApplicationSet) with metadata := m }
  | .persistentVolume, o, m => { (o : PersistentVolume) with metadata := m }
  | .secret, o, m => { (o : Secret) with metadata := m }
  | .service, o, m => { (o : Service) with metadata := m }
  | .ns, o, m => { (o : Namespace) with metadata := m }
  | .node, o, m => { (o : Node) with metadata := m }
  | .role, o, m => { (o : Role) with metadata := m }
  | .roleBinding, o, m => { (o : RoleBinding) with metadata := m }
  | .clusterRole, o, m => { (o : ClusterRole) with metadata := m }
  | .clusterRoleBinding, o, m => { (o : ClusterRoleBinding) with metadata := m }
  | .certificateSigningRequest, o, m => { (o : CertificateSigningRequest) with metadata := m }
  | .secretStore, o, m => { (o : SecretStore) with metadata := m }

/-- An object with the status of another one.  Kinds without a status are unchanged. -/
def withStatusOf : {k : Kind} → Obj k → Obj k → Obj k
  | .application, o, other => { (o : Application) with status := Application.status other }
  | .applicationSet, o, other => { (o : ApplicationSet) with status := ApplicationSet.status other }
  | .node, o, other => { (o : Node) with status := Node.status other }
  | .certificateSigningRequest, o, other =>
    { (o : CertificateSigningRequest) with status := CertificateSigningRequest.status other }
  | .persistentVolume, o, _ | .secret, o, _ | .service, o, _ | .ns, o, _ | .role, o, _
  | .roleBinding, o, _ | .clusterRole, o, _ | .clusterRoleBinding, o, _ | .secretStore, o, _ => o

/-- Whether objects of the kind have a status subresource. -/
def Kind.hasStatus : Kind → Bool
  | .application | .applicationSet | .node | .certificateSigningRequest => true
  | _ => false

/-- The desired state alone: an object up to its metadata and status, which are taken
from a fixed one. -/
def sameDesired {k : Kind} (a b : Obj k) : Bool :=
  decide (withMeta (withStatusOf a b) (metaOf b) = b)

section

variable {k : Kind} (o other : Obj k) (m m' : ObjectMeta)

@[simp] theorem metaOf_withMeta : metaOf (withMeta o m) = m := by cases k <;> rfl

@[simp] theorem withMeta_metaOf : withMeta o (metaOf o) = o := by cases k <;> rfl

@[simp] theorem withMeta_withMeta : withMeta (withMeta o m) m' = withMeta o m' := by cases k <;> rfl

@[simp] theorem metaOf_withStatusOf : metaOf (withStatusOf o other) = metaOf o := by cases k <;> rfl

end

end Horchestra.Api
