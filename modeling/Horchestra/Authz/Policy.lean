import Horchestra.Authz.Attributes
import Horchestra.Foundations.KeepFirst

/-!
# The access policy

The stored roles and bindings are projected into two tables: lines over resources, each
naming a subject, a namespace, a group, a resource and a verb, and grants over request
paths.  A line is kept unless its columns, joined by a separator, have been seen before.
`authorize` decides a request on the two tables and on three rules that need no object:
administrators may do anything, a node may manage its own registration, and everyone may
list namespaces.

`grants` is the middle of the projection: one entry for each binding that counts, with the
namespace it is projected into and the rules its role gives.
-/

namespace Horchestra.Authz

open Api Admission Storage Foundations Paths KeepFirst

def nodeGroup : String := "system:nodes"
def adminGroup : String := "system:masters"

/-! ## Subjects -/

def userSubject (name : String) : String := "user:" ++ name
def groupSubject (name : String) : String := "group:" ++ name

/-- The subject a binding names; an unknown kind names nobody. -/
def subjectString (s : Subject) : String :=
  if s.kind = "User" then userSubject s.name
  else if s.kind = "Group" then groupSubject s.name
  else ""

def subjectsOf (id : Identity) : List String := userSubject id.name :: id.groups.map groupSubject

/-! ## Lines over resources -/

structure Line where
  sub : String
  ns : String
  group : String
  resource : String
  verb : String
  deriving DecidableEq

/-- The columns joined by a separator: what the projection compares lines by. -/
def Line.key (line : Line) : String :=
  line.sub ++ "\x00" ++ line.ns ++ "\x00" ++ line.group ++ "\x00" ++ line.resource ++ "\x00" ++
    line.verb

def columnMatches (column value : String) : Bool := column == "*" || value == column

def Line.allows (line : Line) (sub : String) (a : Attributes) : Bool :=
  sub == line.sub && columnMatches line.ns a.ns && columnMatches line.group a.group &&
    columnMatches line.resource a.target && columnMatches line.verb a.verb

/-! ## Grants over request paths -/

structure NonResourceGrant where
  verbs : List String
  urls : List String

/-- A trailing `*` matches by prefix; anything else is literal. -/
def matchesPath (pattern path : String) : Bool :=
  if pattern.toList.getLast? = some '*' then pattern.toList.dropLast.isPrefixOf path.toList
  else pattern == path

def NonResourceGrant.allows (g : NonResourceGrant) (verb path : String) : Bool :=
  (g.verbs.contains verb || g.verbs.contains "*") && g.urls.any fun url => matchesPath url path

/-- The paths every authenticated caller may read. -/
def allowedNonResourcePath (path : String) : Bool :=
  ["/api", "/apis", "/version", "/version/", "/openapi", "/livez", "/readyz"].contains path ||
    if "/openapi/".toList.isPrefixOf path.toList then true
    else if "/api/".toList.isPrefixOf path.toList then true
    else if "/apis/".toList.isPrefixOf path.toList then
      decide ((trimSlashes path.toList).count '/' ≤ 2)
    else false

/-! ## The projection -/

/-- One binding that counts: its subjects, the namespace it is projected into, and the
rules of its role. -/
structure Grant where
  subjects : List Subject
  ns : String
  rules : List PolicyRule

/-- The rules a reference resolves to: a role of the namespace, or a cluster role. -/
def roleRefRules (db : DB) (ref : RoleRef) (ns : String) : List PolicyRule :=
  if ref.kind = "Role" then ((db.get .role ns ref.name).map Role.rules).getD []
  else if ref.kind = "ClusterRole" then
    ((db.get .clusterRole "" ref.name).map ClusterRole.rules).getD []
  else []

theorem roleRefRules_clusterRole (db : DB) {ref : RoleRef} (ns : String)
    (isClusterRole : ref.kind = "ClusterRole") :
    roleRefRules db ref ns = ((db.get .clusterRole "" ref.name).map ClusterRole.rules).getD [] := by
  simp [roleRefRules, isClusterRole]

def liveNamespace (db : DB) (name : String) : Bool :=
  (db.list .ns).any fun ns => ns.metadata.name == name

/-- What a role binding is projected to: nothing when its namespace is gone. -/
def roleBindingGrant (db : DB) (rb : RoleBinding) : Option Grant :=
  if rb.metadata.ns ≠ "" && !liveNamespace db rb.metadata.ns then none
  else some ⟨rb.spec.subjects, rb.metadata.ns, roleRefRules db rb.spec.roleRef rb.metadata.ns⟩

/-- What a cluster role binding is projected to: only cluster roles count. -/
def clusterRoleBindingGrant (db : DB) (crb : ClusterRoleBinding) : Option Grant :=
  if crb.spec.roleRef.kind = "ClusterRole" then
    some ⟨crb.spec.subjects, "*", roleRefRules db crb.spec.roleRef ""⟩
  else none

/-- Every binding that counts, in the order they are projected. -/
def grants (db : DB) : List Grant :=
  (db.list .roleBinding).filterMap (roleBindingGrant db) ++
    (db.list .clusterRoleBinding).filterMap (clusterRoleBindingGrant db)

def Grant.subs (g : Grant) : List String := (g.subjects.map subjectString).filter (· ≠ "")

def ruleLines (sub ns : String) (rule : PolicyRule) : List Line :=
  rule.apiGroups.flatMap fun group =>
    rule.resources.flatMap fun resource =>
      rule.verbs.map fun verb => ⟨sub, ns, group, resource, verb⟩

def Grant.lines (g : Grant) : List Line :=
  g.subs.flatMap fun sub => g.rules.flatMap fun rule => ruleLines sub g.ns rule

/-- Paths are granted across the cluster only. -/
def Grant.paths (g : Grant) : List (String × NonResourceGrant) :=
  g.subs.flatMap fun sub => g.rules.filterMap fun rule =>
    if rule.nonResourceURLs ≠ [] ∧ g.ns = "*" then some (sub, ⟨rule.verbs, rule.nonResourceURLs⟩)
    else none

/-- The lines of every binding, before duplicates are dropped. -/
def projected (db : DB) : List Line := (grants db).flatMap Grant.lines

def policyRules (db : DB) : List Line := keepFirst Line.key [] (projected db)

def policyPaths (db : DB) : List (String × NonResourceGrant) := (grants db).flatMap Grant.paths

/-! ## Decisions -/

def nodeAuthorizes (id : Identity) (a : Attributes) : Bool :=
  id.groups.contains nodeGroup &&
    if a.group = "horchestra.io" then
      a.target == "nodes" && ["create", "get", "update", "patch"].contains a.verb
    else if a.group = "certificates.horchestra.io" then
      a.target == "certificatesigningrequests" && ["create", "get", "list"].contains a.verb
    else false

def isPublicNamespaceRead (a : Attributes) : Bool :=
  a.group == "horchestra.io" && a.resource == "namespaces" && (a.verb == "list" || a.verb == "watch")

def allowsPath (db : DB) (id : Identity) (a : Attributes) : Bool :=
  (subjectsOf id).any fun sub =>
    (policyPaths db).any fun (holder, grant) => holder == sub && grant.allows a.verb a.path

/-- Whether some line allows one of an identity's subjects the request. -/
def enforce (db : DB) (id : Identity) (a : Attributes) : Bool :=
  (subjectsOf id).any fun sub => (policyRules db).any fun line => line.allows sub a

def authorize (db : DB) (a : Attributes) : Bool :=
  match a.user with
  | none => false
  | some id =>
    if id.groups.contains adminGroup then true
    else if !a.resourceRequest then allowedNonResourcePath a.path || allowsPath db id a
    else nodeAuthorizes id a || isPublicNamespaceRead a || enforce db id a

end Horchestra.Authz
