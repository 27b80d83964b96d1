import Horchestra.Authz.Policy
import Horchestra.Foundations.Checks

/-!
# Admission of roles and bindings

Two plugins guard the access policy.  One refuses a role whose rules cannot mean what they
say.  The other refuses a role or a binding that would grant something its writer does not
hold: every concrete permission of the rules is put to the authorizer as a question about
the writer, and a wildcard, about which no concrete question can be asked, is refused.
-/

namespace Horchestra.Admission.Rbac

open Api Storage Authz Foundations Text Checks

/-! ## The shape of rules -/

/-- Where an error about the `i`-th rule points. -/
def rulePath (i : Nat) (field : String) : String := "spec.rules[" ++ Nat.repr i ++ "]" ++ field

def checkRule (namespaced : Bool) (i : Nat) (rule : PolicyRule) : Except AdmissionError Unit :=
  let resources := rule.apiGroups ≠ [] || rule.resources ≠ []
  let paths := rule.nonResourceURLs ≠ []
  if resources && paths then
    .error (.invalid (rulePath i
      ": a rule grants resources or nonResourceURLs, not both — split it in two"))
  else if !resources && !paths then
    .error (.invalid (rulePath i
      ": a rule must name either apiGroups and resources, or nonResourceURLs"))
  else if resources && (rule.apiGroups = [] || rule.resources = []) then
    .error (.invalid (rulePath i
      ": a resource rule needs both apiGroups and resources — either alone selects nothing"))
  else if rule.verbs = [] then
    .error (.invalid (rulePath i ".verbs: a rule with no verbs grants nothing"))
  else if paths && namespaced then
    .error (.invalid (rulePath i (".nonResourceURLs: a request path is not in any namespace — " ++
      "grant it from a ClusterRole bound by a ClusterRoleBinding")))
  else
    checkAll (fun url => require (url == "*" || "/".toList.isPrefixOf url.toList)
      (.invalid (rulePath i (".nonResourceURLs: " ++ quote url ++ " is not a request path — " ++
        "it begins with / , or is * for every path")))) rule.nonResourceURLs

/-- The rules of a role, and whether they live in a namespace. -/
def rulesOf : {k : Kind} → Obj k → Option (List PolicyRule × Bool)
  | .role, role => some (Role.rules role, true)
  | .clusterRole, role => some (ClusterRole.rules role, false)
  | _, _ => none

def rbacRules : Plugin where
  admitPass := keep
  validate _ _ a :=
    if a.operation = .delete || a.isSubresource then .ok ()
    else
      match rulesOf a.object with
      | none => .ok ()
      | some (rules, namespaced) => checkIndexed (checkRule namespaced) 0 rules

/-! ## The escalation check -/

/-- How many permissions one write may ask the authorizer about. -/
def maxEscalationTuples : Nat := 10000

def tuples (rules : List PolicyRule) : Nat :=
  (rules.map fun rule =>
    max rule.apiGroups.length 1 * max rule.resources.length 1 * max rule.verbs.length 1 +
      rule.nonResourceURLs.length * max rule.verbs.length 1).sum

/-- Whether the writer may hand out a verb on a request path. -/
def checkPath (db : DB) (id : Identity) (url verb : String) : Except AdmissionError Unit :=
  if verb = "*" ∨ url.toList.getLast? = some '*' then
    .error (.forbidden ("rbac: only a cluster admin may grant a wildcard non-resource permission " ++
      "(verb=" ++ quote verb ++ " nonResourceURL=" ++ quote url ++ ")"))
  else
    require (authorize db { user := some id, verb := verb, path := url })
      (.forbidden ("rbac: may not grant " ++ quote verb ++ " on " ++ url ++
        " — the requester does not hold it (privilege escalation)"))

/-- Whether the writer may hand out a verb on a resource of a group, in a namespace. -/
def checkTuple (db : DB) (id : Identity) (ns group resource verb : String) :
    Except AdmissionError Unit :=
  if group = "*" ∨ resource = "*" ∨ verb = "*" then
    .error (.forbidden ("rbac: only a cluster admin may grant a wildcard permission (apiGroup=" ++
      quote group ++ " resource=" ++ quote resource ++ " verb=" ++ quote verb ++ ")"))
  else
    require (authorize db { user := some id, verb := verb, group := group, resource := resource
                            ns := ns, resourceRequest := true })
      (.forbidden ("rbac: may not grant " ++ quote verb ++ " on " ++ group ++ "/" ++ resource ++
        " in namespace " ++ quote ns ++
        " — the requester does not hold it (privilege escalation)"))

def checkPermissions (db : DB) (id : Identity) (ns : String) (rule : PolicyRule) :
    Except AdmissionError Unit :=
  andThen
    (checkAll (fun url => checkAll (checkPath db id url) rule.verbs) rule.nonResourceURLs)
    (checkAll (fun group => checkAll (fun resource =>
      checkAll (checkTuple db id ns group resource) rule.verbs) rule.resources) rule.apiGroups)

/-- Refuses rules the writer does not hold in a namespace (empty for the cluster). -/
def check (db : DB) (id : Identity) (ns : String) (rules : List PolicyRule) :
    Except AdmissionError Unit :=
  if tuples rules > maxEscalationTuples then
    .error (.forbidden ("rbac: the rules expand to " ++ Nat.repr (tuples rules) ++
      " apiGroup/resource/verb combinations, more than the 10000 this check will evaluate — " ++
      "split them into smaller rules"))
  else checkAll (checkPermissions db id ns) rules

/-- The rules a binding's reference resolves to, found among the listed roles. -/
def referencedRules (db : DB) (ref : RoleRef) (ns : String) : List PolicyRule :=
  if ref.kind = "Role" then
    (((db.list .role).find? fun r =>
      r.metadata.name == ref.name && r.metadata.ns == ns).map Role.rules).getD []
  else if ref.kind = "ClusterRole" then
    (((db.list .clusterRole).find? fun r => r.metadata.name == ref.name).map
      ClusterRole.rules).getD []
  else []

/-- What a write grants, and where: the rules of a role, or of the role a binding names. -/
def granted (db : DB) : {k : Kind} → Obj k → Option (String × List PolicyRule)
  | .role, o => some ((Role.metadata o).ns, Role.rules o)
  | .clusterRole, o => some ("", ClusterRole.rules o)
  | .roleBinding, o =>
    some ((RoleBinding.metadata o).ns,
      referencedRules db (RoleBinding.spec o).roleRef (RoleBinding.metadata o).ns)
  | .clusterRoleBinding, o => some ("", referencedRules db (ClusterRoleBinding.spec o).roleRef "")
  | _, _ => none

def rbacEscalation : Plugin where
  admitPass := keep
  validate _ ctx a :=
    if a.operation = .delete || a.isSubresource then .ok ()
    else
      match ctx.identity with
      | none => .ok ()
      | some id =>
        if id.groups.contains adminGroup then .ok ()
        else
          match granted ctx.db a.object with
          | none => .ok ()
          | some (ns, rules) => check ctx.db id ns rules

end Horchestra.Admission.Rbac
