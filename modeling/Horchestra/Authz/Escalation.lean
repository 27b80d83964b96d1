import Horchestra.Admission.Rbac
import Horchestra.Storage.Filing

/-!
# No escalation through the access policy

A write of a role or a binding that admission accepts can only hand out what its writer
holds.  The projection is taken apart binding by binding: after the write, every binding
projects what it projected before, or rules that were put to the authorizer as questions
about the writer (`grants_of_write`).  Everything such rules allow anybody is therefore
allowed to the writer (`line_covered`, `path_covered`).

One thing escapes the argument.  The projection drops a line whose joined columns it has
seen, and two different lines can share them, because the separator may occur inside a
column.  A line dropped that way comes back when a write removes the line that hid it.
`no_escalation` says that this is the only gap: where the joined columns tell the lines of
the store apart, an accepted write escalates nobody.
-/

namespace Horchestra.Authz

open Api Admission Admission.Rbac Storage Storage.DB
open Foundations Text Checks KeepFirst

/-! ## Accepted writes -/

/-- A create or an update by `u` that both plugins accept and the database performs. -/
structure AcceptedWrite (db db' : DB) (u : Identity) (op : Operation) {k : Kind} (o : Obj k) :
    Prop where
  identified : Identified k (metaOf o)
  written : (op = .create ∧ ∃ now out, db.create now o = .ok (out, db')) ∨
    (op = .update ∧ ∃ out, db.update o = .ok (out, db'))
  wellFormed : rbacRules.validate k ⟨some u, db⟩ { operation := op, object := o } = .ok ()
  held : rbacEscalation.validate k ⟨some u, db⟩ { operation := op, object := o } = .ok ()

theorem withStatusOf_of_not_hasStatus {k : Kind} (none : k.hasStatus = false) (o other : Obj k) :
    withStatusOf o other = o := by
  cases k <;> first | rfl | cases none

theorem persisted_of_not_hasStatus {k : Kind} (none : k.hasStatus = false) (o : Obj k) :
    persisted o = o := by
  cases k <;> first | rfl | cases none

variable {db db' : DB} {u : Identity} {op : Operation} {k : Kind} {o : Obj k}

theorem AcceptedWrite.filed (accepted : AcceptedWrite db db' u op o)
    (plain : k.hasStatus = false) :
    ∃ m : ObjectMeta, m.ns = (metaOf o).ns ∧ m.name = (metaOf o).name ∧
      Filed db db' k (keyOf o) (some (withMeta o m)) := by
  rcases accepted.written with ⟨-, now, out, done⟩ | ⟨-, out, done⟩
  · obtain ⟨-, -, rfl, filed, -, -⟩ := create_spec done
    rw [persisted_of_not_hasStatus plain] at filed
    refine ⟨_, ?_, ?_, filed⟩ <;> rfl
  obtain ⟨stored, -, -, rfl, filed, -, -⟩ := update_spec done
  unfold mergeCore at filed
  rw [withStatusOf_of_not_hasStatus plain] at filed
  refine ⟨_, ?_, ?_, filed⟩ <;> rfl

variable {ns group resource verb url sub : String} {rules : List PolicyRule}

/-- A writer who is no administrator had every granted rule checked. -/
theorem AcceptedWrite.checked (accepted : AcceptedWrite db db' u op o)
    (notAdmin : adminGroup ∉ u.groups) (grants : granted db o = some (ns, rules)) :
    check db u ns rules = .ok () := by
  have held := accepted.held
  have notDelete : op ≠ .delete := by rcases accepted.written with ⟨rfl, -⟩ | ⟨rfl, -⟩ <;> decide
  simpa [rbacEscalation, notDelete, Attributes.isSubresource, notAdmin, grants] using held

/-! ## What the writer holds -/

variable {rule : PolicyRule}

theorem checkTuple_of_check (passed : check db u ns rules = .ok ()) (member : rule ∈ rules)
    (inGroups : group ∈ rule.apiGroups) (inResources : resource ∈ rule.resources)
    (inVerbs : verb ∈ rule.verbs) : checkTuple db u ns group resource verb = .ok () := by
  unfold check at passed
  split at passed
  · cases passed
  have each := checkAll_eq_ok_iff.1 passed rule member
  unfold checkPermissions at each
  have groups := (andThen_eq_ok_iff.1 each).2
  exact checkAll_eq_ok_iff.1 (checkAll_eq_ok_iff.1 (checkAll_eq_ok_iff.1 groups group inGroups)
    resource inResources) verb inVerbs

theorem checkPath_of_check (passed : check db u ns rules = .ok ()) (member : rule ∈ rules)
    (inUrls : url ∈ rule.nonResourceURLs) (inVerbs : verb ∈ rule.verbs) :
    checkPath db u url verb = .ok () := by
  unfold check at passed
  split at passed
  · cases passed
  have each := checkAll_eq_ok_iff.1 passed rule member
  unfold checkPermissions at each
  have urls := (andThen_eq_ok_iff.1 each).1
  exact checkAll_eq_ok_iff.1 (checkAll_eq_ok_iff.1 urls url inUrls) verb inVerbs

theorem checkTuple_eq_ok_iff :
    checkTuple db u ns group resource verb = .ok () ↔
      (group ≠ "*" ∧ resource ≠ "*" ∧ verb ≠ "*") ∧
        authorize db { user := some u, verb := verb, group := group, resource := resource
                       ns := ns, resourceRequest := true } = true := by
  unfold checkTuple
  split
  next wildcard =>
    simp only [reduceCtorEq, false_iff, not_and]
    intro concrete
    simp [concrete] at wildcard
  next concrete => simpa [not_or] using fun _ => by simpa [not_or] using concrete

theorem checkPath_eq_ok_iff :
    checkPath db u url verb = .ok () ↔
      (verb ≠ "*" ∧ url.toList.getLast? ≠ some '*') ∧
        authorize db { user := some u, verb := verb, path := url } = true := by
  unfold checkPath
  split
  next wildcard =>
    simp only [reduceCtorEq, false_iff, not_and]
    intro concrete
    simp [concrete] at wildcard
  next concrete => simpa [not_or] using fun _ => by simpa [not_or] using concrete

/-! ## Bindings before and after a write -/

theorem roleRefRules_eq_referencedRules (filed : db.WellFiled) (ref : RoleRef)
    (free : SlashFree ns) : roleRefRules db ref ns = referencedRules db ref ns := by
  unfold roleRefRules referencedRules
  split
  · congr 2
    cases found : (db.list .role).find? fun r =>
        r.metadata.name == ref.name && r.metadata.ns == ns with
    | some r =>
      have member := List.mem_of_find?_eq_some found
      have named := List.find?_some found
      simp only [Bool.and_eq_true, beq_iff_eq] at named
      have hit := filed.get_of_mem (k := .role) member
      rw [show metaOf (k := .role) r = r.metadata from rfl, named.1, named.2] at hit
      exact hit
    | none =>
      cases hit : db.get .role ns ref.name with
      | none => rfl
      | some r =>
        obtain ⟨nsEq, nameEq⟩ := filed.meta_of_get free hit
        have gone := List.find?_eq_none.1 found r (mem_list_of_get hit)
        exact absurd (show (r.metadata.name == ref.name && r.metadata.ns == ns) = true by
          simpa using ⟨nameEq, nsEq⟩) gone
  split
  · congr 2
    have freeEmpty : SlashFree "" := by decide
    cases found : (db.list .clusterRole).find? fun r => r.metadata.name == ref.name with
    | some r =>
      have member := List.mem_of_find?_eq_some found
      have named : r.metadata.name = ref.name := by simpa using List.find?_some found
      have global : r.metadata.ns = "" := (filed.identified (k := .clusterRole) member).scope rfl
      have hit := filed.get_of_mem (k := .clusterRole) member
      rw [show metaOf (k := .clusterRole) r = r.metadata from rfl, global, named] at hit
      exact hit
    | none =>
      cases hit : db.get .clusterRole "" ref.name with
      | none => rfl
      | some r =>
        obtain ⟨-, nameEq⟩ := filed.meta_of_get freeEmpty hit
        have gone := List.find?_eq_none.1 found r (mem_list_of_get hit)
        exact absurd (beq_iff_eq.2 nameEq) gone
  · rfl

/-- A grant whose rules the writer was asked about, in its own namespace or across the
cluster. -/
def Checked (db : DB) (u : Identity) (g : Grant) : Prop :=
  ∃ scope, (scope = g.ns ∨ scope = "") ∧ check db u scope g.rules = .ok ()

theorem liveNamespace_congr (eq : db'.list .ns = db.list .ns) (name : String) :
    liveNamespace db' name = liveNamespace db name := by
  unfold liveNamespace
  rw [eq]

variable {g : Grant}

/-- A write that leaves the namespaces alone changes a grant only through its binding and the rules
that resolves to. -/
theorem grants_of_bindings (namespaces : db'.list .ns = db.list .ns)
    (bindings : ∀ rb ∈ db'.list .roleBinding,
      rb ∈ db.list .roleBinding ∧ roleRefRules db' rb.spec.roleRef rb.metadata.ns =
          roleRefRules db rb.spec.roleRef rb.metadata.ns ∨
        ∃ scope, (scope = rb.metadata.ns ∨ scope = "") ∧
          check db u scope (roleRefRules db' rb.spec.roleRef rb.metadata.ns) = .ok ())
    (clusterBindings : ∀ crb ∈ db'.list .clusterRoleBinding, crb.spec.roleRef.kind = "ClusterRole" →
      crb ∈ db.list .clusterRoleBinding ∧
          roleRefRules db' crb.spec.roleRef "" = roleRefRules db crb.spec.roleRef "" ∨
        check db u "" (roleRefRules db' crb.spec.roleRef "") = .ok ())
    {g : Grant} (member : g ∈ grants db') : g ∈ grants db ∨ Checked db u g := by
  rcases List.mem_append.1 member with inNamespace | acrossCluster
  · obtain ⟨rb, listed, projects⟩ := List.mem_filterMap.1 inNamespace
    unfold roleBindingGrant at projects
    rw [liveNamespace_congr namespaces] at projects
    split at projects
    · cases projects
    rename_i counts
    cases projects
    rcases bindings rb listed with ⟨pre, eq⟩ | checked
    · refine .inl (List.mem_append_left _ (List.mem_filterMap.2 ⟨rb, pre, ?_⟩))
      unfold roleBindingGrant
      rw [if_neg counts, eq]
    · exact .inr checked
  obtain ⟨crb, listed, projects⟩ := List.mem_filterMap.1 acrossCluster
  unfold clusterRoleBindingGrant at projects
  split at projects
  next isClusterRole =>
    cases projects
    rcases clusterBindings crb listed isClusterRole with ⟨pre, eq⟩ | checked
    · refine .inl (List.mem_append_right _ (List.mem_filterMap.2 ⟨crb, pre, ?_⟩))
      unfold clusterRoleBindingGrant
      rw [if_pos isClusterRole, eq]
    · exact .inr ⟨"", .inr rfl, checked⟩
  · cases projects

theorem roleRefRules_congr {key : String} {o : Option (Obj k)} (wrote : DB.Filed db db' k key o)
    (roles : .role ≠ k) (clusterRoles : .clusterRole ≠ k) (ref : RoleRef) (ns : String) :
    roleRefRules db' ref ns = roleRefRules db ref ns := by
  unfold roleRefRules DB.get
  rw [wrote.otherKinds _ _ roles, wrote.otherKinds _ _ clusterRoles]

section

variable (notAdmin : adminGroup ∉ u.groups) (member : g ∈ grants db')

include notAdmin member

/-- Writing a role: a binding that resolves to it is in the role's own namespace. -/
theorem grants_of_role_write {o : Role} (filed : db.WellFiled)
    (accepted : AcceptedWrite (k := .role) db db' u op o) : g ∈ grants db ∨ Checked db u g := by
  obtain ⟨m, -, -, wrote⟩ := accepted.filed rfl
  have checked : check db u o.metadata.ns o.rules = .ok () := accepted.checked notAdmin rfl
  refine grants_of_bindings (wrote.list_otherKinds (by decide)) ?_ ?_ member
  · intro rb listed
    rw [wrote.list_otherKinds (by decide)] at listed
    unfold roleRefRules
    split
    · by_cases same : recordKey rb.metadata.ns rb.spec.roleRef.name = keyOf (k := .role) o
      · have free : SlashFree rb.metadata.ns := (filed.identified (k := .roleBinding) listed).ns
        obtain ⟨nsEq, -⟩ := recordKey_inj free accepted.identified.ns same
        refine .inr ⟨rb.metadata.ns, .inl rfl, ?_⟩
        rw [DB.get, same, wrote.here, nsEq]
        exact checked
      · exact .inl ⟨listed, by rw [DB.get, wrote.elsewhere _ same, DB.get]⟩
    split
    · exact .inl ⟨listed, by rw [DB.get, wrote.otherKinds _ _ (by decide), DB.get]⟩
    · exact .inl ⟨listed, rfl⟩
  intro crb listed isClusterRole
  rw [wrote.list_otherKinds (by decide)] at listed
  refine .inl ⟨listed, ?_⟩
  rw [roleRefRules_clusterRole db' _ isClusterRole, roleRefRules_clusterRole db _ isClusterRole,
    DB.get, wrote.otherKinds _ _ (by decide), DB.get]

theorem grants_of_clusterRole_write {o : ClusterRole}
    (accepted : AcceptedWrite (k := .clusterRole) db db' u op o) :
    g ∈ grants db ∨ Checked db u g := by
  obtain ⟨m, -, -, wrote⟩ := accepted.filed rfl
  have checked : check db u "" o.rules = .ok () := accepted.checked notAdmin rfl
  have resolved : ∀ ref : RoleRef, ref.kind = "ClusterRole" → ∀ ns,
      roleRefRules db' ref ns = roleRefRules db ref ns ∨
        check db u "" (roleRefRules db' ref ns) = .ok () := by
    intro ref isClusterRole ns
    rw [roleRefRules_clusterRole db' _ isClusterRole, roleRefRules_clusterRole db _ isClusterRole]
    by_cases same : recordKey "" ref.name = keyOf (k := .clusterRole) o
    · refine .inr ?_
      rw [DB.get, same, wrote.here]
      exact checked
    · exact .inl (by rw [DB.get, wrote.elsewhere _ same, DB.get])
  refine grants_of_bindings (wrote.list_otherKinds (by decide)) ?_ ?_ member
  · intro rb listed
    rw [wrote.list_otherKinds (by decide)] at listed
    by_cases isClusterRole : rb.spec.roleRef.kind = "ClusterRole"
    · rcases resolved _ isClusterRole rb.metadata.ns with same | passed
      · exact .inl ⟨listed, same⟩
      · exact .inr ⟨"", .inr rfl, passed⟩
    refine .inl ⟨listed, ?_⟩
    unfold roleRefRules
    rw [if_neg isClusterRole, if_neg isClusterRole, DB.get, wrote.otherKinds _ _ (by decide),
      DB.get]
  intro crb listed isClusterRole
  rw [wrote.list_otherKinds (by decide)] at listed
  exact (resolved _ isClusterRole "").imp_left fun same => ⟨listed, same⟩

/-- Writing a role binding: its own rules were checked in its own namespace. -/
theorem grants_of_roleBinding_write {o : RoleBinding} (filed : db.WellFiled)
    (accepted : AcceptedWrite (k := .roleBinding) db db' u op o) :
    g ∈ grants db ∨ Checked db u g := by
  obtain ⟨m, nsEq, -, wrote⟩ := accepted.filed rfl
  have checked : check db u o.metadata.ns (referencedRules db o.spec.roleRef o.metadata.ns) =
      .ok () := accepted.checked notAdmin rfl
  have rules := roleRefRules_congr wrote (by decide) (by decide)
  refine grants_of_bindings (wrote.list_otherKinds (by decide)) ?_ ?_ member
  · intro rb listed
    rcases wrote.mem_list_cases listed with pre | eq
    · exact .inl ⟨pre, rules _ _⟩
    cases eq
    refine .inr ⟨o.metadata.ns, .inl nsEq.symm, ?_⟩
    have free : SlashFree o.metadata.ns := accepted.identified.ns
    rw [← roleRefRules_eq_referencedRules filed _ free] at checked
    rw [rules, show (withMeta (k := .roleBinding) o m).metadata.ns = o.metadata.ns from nsEq]
    exact checked
  intro crb listed _
  rw [wrote.list_otherKinds (by decide)] at listed
  exact .inl ⟨listed, rules _ _⟩

theorem grants_of_clusterRoleBinding_write {o : ClusterRoleBinding} (filed : db.WellFiled)
    (accepted : AcceptedWrite (k := .clusterRoleBinding) db db' u op o) :
    g ∈ grants db ∨ Checked db u g := by
  obtain ⟨m, -, -, wrote⟩ := accepted.filed rfl
  have checked : check db u "" (referencedRules db o.spec.roleRef "") = .ok () :=
    accepted.checked notAdmin rfl
  have rules := roleRefRules_congr wrote (by decide) (by decide)
  refine grants_of_bindings (wrote.list_otherKinds (by decide)) ?_ ?_ member
  · intro rb listed
    rw [wrote.list_otherKinds (by decide)] at listed
    exact .inl ⟨listed, rules _ _⟩
  intro crb listed _
  rcases wrote.mem_list_cases listed with pre | eq
  · exact .inl ⟨pre, rules _ _⟩
  cases eq
  refine .inr ?_
  have free : SlashFree "" := by decide
  rw [← roleRefRules_eq_referencedRules filed _ free] at checked
  rw [rules]
  exact checked

end

/-- The kinds the escalation check guards. -/
def Guarded (k : Kind) : Prop :=
  k = .role ∨ k = .clusterRole ∨ k = .roleBinding ∨ k = .clusterRoleBinding

theorem grants_of_write (filed : db.WellFiled) (guarded : Guarded k)
    (accepted : AcceptedWrite db db' u op o) (notAdmin : adminGroup ∉ u.groups)
    (member : g ∈ grants db') : g ∈ grants db ∨ Checked db u g := by
  rcases guarded with rfl | rfl | rfl | rfl
  · exact grants_of_role_write notAdmin member filed accepted
  · exact grants_of_clusterRole_write notAdmin member accepted
  · exact grants_of_roleBinding_write notAdmin member filed accepted
  · exact grants_of_clusterRoleBinding_write notAdmin member filed accepted

/-! ## Checked rules are covered by the writer -/

/-- A request as one identity makes it. -/
def Attributes.asUser (a : Attributes) (id : Option Identity) : Attributes := { a with user := id }

variable {a : Attributes} {i id : Identity}

theorem authorize_resource_iff (isResource : a.resourceRequest = true) :
    authorize db (a.asUser (some i)) = true ↔
      adminGroup ∈ i.groups ∨ nodeAuthorizes i a = true ∨ isPublicNamespaceRead a = true ∨
        enforce db i a = true := by
  by_cases admin : adminGroup ∈ i.groups
  · simp [authorize, Attributes.asUser, admin]
  simp [authorize, Attributes.asUser, admin, isResource, nodeAuthorizes, isPublicNamespaceRead,
    enforce, Attributes.target, Line.allows, or_assoc]

theorem authorize_path_iff (isPath : a.resourceRequest = false) :
    authorize db (a.asUser (some i)) = true ↔
      adminGroup ∈ i.groups ∨ allowedNonResourcePath a.path = true ∨ allowsPath db i a = true := by
  by_cases admin : adminGroup ∈ i.groups
  · simp [authorize, Attributes.asUser, admin]
  · simp [authorize, Attributes.asUser, admin, isPath, allowsPath]

theorem nodeAuthorizes_of_not_node (notNode : nodeGroup ∉ id.groups) :
    nodeAuthorizes id a = false := by
  simp [nodeAuthorizes, notNode]

theorem resource_of_target (eq : a.target = "namespaces") : a.resource = "namespaces" := by
  unfold Attributes.target at eq
  split at eq
  · exact eq
  have slash : '/' ∈ (a.resource ++ "/" ++ a.subresource).toList := by simp
  rw [eq] at slash
  exact absurd slash (by decide)

theorem columnMatches_of_ne {column value : String} (concrete : column ≠ "*")
    (matched : columnMatches column value = true) : value = column := by
  simpa [columnMatches, concrete] using matched

theorem enforce_iff :
    enforce db id a = true ↔
      ∃ sub ∈ subjectsOf id, ∃ line ∈ policyRules db, line.allows sub a = true := by
  simp [enforce]

variable {line : Line}

theorem Line.allows_iff :
    line.allows sub a = true ↔
      sub = line.sub ∧ columnMatches line.ns a.ns = true ∧ columnMatches line.group a.group = true ∧
        columnMatches line.resource a.target = true ∧ columnMatches line.verb a.verb = true := by
  simp [Line.allows, and_assoc]

theorem mem_lines_iff :
    line ∈ g.lines ↔ ∃ sub ∈ g.subs, ∃ rule ∈ g.rules, ∃ group ∈ rule.apiGroups,
      ∃ resource ∈ rule.resources, ∃ verb ∈ rule.verbs,
        line = ⟨sub, g.ns, group, resource, verb⟩ := by
  simp [Grant.lines, ruleLines, eq_comm]

/-- A line of a checked grant allows nobody anything that the writer is not allowed. -/
theorem line_covered (checked : Checked db u g) (member : line ∈ g.lines)
    (allows : line.allows sub a = true) (isResource : a.resourceRequest = true)
    (notAdmin : adminGroup ∉ u.groups) (notNode : nodeGroup ∉ u.groups)
    (namespaced : ∀ l ∈ policyRules db, l.ns ≠ "") : authorize db (a.asUser (some u)) = true := by
  obtain ⟨scope, reach, passed⟩ := checked
  obtain ⟨sub', -, rule, inRules, group, inGroups, resource, inResources, verb, inVerbs, rfl⟩ :=
    mem_lines_iff.1 member
  obtain ⟨⟨concreteGroup, concreteResource, concreteVerb⟩, held⟩ :=
    checkTuple_eq_ok_iff.1 (checkTuple_of_check passed inRules inGroups inResources inVerbs)
  obtain ⟨-, matchNs, matchGroup, matchResource, matchVerb⟩ := Line.allows_iff.1 allows
  have sameGroup := columnMatches_of_ne concreteGroup matchGroup
  have sameResource := columnMatches_of_ne concreteResource matchResource
  have sameVerb := columnMatches_of_ne concreteVerb matchVerb
  have asked := (authorize_resource_iff (i := u)
    (a := { verb := verb, group := group, resource := resource, ns := scope
            resourceRequest := true }) rfl).1 held
  rw [authorize_resource_iff isResource]
  rcases asked with admin | n | isPublic | enforced
  · contradiction
  · rw [nodeAuthorizes_of_not_node notNode] at n
    cases n
  · refine .inr (.inr (.inl ?_))
    simp only [isPublicNamespaceRead, Bool.and_eq_true, beq_iff_eq] at isPublic ⊢
    obtain ⟨⟨rfl, rfl⟩, verbs⟩ := isPublic
    exact ⟨⟨sameGroup, resource_of_target sameResource⟩, by simpa [sameVerb] using verbs⟩
  · refine .inr (.inr (.inr ?_))
    obtain ⟨holder, carries, line', kept, allows'⟩ := enforce_iff.1 enforced
    obtain ⟨sameSub, matchNs', matchGroup', matchResource', matchVerb'⟩ := Line.allows_iff.1 allows'
    refine enforce_iff.2 ⟨holder, carries, line', kept, Line.allows_iff.2
      ⟨sameSub, ?_, by simpa [sameGroup] using matchGroup', ?_, by simpa [sameVerb] using matchVerb'⟩⟩
    · -- The writer's line covers the scope of the question, and that scope covers the request.
      have ne := namespaced line' kept
      simp only [columnMatches, Bool.or_eq_true, beq_iff_eq] at matchNs matchNs' ⊢
      rcases matchNs' with global | sameScope
      · exact .inl global
      rcases reach with rfl | rfl
      · rcases matchNs with everywhere | nsEq
        · exact .inl (sameScope.symm.trans everywhere)
        · exact .inr (nsEq.trans sameScope)
      · exact absurd sameScope.symm ne
    rw [sameResource]
    simpa [Attributes.target] using matchResource'

theorem path_covered {grant : NonResourceGrant} (checked : Checked db u g)
    (member : (sub, grant) ∈ g.paths) (allows : grant.allows a.verb a.path = true)
    (isPath : a.resourceRequest = false) (notAdmin : adminGroup ∉ u.groups) :
    authorize db (a.asUser (some u)) = true := by
  obtain ⟨scope, -, passed⟩ := checked
  simp only [Grant.paths, List.mem_flatMap, List.mem_filterMap, Option.ite_none_right_eq_some,
    Option.some.injEq, Prod.mk.injEq] at member
  obtain ⟨-, -, rule, inRules, -, -, rfl⟩ := member
  simp only [NonResourceGrant.allows, Bool.and_eq_true, Bool.or_eq_true, List.contains_iff_mem,
    List.any_eq_true] at allows
  obtain ⟨verbs, url, inUrls, matched⟩ := allows
  have literal : ∀ verb ∈ rule.verbs, verb ≠ "*" ∧ url.toList.getLast? ≠ some '*' :=
    fun verb inVerbs => (checkPath_eq_ok_iff.1 (checkPath_of_check passed inRules inUrls inVerbs)).1
  rcases verbs with inVerbs | wildcard
  · obtain ⟨⟨-, notPattern⟩, held⟩ :=
      checkPath_eq_ok_iff.1 (checkPath_of_check passed inRules inUrls inVerbs)
    have samePath : url = a.path := by simpa [matchesPath, notPattern] using matched
    have asked := (authorize_path_iff (i := u) (a := { verb := a.verb, path := url }) rfl).1 held
    rw [authorize_path_iff isPath]
    rcases asked with admin | isPublic | holds
    · contradiction
    · exact .inr (.inl (by rw [← samePath]; exact isPublic))
    · exact .inr (.inr (by simpa [allowsPath, samePath] using holds))
  · exact absurd rfl (literal "*" wildcard).1

/-! ## The theorem -/

/-- The joined columns of the lines that a store projects tell them apart. -/
def KeysTellApart (db : DB) : Prop :=
  ∀ line ∈ projected db, ∀ other ∈ projected db, line.key = other.key → line = other

instance : Decidable (KeysTellApart db) := inferInstanceAs (Decidable (∀ line ∈ _, _))

theorem mem_projected_iff : line ∈ projected db ↔ ∃ g ∈ grants db, line ∈ g.lines := by
  simp [projected]

theorem ns_ne_empty_of_mem (bindings : ∀ rb ∈ db.list .roleBinding, rb.metadata.ns ≠ "")
    (member : line ∈ policyRules db) : line.ns ≠ "" := by
  obtain ⟨g, inGrants, inLines⟩ := mem_projected_iff.1 (mem_keepFirst member).1
  obtain ⟨-, -, -, -, -, -, -, -, -, -, rfl⟩ := mem_lines_iff.1 inLines
  rcases List.mem_append.1 inGrants with inNamespace | acrossCluster
  · obtain ⟨rb, listed, projects⟩ := List.mem_filterMap.1 inNamespace
    unfold roleBindingGrant at projects
    split at projects
    · cases projects
    cases projects
    exact bindings rb listed
  obtain ⟨crb, -, projects⟩ := List.mem_filterMap.1 acrossCluster
  unfold clusterRoleBindingGrant at projects
  split at projects
  · cases projects
    simp
  · cases projects

section

variable (filed : db.WellFiled) (bindings : ∀ rb ∈ db.list .roleBinding, rb.metadata.ns ≠ "")
  (guarded : Guarded k) (notAdmin : adminGroup ∉ u.groups) (notNode : nodeGroup ∉ u.groups)
  (accepted : AcceptedWrite db db' u op o) (apart : KeysTellApart db)

include filed bindings guarded notAdmin notNode accepted apart

variable {v : Identity} {a : Attributes}

/-- A line of the new table is an old line, or covered by the writer. -/
theorem authorize_of_line {line : Line} {sub : String} (isResource : a.resourceRequest = true)
    (carries : sub ∈ subjectsOf v) (kept : line ∈ policyRules db')
    (allows : line.allows sub a = true) :
    authorize db (a.asUser (some v)) = true ∨ authorize db (a.asUser (some u)) = true := by
  obtain ⟨g, inGrants, inLines⟩ := mem_projected_iff.1 (mem_keepFirst kept).1
  rcases grants_of_write filed guarded accepted notAdmin inGrants with pre | checked
  · have projects := mem_projected_iff.2 ⟨g, pre, inLines⟩
    -- the first line of that key is this one, so it was not dropped
    have keyKept : line.key ∈ (policyRules db).map Line.key :=
      mem_map_keepFirst.2 ⟨List.mem_map_of_mem projects, List.not_mem_nil⟩
    obtain ⟨other, old, sameKey⟩ := List.mem_map.1 keyKept
    obtain rfl := apart other (mem_keepFirst old).1 line projects sameKey
    refine .inl ((authorize_resource_iff isResource).2 (.inr (.inr (.inr ?_))))
    exact enforce_iff.2 ⟨sub, carries, other, old, allows⟩
  · exact .inr (line_covered checked inLines allows isResource notAdmin notNode
      fun l member => ns_ne_empty_of_mem bindings member)

omit bindings notNode apart in
theorem authorize_of_path (isPath : a.resourceRequest = false)
    (may : authorize db' (a.asUser (some v)) = true) :
    authorize db (a.asUser (some v)) = true ∨ authorize db (a.asUser (some u)) = true := by
  rcases (authorize_path_iff isPath).1 may with admin | isPublic | holds
  · exact .inl ((authorize_path_iff isPath).2 (.inl admin))
  · exact .inl ((authorize_path_iff isPath).2 (.inr (.inl isPublic)))
  · simp only [allowsPath, List.any_eq_true, Bool.and_eq_true, beq_iff_eq] at holds
    obtain ⟨sub, carries, ⟨holder, grant⟩, inPaths, eq, allows⟩ := holds
    obtain ⟨g, inGrants, member⟩ := List.mem_flatMap.1 inPaths
    rcases grants_of_write filed guarded accepted notAdmin inGrants with pre | checked
    · refine .inl ((authorize_path_iff isPath).2 (.inr (.inr ?_)))
      simp only [allowsPath, List.any_eq_true, Bool.and_eq_true, beq_iff_eq]
      exact ⟨sub, carries, ⟨holder, grant⟩, List.mem_flatMap.2 ⟨g, pre, member⟩, eq, allows⟩
    · exact .inr (path_covered checked member allows isPath notAdmin)

/-- **An accepted write escalates nobody**, in a store whose lines are told apart. -/
theorem no_escalation (v : Option Identity) (a : Attributes)
    (may : authorize db' (a.asUser v) = true) :
    authorize db (a.asUser v) = true ∨ authorize db (a.asUser (some u)) = true := by
  cases v with
  | none => simp [authorize, Attributes.asUser] at may
  | some v =>
    cases isResource : a.resourceRequest with
    | false => exact authorize_of_path filed guarded notAdmin accepted isResource may
    | true =>
      rcases (authorize_resource_iff isResource).1 may with admin | n | isPublic | enforced
      · exact .inl ((authorize_resource_iff isResource).2 (.inl admin))
      · exact .inl ((authorize_resource_iff isResource).2 (.inr (.inl n)))
      · exact .inl ((authorize_resource_iff isResource).2 (.inr (.inr (.inl isPublic))))
      · obtain ⟨sub, carries, line, kept, allows⟩ := enforce_iff.1 enforced
        exact authorize_of_line filed bindings guarded notAdmin notNode accepted apart isResource
          carries kept allows

end

/-! ### A line that comes back

Two roles of namespace `a`, both bound to the user `x`, and a write of the first. -/

def ruleOn (group resource verb : String) : PolicyRule :=
  { apiGroups := [group], resources := [resource], verbs := [verb] }

def roleOf (name : String) (rule : PolicyRule) : Role :=
  { metadata := { ns := "a", name := name }, rules := [rule] }

def bindingOf (name : String) : RoleBinding where
  metadata := { ns := "a", name := name }
  spec := { subjects := [⟨"User", "x"⟩], roleRef := ⟨"Role", name⟩ }

def twoRoles (first second : PolicyRule) : DB :=
  ((((({} : DB).putHead (k := .ns) "/a" { metadata := { name := "a" } }).putHead (k := .role)
    "a/r0" (roleOf "r0" first)).putHead (k := .role) "a/r1" (roleOf "r1" second)).putHead
    (k := .roleBinding) "a/r0" (bindingOf "r0")).putHead (k := .roleBinding) "a/r1" (bindingOf "r1")

/-- The writer turns the first role into one that lists namespaces, which anybody may. -/
def harmlessRole : Role := roleOf "r0" (ruleOn "horchestra.io" "namespaces" "list")

def writer : Identity := { name := "u" }

def rewritten (first second : PolicyRule) : DB :=
  ((twoRoles first second).nextRV .role).putHead (k := .role) "a/r0"
    ((twoRoles first second).mergeCore (k := .role) harmlessRole (roleOf "r0" first))

theorem twoRoles_wellFiled (first second : PolicyRule) : (twoRoles first second).WellFiled := by
  have role {name : String} (free : SlashFree name) (rule : PolicyRule) :
      Identified .role (metaOf (k := .role) (roleOf name rule)) :=
    ⟨(by decide : SlashFree "a"), free, fun global => absurd global (by decide)⟩
  rw [twoRoles]
  iterate 2 refine WellFiled.putHead ?_ (by decide) ⟨by decide, by decide, by decide⟩
  iterate 2 refine WellFiled.putHead ?_ rfl (role (by decide) _)
  exact wellFiled_empty.putHead (by decide) ⟨by decide, by decide, by decide⟩

theorem no_escalation_twoRoles :
    let first := ruleOn "apps" "pods" "get"
    let second := ruleOn "apps" "jobs" "get"
    ∀ (v : Option Identity) (a : Attributes),
      authorize (rewritten first second) (a.asUser v) = true →
        authorize (twoRoles first second) (a.asUser v) = true ∨
          authorize (twoRoles first second) (a.asUser (some writer)) = true := by
  intro first second
  have accepted : AcceptedWrite (k := .role) (twoRoles first second) (rewritten first second) writer
      .update harmlessRole :=
    ⟨⟨by decide, by decide, by decide⟩, .inr ⟨rfl, _, rfl⟩, by decide +kernel, by decide +kernel⟩
  exact no_escalation (twoRoles_wellFiled _ _) (by decide +kernel) (.inl rfl) (by decide) (by decide)
    accepted (by decide +kernel)

/-- The one line of each role differs in the group and the resource, but the joined columns are the
same, so only the first is kept.  The write of the first is accepted, and afterwards the user `x` may
read what neither they nor the writer could read before. -/
theorem uncovered_line_escalates :
    let first := ruleOn "g\x00r" "v" "get"
    let second := ruleOn "g" "r\x00v" "get"
    let hidden : Attributes :=
      { verb := "get", group := "g", resource := "r\x00v", ns := "a", resourceRequest := true }
    AcceptedWrite (k := .role) (twoRoles first second) (rewritten first second) writer .update
        harmlessRole ∧
      (twoRoles first second).WellFiled ∧
      (∀ rb ∈ (twoRoles first second).list .roleBinding, rb.metadata.ns ≠ "") ∧
      (adminGroup ∉ writer.groups ∧ nodeGroup ∉ writer.groups) ∧
      authorize (rewritten first second) (hidden.asUser (some { name := "x" })) = true ∧
      authorize (twoRoles first second) (hidden.asUser (some { name := "x" })) = false ∧
      authorize (twoRoles first second) (hidden.asUser (some writer)) = false :=
  ⟨⟨⟨by decide, by decide, by decide⟩, .inr ⟨rfl, _, rfl⟩, by decide +kernel, by decide +kernel⟩,
    twoRoles_wellFiled _ _, by decide +kernel, by decide, by decide +kernel, by decide +kernel,
    by decide +kernel⟩

end Horchestra.Authz
