import Horchestra.Authz.Attributes

/-!
# The route table and the authorizer's view of it

The server binds one kind to each route when the route is registered, and the handlers
read only the `:namespace` and `:name` parameters.  The group and the version in the path
are parameters too, which no handler reads.  The authorizer looks at the path alone.

`authorizer_agrees_iff` says on which of the requests that reach a handler the two views
agree: on those whose group segment is the group of the kind the route serves, and that do
not ask a single object to be watched.  Two worked requests show both ways of missing it.
-/

namespace Horchestra.Apiserver

open Api Authz Admission Foundations.Paths

/-! ## Registration -/

inductive Handler where
  | listOrWatch
  | namespaceList
  | create
  | get
  | update
  | patch
  | delete
  deriving DecidableEq

/-- A registered route: a method and a pattern, the kind fixed at registration, and the
handler. -/
structure Route where
  method : String
  pattern : List Segment
  kind : Kind
  handler : Handler
  deriving DecidableEq

/-- The group every resource route is registered under. -/
def gvGroup : List Segment := [.literal "apis", .param "group", .param "version"]

def crud (base : List Segment) (k : Kind) (list : Handler) : List Route :=
  let item := base ++ [.param "name"]
  [⟨"GET", base, k, list⟩, ⟨"POST", base, k, .create⟩, ⟨"GET", item, k, .get⟩,
    ⟨"PUT", item, k, .update⟩, ⟨"PATCH", item, k, .patch⟩, ⟨"DELETE", item, k, .delete⟩]

/-- The pattern of a kind's collection inside a namespace. -/
def namespacedBase (k : Kind) : List Segment :=
  gvGroup ++ [.literal "namespaces", .param "namespace", .literal k.plural]

/-- The pattern of a kind's collection across the cluster. -/
def clusterBase (k : Kind) : List Segment := gvGroup ++ [.literal k.plural]

def resourceRoutes (k : Kind) : List Route :=
  if k.namespaced then
    crud (namespacedBase k) k .listOrWatch ++ [⟨"GET", clusterBase k, k, .listOrWatch⟩]
  else crud (clusterBase k) k (if k = .ns then .namespaceList else .listOrWatch)

def build : List Route := Kind.all.flatMap resourceRoutes

/-! ## Dispatch -/

def rejectEncodedPath (r : Request) : Bool := r.rawPath ≠ ""

/-- A request the server accepts and a route that takes it, with the parameters the
handler reads.  Every route that matches is allowed, so no order among overlapping routes
is assumed. -/
structure Dispatched (r : Request) (route : Route) (params : List (String × String)) : Prop where
  accepted : rejectEncodedPath r = false
  registered : route ∈ build
  method : route.method = r.method
  matched : matchPath route.pattern r.path = some params

/-- What a handler does to the objects of its kind. -/
inductive Performed where
  | list
  | watch
  | create
  | get
  | update
  | patch
  | delete

def performed (handler : Handler) (r : Request) : Performed :=
  match handler with
  | .listOrWatch | .namespaceList => if r.watches then .watch else .list
  | .create => .create
  | .get => .get
  | .update => .update
  | .patch => .patch
  | .delete => .delete

/-- The verb that names an operation.  A patch is stored through the update path and is
authorized as an update. -/
def Performed.verb : Performed → String
  | .list => "list"
  | .watch => "watch"
  | .create => "create"
  | .get => "get"
  | .update | .patch => "update"
  | .delete => "delete"

/-- The authorizer's view of a request names exactly what its handler touches. -/
structure Agrees (a : Attributes) (r : Request) (route : Route) (params : List (String × String)) :
    Prop where
  isResource : a.resourceRequest = true
  group : a.group = route.kind.group
  resource : a.resource = route.kind.plural
  ns : a.ns = paramValue params "namespace"
  name : a.name = paramValue params "name"
  verb : a.verb = (performed route.handler r).verb

/-! ## What the authorizer reads off a matched path -/

theorem plural_ne_empty (k : Kind) : k.plural ≠ "" := by cases k <;> decide

variable {r : Request} {params : List (String × String)}

theorem attributes_of_match (user : Option Identity) {tail : List Segment} (ne : tail ≠ [])
    (solid : .literal "" ∉ tail) (matched : matchPath (gvGroup ++ tail) r.path = some params) :
    ∃ group ver found bound, params = ("group", group) :: ("version", ver) :: bound ∧
      matchSegments tail found = some bound ∧
      attributesFromRequest r user = resourceAttributes r user group found := by
  have solidPattern : .literal "" ∉ gvGroup ++ tail := by simp [gvGroup, solid]
  have agreed := trimmedParts_eq_of_match solidPattern matched
  simp only [gvGroup, List.cons_append, List.nil_append, matchSegments_literal_iff,
    matchSegments_param_iff] at agreed
  obtain ⟨_, seen, group, _, _, rfl, -, ⟨ver, rest, bound, rfl, -, remaining, rfl⟩, rfl⟩ := agreed
  refine ⟨group, ver, rest, bound, rfl, remaining, ?_⟩
  cases rest with
  | nil =>
    cases tail with
    | nil => contradiction
    | cons seg tail => cases seg <;> simp [matchSegments] at remaining
  | cons resource more => simp [attributesFromRequest, seen]

variable {k : Kind}

/-- What the authorizer makes of a request whose path has bound the parameters. -/
def routedAttributes (r : Request) (user : Option Identity) (params : List (String × String))
    (k : Kind) : Attributes where
  user := user
  path := r.path
  resourceRequest := true
  group := paramValue params "group"
  ns := paramValue params "namespace"
  resource := k.plural
  name := paramValue params "name"
  verb := requestVerb r (paramValue params "name")

variable {base : List Segment} (scope : base = clusterBase k ∨ base = namespacedBase k)

include scope

/-- The attributes of the path of a collection, and below of an object in it. -/
theorem attributes_of_collection (user : Option Identity)
    (matched : matchPath base r.path = some params) :
    attributesFromRequest r user = routedAttributes r user params k ∧
      paramValue params "name" = "" := by
  rcases scope with rfl | rfl
  all_goals
    obtain ⟨group, ver, found, bound, rfl, agreed, read⟩ :=
      attributes_of_match user (by simp) (by simp [plural_ne_empty]) matched
    simp only [matchSegments_literal_iff, matchSegments_param_iff, matchSegments_nil_iff] at agreed
  · obtain ⟨_, rfl, rfl, rfl⟩ := agreed
    rw [read]
    simp [routedAttributes, resourceAttributes, paramValue, List.lookup]
  · obtain ⟨_, rfl, ns, _, _, rfl, -, ⟨_, rfl, rfl, rfl⟩, rfl⟩ := agreed
    rw [read]
    simp [routedAttributes, resourceAttributes, paramValue, List.lookup]

theorem attributes_of_item (user : Option Identity)
    (matched : matchPath (base ++ [.param "name"]) r.path = some params) :
    attributesFromRequest r user = routedAttributes r user params k ∧
      paramValue params "name" ≠ "" := by
  rcases scope with rfl | rfl
  · rw [clusterBase, List.append_assoc] at matched
    obtain ⟨group, ver, found, bound, rfl, agreed, read⟩ :=
      attributes_of_match user (by simp) (by simp [plural_ne_empty]) matched
    simp only [List.cons_append, List.nil_append, matchSegments_literal_iff, matchSegments_param_iff,
      matchSegments_nil_iff] at agreed
    obtain ⟨_, rfl, name, _, _, rfl, named, ⟨rfl, rfl⟩, rfl⟩ := agreed
    rw [read]
    simp [routedAttributes, resourceAttributes, paramValue, List.lookup, named]
  rw [namespacedBase, List.append_assoc] at matched
  obtain ⟨group, ver, found, bound, rfl, agreed, read⟩ :=
    attributes_of_match user (by simp) (by simp [plural_ne_empty]) matched
  simp only [List.cons_append, List.nil_append, matchSegments_literal_iff, matchSegments_param_iff,
    matchSegments_nil_iff] at agreed
  obtain ⟨_, rfl, ns, _, _, rfl, -, ⟨_, rfl, name, _, _, rfl, named, ⟨rfl, rfl⟩, rfl⟩, rfl⟩ := agreed
  rw [read]
  simp [routedAttributes, resourceAttributes, paramValue, List.lookup, named]

omit scope

/-! ## Verbs -/

def Route.OnCollection (route : Route) : Prop :=
  (route.method = "GET" ∧ (route.handler = .listOrWatch ∨ route.handler = .namespaceList)) ∨
    (route.method = "POST" ∧ route.handler = .create)

/-- The routes of a single object. -/
def Route.OnItem (route : Route) : Prop :=
  (route.method = "GET" ∧ route.handler = .get) ∨ (route.method = "PUT" ∧ route.handler = .update) ∨
    (route.method = "PATCH" ∧ route.handler = .patch) ∨
    (route.method = "DELETE" ∧ route.handler = .delete)

variable {route : Route}

theorem crud_cases {base : List Segment} {list : Handler}
    (lists : list = .listOrWatch ∨ list = .namespaceList) (mem : route ∈ crud base k list) :
    route.kind = k ∧
      ((route.pattern = base ∧ route.OnCollection) ∨
        (route.pattern = base ++ [.param "name"] ∧ route.OnItem)) := by
  simp only [crud, List.mem_cons, List.not_mem_nil, or_false] at mem
  rcases mem with rfl | rfl | rfl | rfl | rfl | rfl
  · exact ⟨rfl, .inl ⟨rfl, .inl ⟨rfl, lists⟩⟩⟩
  · exact ⟨rfl, .inl ⟨rfl, .inr ⟨rfl, rfl⟩⟩⟩
  · exact ⟨rfl, .inr ⟨rfl, .inl ⟨rfl, rfl⟩⟩⟩
  · exact ⟨rfl, .inr ⟨rfl, .inr (.inl ⟨rfl, rfl⟩)⟩⟩
  · exact ⟨rfl, .inr ⟨rfl, .inr (.inr (.inl ⟨rfl, rfl⟩))⟩⟩
  · exact ⟨rfl, .inr ⟨rfl, .inr (.inr (.inr ⟨rfl, rfl⟩))⟩⟩

theorem build_cases (reg : route ∈ build) :
    ∃ base, (base = clusterBase route.kind ∨ base = namespacedBase route.kind) ∧
      ((route.pattern = base ∧ route.OnCollection) ∨
        (route.pattern = base ++ [.param "name"] ∧ route.OnItem)) := by
  obtain ⟨k, -, mem⟩ := List.mem_flatMap.1 reg
  unfold resourceRoutes at mem
  split at mem
  · rcases List.mem_append.1 mem with inNamespace | acrossCluster
    · obtain ⟨rfl, shape⟩ := crud_cases (.inl rfl) inNamespace
      exact ⟨_, .inr rfl, shape⟩
    · rw [List.mem_singleton] at acrossCluster
      subst acrossCluster
      exact ⟨_, .inl rfl, .inl ⟨rfl, .inl ⟨rfl, .inl rfl⟩⟩⟩
  have lists : ∀ k : Kind, (if k = .ns then Handler.namespaceList else .listOrWatch) =
      .listOrWatch ∨ (if k = .ns then Handler.namespaceList else .listOrWatch) =
        .namespaceList := by
    intro k
    by_cases isNamespace : k = .ns <;> simp [isNamespace]
  obtain ⟨rfl, shape⟩ := crud_cases (lists k) mem
  exact ⟨_, .inl rfl, shape⟩

theorem requestVerb_collection_iff (shape : route.OnCollection) (method : route.method = r.method) :
    requestVerb r "" = (performed route.handler r).verb ↔
      ¬ (route.handler = .get ∧ r.watches = true) := by
  rcases shape with ⟨get, lists⟩ | ⟨post, creates⟩
  · rw [get] at method
    rcases lists with handler | handler <;> rw [handler] <;>
      by_cases watching : r.watches <;>
      simp [requestVerb, performed, ← method, watching, Performed.verb]
  rw [post] at method
  simp [requestVerb, performed, creates, ← method, Performed.verb]

theorem requestVerb_item_iff {name : String} (shape : route.OnItem)
    (method : route.method = r.method) (named : name ≠ "") :
    requestVerb r name = (performed route.handler r).verb ↔
      ¬ (route.handler = .get ∧ r.watches = true) := by
  rcases shape with ⟨get, handler⟩ | ⟨put, handler⟩ | ⟨patch, handler⟩ | ⟨delete, handler⟩
  · rw [get] at method
    by_cases watching : r.watches <;>
      simp [requestVerb, performed, handler, ← method, watching, named, Performed.verb]
  · rw [put] at method
    simp [requestVerb, performed, handler, ← method, Performed.verb]
  · rw [patch] at method
    simp [requestVerb, performed, handler, ← method, Performed.verb]
  · rw [delete] at method
    simp [requestVerb, performed, handler, ← method, Performed.verb]

/-! ## Agreement -/

theorem agrees_iff_of_verb {user : Option Identity}
    (verb : requestVerb r (paramValue params "name") = (performed route.handler r).verb ↔
      ¬ (route.handler = .get ∧ r.watches = true)) :
    Agrees (routedAttributes r user params route.kind) r route params ↔
      paramValue params "group" = route.kind.group ∧
        ¬ (route.handler = .get ∧ r.watches = true) := by
  constructor
  · intro agrees
    exact ⟨agrees.group, verb.1 agrees.verb⟩
  rintro ⟨group, notWatched⟩
  exact ⟨rfl, group, rfl, rfl, rfl, verb.2 notWatched⟩

theorem authorizer_agrees_iff {r : Request} {route : Route} {params : List (String × String)}
    {user : Option Identity} (dispatched : Dispatched r route params) :
    Agrees (attributesFromRequest r user) r route params ↔
      paramValue params "group" = route.kind.group ∧
        ¬ (route.handler = .get ∧ r.watches = true) := by
  obtain ⟨-, registered, method, matched⟩ := dispatched
  obtain ⟨base, scope, shape⟩ := build_cases registered
  rcases shape with ⟨pattern, collection⟩ | ⟨pattern, item⟩
  · rw [pattern] at matched
    obtain ⟨read, unnamed⟩ := attributes_of_collection scope user matched
    rw [read]
    exact agrees_iff_of_verb (unnamed ▸ requestVerb_collection_iff collection method)
  rw [pattern] at matched
  obtain ⟨read, named⟩ := attributes_of_item scope user matched
  rw [read]
  exact agrees_iff_of_verb (requestVerb_item_iff item method named)

/-! ### Worked requests -/

/-- Reading the secret `db` of namespace `a`, with the group and the query left open. -/
def readSecret (group : String) (query : List (String × String)) : Request :=
  { method := "GET", path := "/apis/" ++ group ++ "/v1/namespaces/a/secrets/db", query := query }

def secretRoute : Route := ⟨"GET", namespacedBase .secret ++ [.param "name"], .secret, .get⟩

def secretParams (group : String) : List (String × String) :=
  [("group", group), ("version", "v1"), ("namespace", "a"), ("name", "db")]

theorem readSecret_dispatched :
    Dispatched (readSecret "horchestra.io" []) secretRoute (secretParams "horchestra.io") :=
  ⟨rfl, by decide, rfl, by decide +kernel⟩

theorem authorizer_agrees_on_readSecret :
    Agrees (attributesFromRequest (readSecret "horchestra.io" []) none)
        (readSecret "horchestra.io" []) secretRoute (secretParams "horchestra.io") ↔
      paramValue (secretParams "horchestra.io") "group" = secretRoute.kind.group ∧
        ¬ (secretRoute.handler = .get ∧ (readSecret "horchestra.io" []).watches = true) :=
  authorizer_agrees_iff readSecret_dispatched

/-- The same secret is served under a group that has no such resource, where it is
authorized as an object of that group; and asked for with `watch=true` it is authorized
as a watch while the handler reads one object. -/
theorem secret_served_under_another_permission :
    (Dispatched (readSecret "demo" []) secretRoute (secretParams "demo") ∧
      (attributesFromRequest (readSecret "demo" []) none).group = "demo" ∧
      secretRoute.kind.group = "horchestra.io") ∧
    (Dispatched (readSecret "horchestra.io" [("watch", "true")]) secretRoute
        (secretParams "horchestra.io") ∧
      (attributesFromRequest (readSecret "horchestra.io" [("watch", "true")]) none).verb = "watch" ∧
      (performed secretRoute.handler (readSecret "horchestra.io" [("watch", "true")])).verb =
        "get") :=
  ⟨⟨⟨rfl, by decide, rfl, by decide +kernel⟩, by decide +kernel, rfl⟩,
    ⟨⟨rfl, by decide, rfl, by decide +kernel⟩, by decide +kernel, rfl⟩⟩

end Horchestra.Apiserver
