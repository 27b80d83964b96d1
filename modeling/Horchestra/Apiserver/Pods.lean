import Horchestra.Authz.Policy

/-!
# The pods alias

`kubectl logs` asks for pods, so every application is also served as one, across the cluster and
under a namespace.  Both routes of a single pod resolve it through `application`, which looks for
the first application of the name that the caller may get, and never at the namespace of the path.

`pods_resolve_in_namespace_iff` says when the namespaced routes answer for the application they name:
when the caller may get none of the name in another namespace, or one of theirs comes first.
-/

namespace Horchestra.Apiserver

open Api Authz Admission Foundations Text

/-- The engine that authorizes the alias; without one everything is allowed. -/
abbrev PodAuthorizer := Option (Attributes → Except String Bool)

/-- Whether a caller may act on applications of a namespace; an error of the engine refuses. -/
def appAuthorizer (authz : PodAuthorizer) (id : Option Identity) (verb ns : String) : Bool :=
  let asked : Attributes := {
    user := id, verb, group := Kind.application.group, resource := "applications", ns
    resourceRequest := true }
  authz.all fun authorize => (authorize asked).toOption == some true

def nodeConfinement (id : Option Identity) : Option String :=
  (id.filter fun id => id.groups.contains nodeGroup).map (·.name)

/-- The caller may get the application and, being a node, runs it. -/
def visible (authz : PodAuthorizer) (id : Option Identity) (app : Application) : Bool :=
  appAuthorizer authz id "get" app.metadata.ns &&
    (nodeConfinement id).all (· == app.spec.placement.nodeName)

def application (authz : PodAuthorizer) (id : Option Identity) (apps : List Application)
    (name : String) : Option Application :=
  apps.find? fun app => app.metadata.name == name && visible authz id app

def appPhasePending : String := "Pending"

structure Pod where
  name : String
  nodeName : String
  containers : List (String × String)
  phase : String
  deriving DecidableEq

def syntheticPod (app : Application) : Pod where
  name := app.metadata.name
  nodeName := app.spec.placement.nodeName
  containers := [(app.metadata.name, app.spec.image)]
  phase := if app.status.phase = "" then appPhasePending else app.status.phase

inductive PodReply where
  | pod (pod : Pod)
  | stream (node uid : String) (follow : Bool) (tail : Int)
  | notFound (name : String)
  | badRequest (message : String)
  | serviceUnavailable (message : String)
  | tooManyRequests (message : String)
  deriving DecidableEq

def maxLogStreamsPerCaller : Nat := 8

/-- What the log of a pod is asked with, and how many streams the caller has open. -/
structure LogRequest where
  available : Bool := true
  follow : Bool := false
  tail : Int := 0
  streams : Nat := 0

/-- The answer for the application a route has resolved its pod to. -/
def podReply (name : String) : Option Application → PodReply
  | some app => .pod (syntheticPod app)
  | none => .notFound name

def logReply (log : LogRequest) (name : String) (resolved : Option Application) : PodReply :=
  if !log.available then .serviceUnavailable "log streaming is not available"
  else
    match resolved with
    | none => .notFound name
    | some app =>
      if app.spec.placement.nodeName = "" then
        .badRequest ("application " ++ name ++ " has no spec.placement.nodeName")
      else if maxLogStreamsPerCaller ≤ log.streams then
        .tooManyRequests ("at most " ++ Nat.repr maxLogStreamsPerCaller ++
          " concurrent log streams per caller")
      else .stream app.spec.placement.nodeName app.metadata.uid log.follow log.tail

section

variable (authz : PodAuthorizer) (id : Option Identity) (apps : List Application)

-- the handlers are given the namespace of the path and do not read it
def podGet (_ns name : String) : PodReply := podReply name (application authz id apps name)

def podLog (log : LogRequest) (_ns name : String) : PodReply :=
  logReply log name (application authz id apps name)

/-- The application a namespaced path names, where the caller may see it. -/
def named (ns name : String) : Option Application :=
  apps.find? fun app =>
    app.metadata.ns == ns && app.metadata.name == name && visible authz id app

/-- The caller sees the name in another namespace only behind one of the namespace itself. -/
def OwnFirst (ns name : String) : Prop :=
  ∀ before app after, apps = before ++ app :: after → app.metadata.name = name →
    visible authz id app → app.metadata.ns ≠ ns →
      ∃ own ∈ before, own.metadata.ns = ns ∧ own.metadata.name = name ∧ visible authz id own

/-- **The alias resolves in its namespace** exactly where the caller sees the name in no other one
before; both routes then answer for the application that the path names. -/
theorem pods_resolve_in_namespace_iff (ns name : String) :
    (application authz id apps name = named authz id apps ns name ↔
      OwnFirst authz id apps ns name) ∧
    (OwnFirst authz id apps ns name →
      podGet authz id apps ns name = podReply name (named authz id apps ns name) ∧
      ∀ log,
        podLog authz id apps log ns name = logReply log name (named authz id apps ns name)) := by
  have resolved : application authz id apps name = named authz id apps ns name ↔
      OwnFirst authz id apps ns name := by
    constructor
    · rintro same before app after rfl isNamed shown other
      -- what is found is no later than `app` and of the namespace, so it stands before it
      obtain ⟨own, found⟩ : ∃ own, application authz id (before ++ app :: after) name = some own :=
        Option.isSome_iff_exists.1 (List.find?_isSome.2 ⟨app, by simp, by simp [isNamed, shown]⟩)
      have isOwn := List.find?_some (same ▸ found)
      simp only [Bool.and_eq_true, beq_iff_eq] at isOwn
      refine ⟨own, ?_, isOwn.1.1, isOwn.1.2, isOwn.2⟩
      rw [application, List.find?_append] at found
      cases early : before.find? fun app => app.metadata.name == name && visible authz id app with
      | some first =>
        simp only [early, Option.some_or, Option.some.injEq] at found
        exact found ▸ List.mem_of_find?_eq_some early
      | none =>
        simp only [early, Option.none_or, List.find?_cons, isNamed, shown, beq_self_eq_true,
          Bool.and_self, Option.some.injEq] at found
        exact absurd (found ▸ isOwn.1.1) other
    · intro first
      cases found : application authz id apps name with
      | none =>
        refine (List.find?_eq_none.2 fun app stored => ?_).symm
        have unseen := List.find?_eq_none.1 found app stored
        simp only [Bool.and_eq_true, not_and] at unseen ⊢
        exact fun own => unseen own.2
      | some app =>
        obtain ⟨isNamed, before, after, eq, none⟩ := List.find?_eq_some_iff_append.1 found
        simp only [Bool.and_eq_true, beq_iff_eq, Bool.not_eq_true'] at isNamed none
        have own : app.metadata.ns = ns := by
          by_contra other
          obtain ⟨own, mem, -, own', shown⟩ := first before app after eq isNamed.1 isNamed.2 other
          simpa [own', shown] using none own mem
        refine (List.find?_eq_some_iff_append.2 ⟨by simp [own, isNamed], before, after, eq, ?_⟩).symm
        intro earlier mem
        have := none earlier mem
        grind
  refine ⟨resolved, fun first => ?_⟩
  have same := resolved.2 first
  rw [podGet, same]
  exact ⟨rfl, fun log => by rw [podLog, same]⟩

end

def placed (ns node : String) : Application where
  metadata := { ns, name := "web", uid := ns }
  spec := { placement := { nodeName := node } }

-- of two visible ones, the first is served under its own namespace
theorem pods_resolve_in_namespace_iff_first :
    OwnFirst none none [placed "a" "n1", placed "b" "n2"] "a" "web" ∧
      podGet none none [placed "a" "n1", placed "b" "n2"] "a" "web" =
        .pod (syntheticPod (placed "a" "n1")) := by
  have served := pods_resolve_in_namespace_iff none none [placed "a" "n1", placed "b" "n2"] "a" "web"
  have first := served.1.1 (by decide +kernel)
  exact ⟨first, (served.2 first).1⟩

/-- Asked for the log of `web` in namespace `b`, the server streams that of `web` in `a`. -/
theorem log_of_another_namespace :
    podLog none none [placed "a" "n1", placed "b" "n2"] {} "b" "web" = .stream "n1" "a" false 0 := by
  decide +kernel

end Horchestra.Apiserver
