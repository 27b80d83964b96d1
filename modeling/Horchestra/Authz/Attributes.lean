import Horchestra.Admission.Chain
import Horchestra.Foundations.Paths

/-!
# Authorization attributes

What the authorizer decides on, and how it is read off a request: the path is split into
segments, the first four name a resource of a group, an optional pair in front of the
resource names a namespace, and the verb follows from the method, the `watch` parameter
and whether an object is named.
-/

namespace Horchestra.Authz

open Api Admission Foundations.Paths

/-- The part of a request the server's two readers of a path look at.  `rawPath` is set
exactly when the path was sent in an encoding that is not its own canonical one. -/
structure Request where
  method : String
  path : String
  rawPath : String := ""
  query : List (String × String) := []

def Request.queryGet (r : Request) (key : String) : String := (r.query.lookup key).getD ""

def Request.watches (r : Request) : Bool := r.queryGet "watch" == "true"

/-- What a decision is made on. -/
structure Attributes where
  user : Option Identity := none
  verb : String := ""
  group : String := ""
  resource : String := ""
  ns : String := ""
  name : String := ""
  subresource : String := ""
  resourceRequest : Bool := false
  path : String := ""

/-- What a rule names: the resource, or the subresource of it. -/
def Attributes.target (a : Attributes) : String :=
  if a.subresource = "" then a.resource else a.resource ++ "/" ++ a.subresource

def requestVerb (r : Request) (name : String) : String :=
  if r.method = "POST" then "create"
  else if r.method = "PUT" ∨ r.method = "PATCH" then "update"
  else if r.method = "DELETE" then "delete"
  else if r.watches then "watch"
  else if name = "" then "list"
  else "get"

/-- Attributes of the segments after `/apis/{group}/{version}`. -/
def resourceAttributes (r : Request) (user : Option Identity) (group : String)
    (rest : List String) : Attributes :=
  let (ns, rest) :=
    match rest with
    | "namespaces" :: ns :: resource :: more => (ns, resource :: more)
    | _ => ("", rest)
  let name := (rest[1]?).getD ""
  { user := user, path := r.path, resourceRequest := true, group := group, ns := ns
    resource := (rest[0]?).getD "", name := name, subresource := (rest[2]?).getD ""
    verb := requestVerb r name }

def attributesFromRequest (r : Request) (user : Option Identity) : Attributes :=
  match trimmedParts r.path with
  | "apis" :: group :: _ :: resource :: more => resourceAttributes r user group (resource :: more)
  | _ => { user := user, path := r.path, verb := r.method.toLower }

end Horchestra.Authz
