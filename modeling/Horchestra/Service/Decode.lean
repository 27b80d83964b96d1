import Horchestra.Api.Quantity
import Horchestra.Api.Schemas
import Horchestra.Foundations.Schemas

/-!
# Decoding a request body

A body is completed, decoded and judged, in that order, and the verdict of the schema comes before
the decoder's.  Completing reads the first value of the body into a map; the body is written out
again from the map if the kind has defaulters of its own or a declared default was missing, and goes
on as it arrived otherwise.

* `decoding_safe_iff`: when decoding a body returns and hands the parser of quantities nothing
  costly.
-/

namespace Horchestra.Decode

open Api Api.Schemas Api.Quantity Foundations.Schemas Foundations Documents Records

/-! ## Completing a body -/

def specSectionsWithDefaults : List String := ["lifecycle"]

def changeMember (name : String) (change : Doc → Doc) (members : Members) : Members :=
  members.map fun member => if member.1 = name then (name, change member.2) else member

/-- Adds an empty object for each such section that is absent or `null`. -/
def conjureSpecSections : Doc → Doc
  | .obj source members =>
    .obj source <| specSectionsWithDefaults.foldl (fun members name =>
      match lastOf name members with
      | none | some .null => setMember name (.obj "" []) members
      | some _ => members) members
  | doc => doc

def defaultApplication : Doc → Doc
  | .obj source members => .obj source (changeMember "spec" conjureSpecSections members)
  | doc => doc

def defaultApplicationSet : Doc → Doc
  | .obj source members =>
    .obj source <| changeMember "spec" (fun spec => match spec with
      | .obj source members =>
        .obj source <| changeMember "applications" (fun components => match components with
          | .arr source items => .arr source <| items.map fun component => match component with
              | .obj source members => .obj source (changeMember "spec" conjureSpecSections members)
              | other => other
          | other => other) members
      | other => other) members
  | doc => doc

def customDefaults : Kind → List (Doc → Doc)
  | .application => [defaultApplication]
  | .applicationSet => [defaultApplicationSet]
  | _ => []

/-- The map a body is read into, completed, and whether a declared default was missing. -/
def completed (kind : Kind) (doc : Doc) : Doc × Bool :=
  let custom := (customDefaults kind).foldl (fun doc default => default doc) doc.asMap
  match collectDefaults (kindShape kind) with
  | some node => applyDefaults node custom
  | none => (custom, false)

def readMap (body : String) : Option Doc :=
  match scan body with
  | some (.obj source members, _) => some (.obj source members)
  | some (.null, _) => some .null
  | _ => none

/-- The body is written out again. -/
def rewrites (kind : Kind) (body : String) : Bool :=
  match readMap body with
  | some doc => (completed kind doc).2 || !(customDefaults kind).isEmpty
  | none => false

/-- The document the completed body holds, if it holds one. -/
def default (kind : Kind) (body : String) : Option Doc :=
  match readMap body with
  | some doc => if rewrites kind body then some (completed kind doc).1.marshal else parse body
  | none => parse body

/-! ## Decoding it -/

variable (parsers : Parsers)

/-- What happens on the way when a text is decoded into a type. -/
def unmarshal (shape : Shape) : Option Doc → Trace
  | some doc => visit (hooks parsers) doc shape
  | none => .stopped

/-- What decoding a body comes to. -/
inductive Response where
  | panicked
  /-- The schema refuses the body. -/
  | unlawful
  /-- The schema accepts the body and the decoder does not. -/
  | undecodable
  | object (value : TypedValue)

/-- What happens on the way when a body is decoded. -/
def decodeTrace (kind : Kind) (body : String) : Trace :=
  unmarshal parsers (kindShape kind) (default kind body)

def decode (kind : Kind) (body : String) : Response :=
  let trace := decodeTrace parsers kind body
  if trace.ending = .panicked then .panicked
  else
    match default kind body with
    | none => .unlawful
    | some doc =>
      if !accepts (kindShape kind) {} doc.asMap then .unlawful
      else if trace.ending = .done true then .object (build (hooks parsers) (kindShape kind) [doc])
      else .undecodable

/-! ## Quantities -/

theorem isGuarded_quantityType (type : QuantityType) : isGuarded type.shape := by
  cases type <;> decide

theorem isGuarded_kindShape (kind : Kind) : isGuarded (kindShape kind) := by
  cases kind <;> decide +kernel

theorem accounted_unmarshal {shape : Shape} (guarded : isGuarded shape) (doc : Option Doc) :
    Accounted parsers (unmarshal parsers shape doc) := by
  cases doc with
  | none => exact Silent.accounted ⟨rfl, rfl, Ending.noConfusion⟩
  | some doc => exact guardedRule.visit doc guarded

/-- Decoding one of the types that carry quantities is one look at what the text gives. -/
theorem safe_unmarshal_iff (type : QuantityType) (doc : Doc) :
    Safe (unmarshal parsers type.shape (some doc)) ↔ Sound parsers (type.fields, doc.members) := by
  rw [show Safe _ ↔ _ from accounted_unmarshal parsers (isGuarded_quantityType type) (some doc)]
  have noMembers : Sound parsers (type.fields, []) := by
    refine ⟨fun name raw last => ?_, fun _ name v mem => absurd mem List.not_mem_nil⟩
    cases last
  cases doc with
  | obj source members =>
    have once : (unmarshal parsers type.shape (some (.obj source members))).looked =
        [(type.fields, members)] := by
      have guarded := isGuarded_quantityType type
      simp only [unmarshal, QuantityType.shape, visit, Shape.target]
      exact looked_visitChecked guarded members
    simp [once, Doc.members]
  | _ =>
    refine iff_of_true (fun look mem => ?_) noMembers
    simp [unmarshal, visit, QuantityType.shape, Shape.target, visitScalar, Trace.stopped] at mem

/-- **Decoding returns and runs no quantity bomb, where the look leaves nothing to luck.**  For a
text decoded into one of the three types that is a condition on its members; for a request body it
is the same condition on every object of these types decoding comes to. -/
theorem decoding_safe_iff :
    (∀ (type : QuantityType) (text : String),
      Safe (unmarshal parsers type.shape (parse text)) ↔
        ∀ doc, parse text = some doc → Sound parsers (type.fields, doc.members)) ∧
    ∀ (kind : Kind) (body : String),
      (decode parsers kind body ≠ .panicked ∧
        ∀ literal ∈ (decodeTrace parsers kind body).literals, Bounded literal) ↔
        ∀ look ∈ (decodeTrace parsers kind body).looked, Sound parsers look := by
  refine ⟨fun type text => ?_, fun kind body => ?_⟩
  · cases parsed : parse text with
    | none => simp [Safe, unmarshal, Trace.stopped]
    | some doc => simp [safe_unmarshal_iff]
  have returns : decode parsers kind body ≠ .panicked ↔
      (decodeTrace parsers kind body).ending ≠ .panicked := by
    unfold decode
    by_cases panicked : (decodeTrace parsers kind body).ending = .panicked
    · simp [panicked]
    simp only [panicked, if_false, ne_eq, not_false_eq_true, iff_true]
    split
    · exact Response.noConfusion
    split
    · exact Response.noConfusion
    · split <;> exact Response.noConfusion
  rw [returns]
  exact accounted_unmarshal parsers (isGuarded_kindShape kind) (default kind body)

/-- The parsers, when every text is well formed. -/
def anyParsers : Parsers := ⟨fun _ => true, fun _ => true⟩

/-- Where a size is ten gibibytes, decoding is safe and nothing is left to luck. -/
theorem decoding_safe_iff_gibibytes :
    Safe (unmarshal anyParsers QuantityType.persistentVolumeSpec.shape
        (parse "\x7b\"size\":\"10Gi\"\x7d")) ∧
      ∀ doc, parse "\x7b\"size\":\"10Gi\"\x7d" = some doc →
        Sound anyParsers (QuantityType.persistentVolumeSpec.fields, doc.members) := by
  have safe : Safe (unmarshal anyParsers QuantityType.persistentVolumeSpec.shape
      (parse "\x7b\"size\":\"10Gi\"\x7d")) := by
    have literals : (unmarshal anyParsers QuantityType.persistentVolumeSpec.shape
        (parse "\x7b\"size\":\"10Gi\"\x7d")).literals = ["10Gi"] := by decide +kernel
    refine ⟨by decide +kernel, fun literal mem => ?_⟩
    rw [literals, List.mem_singleton] at mem
    subst mem
    refine ⟨by decide +kernel, fun exponent reads => ?_⟩
    rw [show quantityExponent "10Gi".toList = none by decide +kernel] at reads
    cases reads
  exact ⟨safe, ((decoding_safe_iff anyParsers).1 .persistentVolumeSpec _).1 safe⟩

/-- **An empty string panics, and a name given twice runs a bomb.**  The look takes the first
character of a text that has none, and it reads the last of two sizes while both are decoded. -/
theorem empty_size_panics :
    decode anyParsers .persistentVolume
        "\x7b\"metadata\":\x7b\"name\":\"a\"\x7d,\"spec\":\x7b\"size\":\"\"\x7d\x7d" = .panicked ∧
      "1e-100000000" ∈ (decodeTrace anyParsers .persistentVolume
        "\x7b\"spec\":\x7b\"size\":\"1e-100000000\",\"size\":\"1\"\x7d\x7d").literals ∧
      ¬ Bounded "1e-100000000" := by
  refine ⟨?_, by decide +kernel, ?_⟩
  · have panicked : (decodeTrace anyParsers .persistentVolume
        "\x7b\"metadata\":\x7b\"name\":\"a\"\x7d,\"spec\":\x7b\"size\":\"\"\x7d\x7d").ending =
          .panicked := by
      decide +kernel
    rw [decode, if_pos panicked]
  intro bounded
  exact absurd (bounded.2 (-100000000) (by decide +kernel)) (by decide)

end Horchestra.Decode
