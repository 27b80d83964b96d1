import Horchestra.Foundations.Documents

/-!
# Decoding documents into typed records

A type is described by its shape: leaves, pointers, lists, maps and records of named fields.  A type
may have a decoder of its own.  Two kinds are modelled: a leaf whose text is handed to a parser, and
a record whose members are looked over before they are decoded.

Decoding walks the document once and in order.  `visit` says what happens on the way: which records
are looked over, which texts are handed to a parser, and how the walk ends.  A value of the wrong
type is remembered and the walk goes on; the error of a type's own decoder ends it.

`build` says what is there afterwards.  It takes all the documents that are decoded into one place,
in order, because a name that is repeated is decoded again over what is there: a leaf is replaced,
a record is filled in further, a list is filled in item by item, a map gains members, and `null`
empties what can be empty and leaves the rest as it is.
-/

namespace Foundations.Records

open Foundations Text Documents

/-! ## Shapes -/

/-- The bounds a field's tag declares. -/
structure Rules where
  enum : List String := []
  minimum : Option Int := none
  maximum : Option Int := none
  minLength : Option Nat := none
  maxLength : Option Nat := none

structure Tag where
  name : String
  optional : Bool := false
  rules : Rules := {}
  default : Option Doc := none

inductive Leaf where
  | text
  | flag
  | integer (bits : Nat)
  | bytes
  | any
  /-- A type that keeps the text it is given. -/
  | raw
  /-- A type that hands the text it is given, without quotes and blanks, to a parser. -/
  | literal
  /-- A type that hands a string it is given to a parser. -/
  | stamp
  deriving DecidableEq

/-- How a record treats what it is given: `checked` looks its members over first, and `opened` takes
members its schema does not know. -/
inductive RecordKind where
  | plain
  | checked
  | opened
  deriving DecidableEq

inductive Shape where
  | leaf (leaf : Leaf)
  | pointer (pointee : Shape)
  | slice (item : Shape)
  | map (value : Shape)
  | record (kind : RecordKind) (fields : List (Tag × Shape))

abbrev Fields := List (Tag × Shape)

abbrev Members := List (String × Doc)

def namesOf (fields : Fields) : List String := fields.map (·.1.name)

def shapeOf (fields : Fields) (name : String) : Option Shape := do
  let field ← resolve (namesOf fields) name
  (fields.find? fun entry => entry.1.name == field).map (·.2)

/-- What a pointer points to in the end. -/
def Shape.target : Shape → Shape
  | .pointer pointee => pointee.target
  | shape => shape

/-! ## Leaves -/

/-- The value of a digit of the standard alphabet. -/
def base64Value (c : Char) : Option Nat :=
  if 'A' ≤ c ∧ c ≤ 'Z' then some (c.toNat - 'A'.toNat)
  else if 'a' ≤ c ∧ c ≤ 'z' then some (c.toNat - 'a'.toNat + 26)
  else if c.isDigit then some (c.toNat - '0'.toNat + 52)
  else if c = '+' then some 62
  else if c = '/' then some 63
  else none

/-- The bytes of a padded text without line ends. -/
def base64Bytes : List Char → Option (List Nat)
  | [] => some []
  | [a, b, '=', '='] => do
    let a ← base64Value a
    let b ← base64Value b
    return [(a * 64 + b) / 16]
  | [a, b, c, '='] => do
    let a ← base64Value a
    let b ← base64Value b
    let c ← base64Value c
    let n := (a * 64 + b) * 64 + c
    return [n / 1024, n / 4 % 256]
  | a :: b :: c :: d :: rest => do
    let a ← base64Value a
    let b ← base64Value b
    let c ← base64Value c
    let d ← base64Value d
    let n := ((a * 64 + b) * 64 + c) * 64 + d
    let bytes ← base64Bytes rest
    return n / 65536 :: n / 256 % 256 :: n % 256 :: bytes
  | _ => none

def decodeBase64 (text : String) : Option (List Nat) :=
  base64Bytes (text.toList.filter fun c => c != '\n' && c != '\r')

def decodeInteger (bits : Nat) (text : String) : Option Int :=
  match parseInt64 text.toList with
  | .ok n => if -2 ^ (bits - 1) ≤ n ∧ n < 2 ^ (bits - 1) then some n else none
  | .error _ => none

/-- The byte an item of a list of numbers is decoded into. -/
def decodeByte (old : Nat) : Doc → Option Nat
  | .null => some old
  | .num text =>
    match parseUint64 text.toList with
    | .ok n => if n < 256 then some n else none
    | .error _ => none
  | _ => none

def isBlank (c : Char) : Bool :=
  c.isWhitespace || c.toNat == 0x0b || c.toNat == 0x0c || c.toNat == 0x85 || c.toNat == 0xa0 ||
    c.toNat == 0x1680 || (0x2000 ≤ c.toNat && c.toNat ≤ 0x200a) || c.toNat == 0x2028 ||
    c.toNat == 0x2029 || c.toNat == 0x202f || c.toNat == 0x205f || c.toNat == 0x3000

def trimBlanks (text : List Char) : List Char :=
  ((text.dropWhile isBlank).reverse.dropWhile isBlank).reverse

/-- The text a literal's parser is handed. -/
def literalOf : Doc → String
  | .str raw _ => String.ofList (trimBlanks raw.toList)
  | doc => String.ofList (trimBlanks doc.source.toList)

mutual

def numbersFit : Doc → Bool
  | .num text => fitsDouble text
  | .arr _ items => allNumbersFit items
  | .obj _ members => memberNumbersFit members
  | _ => true

def allNumbersFit : List Doc → Bool
  | [] => true
  | item :: rest => numbersFit item && allNumbersFit rest

def memberNumbersFit : List (String × Doc) → Bool
  | [] => true
  | (_, value) :: rest => numbersFit value && memberNumbersFit rest

end

/-! ## The walk -/

/-- How the look over the members of a record ends. -/
inductive Verdict where
  | passed
  | refused
  | panicked

/-- The decoders types have of their own. -/
structure Hooks where
  look : Members → Verdict
  parsesLiteral : String → Bool
  parsesStamp : String → Bool

inductive Ending where
  /-- The walk is over; `clean` if every value had the right type. -/
  | done (clean : Bool)
  | stopped
  | panicked
  deriving DecidableEq

structure Trace where
  /-- The records looked over, with the members they were given. -/
  looked : List (Fields × Members) := []
  /-- The texts handed to the parser of literals. -/
  literals : List String := []
  ending : Ending := .done true

namespace Trace

def mismatched : Trace := { ending := .done false }

def stopped : Trace := { ending := .stopped }

def andThen (first second : Trace) : Trace :=
  match first.ending with
  | .done clean =>
    { looked := first.looked ++ second.looked
      literals := first.literals ++ second.literals
      ending := match second.ending with
        | .done clean' => .done (clean && clean')
        | ending => ending }
  | _ => first

end Trace

variable (hooks : Hooks)

def visitLeaf : Leaf → Doc → Trace
  | _, .null => {}
  | .text, .str _ _ => {}
  | .flag, .bool _ => {}
  | .integer bits, .num text => { ending := .done (decodeInteger bits text).isSome }
  | .bytes, .str _ text => { ending := .done (decodeBase64 text).isSome }
  | .bytes, .arr _ items => { ending := .done (items.all fun item => (decodeByte 0 item).isSome) }
  | .any, doc => { ending := .done (numbersFit doc) }
  | .raw, _ => {}
  | .literal, doc =>
    { literals := [literalOf doc]
      ending := if hooks.parsesLiteral (literalOf doc) then .done true else .stopped }
  | .stamp, .str _ text => { ending := if hooks.parsesStamp text then .done true else .stopped }
  | .stamp, _ => .stopped
  | _, _ => .mismatched

/-- A record that looks its members over has a decoder of its own, so nothing that goes wrong inside
it is only remembered. -/
def visitChecked (fields : Fields) (members : Members) (inner : Trace) : Trace :=
  match hooks.look members with
  | .passed =>
    { looked := (fields, members) :: inner.looked
      literals := inner.literals
      ending := match inner.ending with
        | .done true => .done true
        | .done false => .stopped
        | ending => ending }
  | .refused => { looked := [(fields, members)], ending := .stopped }
  | .panicked => { looked := [(fields, members)], ending := .panicked }

/-- A value that is no list and no object, at a type that is no leaf. -/
def visitScalar (doc : Doc) : Shape → Trace
  | .leaf leaf => visitLeaf hooks leaf doc
  | .record .checked _ => match doc with
      | .null => {}
      | _ => .stopped
  | _ => match doc with
      | .null => {}
      | _ => .mismatched

mutual

def visit : Doc → Shape → Trace
  | .arr source items, shape =>
    match shape.target with
    | .slice item => visitItems items item
    | target => visitScalar hooks (.arr source items) target
  | .obj source members, shape =>
    match shape.target with
    | .record .checked fields =>
      visitChecked hooks fields members (visitMembers members (shapeOf fields))
    | .record _ fields => visitMembers members (shapeOf fields)
    | .map value => visitMembers members fun _ => some value
    | target => visitScalar hooks (.obj source members) target
  | .null, shape => visitScalar hooks .null shape.target
  | .bool value, shape => visitScalar hooks (.bool value) shape.target
  | .num text, shape => visitScalar hooks (.num text) shape.target
  | .str raw text, shape => visitScalar hooks (.str raw text) shape.target

def visitItems : List Doc → Shape → Trace
  | [], _ => {}
  | item :: rest, shape => (visit item shape).andThen (visitItems rest shape)

/-- A member that names no field is skipped. -/
def visitMembers : List (String × Doc) → (String → Option Shape) → Trace
  | [], _ => {}
  | (name, value) :: rest, shapes =>
    match shapes name with
    | some shape => (visit value shape).andThen (visitMembers rest shapes)
    | none => visitMembers rest shapes

end

/-! ### How walks compose -/

namespace Trace

/-- The walk is not cut short. -/
def GoesOn (trace : Trace) : Prop := ∃ clean, trace.ending = .done clean

variable {first second : Trace}

theorem andThen_of_cut (cut : ¬ first.GoesOn) : first.andThen second = first := by
  unfold andThen
  split
  next clean ending => exact absurd ⟨clean, ending⟩ cut
  · rfl

theorem mem_looked_andThen {look : Fields × Members} :
    look ∈ (first.andThen second).looked ↔
      look ∈ first.looked ∨ (first.GoesOn ∧ look ∈ second.looked) := by
  by_cases goesOn : first.GoesOn
  · obtain ⟨clean, ending⟩ := goesOn
    simp [andThen, ending, GoesOn]
  · simp [andThen_of_cut goesOn, goesOn]

theorem mem_literals_andThen {literal : String} :
    literal ∈ (first.andThen second).literals ↔
      literal ∈ first.literals ∨ (first.GoesOn ∧ literal ∈ second.literals) := by
  by_cases goesOn : first.GoesOn
  · obtain ⟨clean, ending⟩ := goesOn
    simp [andThen, ending, GoesOn]
  · simp [andThen_of_cut goesOn, goesOn]

theorem panicked_andThen : (first.andThen second).ending = .panicked ↔
    first.ending = .panicked ∨ (first.GoesOn ∧ second.ending = .panicked) := by
  by_cases goesOn : first.GoesOn
  · obtain ⟨clean, ending⟩ := goesOn
    cases other : second.ending <;> simp [andThen, ending, other, GoesOn]
  · simp [andThen_of_cut goesOn, goesOn]

theorem clean_andThen : (first.andThen second).ending = .done true ↔
    first.ending = .done true ∧ second.ending = .done true := by
  cases ending : first.ending with
  | done clean => cases other : second.ending <;> simp [andThen, ending, other]
  | stopped | panicked => simp [andThen, ending]

end Trace

variable {hooks}

variable {shape : Shape}

theorem visit_of_leaf {leaf : Leaf} (target : shape.target = .leaf leaf) (doc : Doc) :
    visit hooks doc shape = visitLeaf hooks leaf doc := by
  cases doc <;> simp [visit, target, visitScalar]

variable {fields : Fields} {name : String}

theorem mem_of_shapeOf (found : shapeOf fields name = some shape) :
    ∃ tag, (tag, shape) ∈ fields := by
  obtain ⟨f, _, e⟩ := Option.bind_eq_some_iff.1 found
  obtain ⟨⟨tag, shape⟩, first, rfl⟩ := Option.map_eq_some_iff.1 e
  exact ⟨tag, List.mem_of_find?_eq_some first⟩

theorem visit_pointer (doc : Doc) (pointee : Shape) :
    visit hooks doc (.pointer pointee) = visit hooks doc pointee := by
  cases doc <;> simp only [visit, Shape.target]

theorem clean_visitItems {items : List Doc} :
    (visitItems hooks items shape).ending = .done true ↔
      ∀ item ∈ items, (visit hooks item shape).ending = .done true := by
  induction items with
  | nil => simp [visitItems]
  | cons item rest ih => rw [visitItems, Trace.clean_andThen, ih, List.forall_mem_cons]

variable {members : Members} {value : Doc}

theorem clean_visitMembers {shapes : String → Option Shape}
    (clean : (visitMembers hooks members shapes).ending = .done true)
    (mem : (name, value) ∈ members) (found : shapes name = some shape) :
    (visit hooks value shape).ending = .done true := by
  induction members with
  | nil => cases mem
  | cons member rest ih =>
    obtain ⟨first, held⟩ := member
    rw [visitMembers] at clean
    rcases List.mem_cons.1 mem with eq | mem
    · cases eq
      rw [found] at clean
      exact (Trace.clean_andThen.1 clean).1
    split at clean
    · exact ih (Trace.clean_andThen.1 clean).2 mem
    · exact ih clean mem

theorem clean_visit_record {src : String} {kind : RecordKind}
    (clean : (visit hooks (.obj src members) (.record kind fields)).ending = .done true)
    (mem : (name, value) ∈ members) (found : shapeOf fields name = some shape) :
    (visit hooks value shape).ending = .done true := by
  suffices inner : (visitMembers hooks members (shapeOf fields)).ending = .done true from
    clean_visitMembers inner mem found
  rw [visit] at clean
  cases kind with
  | checked =>
    simp only [Shape.target, visitChecked] at clean
    split at clean
    · dsimp only at clean
      split at clean
      · assumption
      · cases clean
      · exact clean
    · cases clean
    · cases clean
  | _ => exact clean

theorem shapeOf_of_mem (nodup : (namesOf fields).Nodup) {tag : Tag} (mem : (tag, shape) ∈ fields) :
    shapeOf fields tag.name = some shape := by
  have named : tag.name ∈ namesOf fields := List.mem_map.2 ⟨_, mem, rfl⟩
  simp only [shapeOf, resolve, named, if_true, Option.bind_eq_bind, Option.bind_some]
  induction fields with
  | nil => cases mem
  | cons f rest ih =>
    obtain ⟨fresh, nodup⟩ := List.nodup_cons.1 nodup
    rcases List.mem_cons.1 mem with eq | mem
    · subst eq
      simp
    have other : tag.name ∈ namesOf rest := List.mem_map.2 ⟨_, mem, rfl⟩
    have ne : f.1.name ≠ tag.name := by
      intro eq
      rw [← eq] at other
      exact fresh other
    rw [List.find?_cons_of_neg (by simpa using ne)]
    exact ih nodup mem other

/-- What makes a property hold of every walk at a good shape: the parts of a good shape are good,
the property is that of the short walks, and it survives composition. -/
structure WalkRule (hooks : Hooks) (property : Trace → Prop) (good : Shape → Prop) : Prop where
  target : ∀ {shape}, good shape → good shape.target
  item : ∀ {shape}, good (.slice shape) → good shape
  value : ∀ {shape}, good (.map shape) → good shape
  field : ∀ {kind fields tag shape}, good (.record kind fields) → kind ≠ .checked →
    (tag, shape) ∈ fields → good shape
  empty : property {}
  andThen : ∀ {first second}, property first → property second → property (first.andThen second)
  scalar : ∀ {shape}, good shape → ∀ doc, property (visitScalar hooks doc shape)
  checked : ∀ {fields}, good (.record .checked fields) → ∀ members,
    property (visitChecked hooks fields members (visitMembers hooks members (shapeOf fields)))

namespace WalkRule

variable {property : Trace → Prop} {good : Shape → Prop}

mutual

/-- **The induction rule of walks.** -/
theorem visit (rule : WalkRule hooks property good) : ∀ (doc : Doc) {shape : Shape}, good shape →
    property (Records.visit hooks doc shape)
  | .null, _, goodShape => by
    rw [Records.visit]
    exact rule.scalar (rule.target goodShape) _
  | .bool _, _, goodShape => by
    rw [Records.visit]
    exact rule.scalar (rule.target goodShape) _
  | .num _, _, goodShape => by
    rw [Records.visit]
    exact rule.scalar (rule.target goodShape) _
  | .str _ _, _, goodShape => by
    rw [Records.visit]
    exact rule.scalar (rule.target goodShape) _
  | .arr _ items, _, goodShape => by
    have goodTarget := rule.target goodShape
    rw [Records.visit]
    split
    next item target =>
      rw [target] at goodTarget
      exact visitItems rule items (rule.item goodTarget)
    · exact rule.scalar goodTarget _
  | .obj _ members, _, goodShape => by
    have goodTarget := rule.target goodShape
    rw [Records.visit]
    split
    next fields target =>
      rw [target] at goodTarget
      exact rule.checked goodTarget members
    next kind fields unchecked target =>
      rw [target] at goodTarget
      refine visitMembers rule members fun name shape found => ?_
      obtain ⟨tag, mem⟩ := mem_of_shapeOf found
      exact rule.field goodTarget unchecked mem
    next value target =>
      rw [target] at goodTarget
      refine visitMembers rule members fun name shape found => ?_
      cases found
      exact rule.value goodTarget
    · exact rule.scalar goodTarget _

theorem visitItems (rule : WalkRule hooks property good) : ∀ (items : List Doc) {shape : Shape},
    good shape → property (Records.visitItems hooks items shape)
  | [], _, _ => by
    rw [Records.visitItems]
    exact rule.empty
  | item :: rest, _, goodShape => by
    rw [Records.visitItems]
    exact rule.andThen (visit rule item goodShape) (visitItems rule rest goodShape)

theorem visitMembers (rule : WalkRule hooks property good) : ∀ (members : List (String × Doc))
    {shapes : String → Option Shape}, (∀ name shape, shapes name = some shape → good shape) →
    property (Records.visitMembers hooks members shapes)
  | [], _, _ => by
    rw [Records.visitMembers]
    exact rule.empty
  | (name, value) :: rest, _, goodShapes => by
    rw [Records.visitMembers]
    split
    next shape found =>
      exact rule.andThen (visit rule value (goodShapes name shape found))
        (visitMembers rule rest goodShapes)
    · exact visitMembers rule rest goodShapes

end

end WalkRule

variable (hooks)

/-! ## What is there afterwards -/

inductive LeafValue where
  | text (value : String)
  | flag (value : Bool)
  | integer (value : Int)
  | bytes (value : List Nat)
  | any (value : Doc)
  | raw (source : String)
  | literal (value : Option String)
  | stamp (value : Option String)

inductive TypedValue where
  | leaf (value : LeafValue)
  | pointer (pointee : Option TypedValue)
  | slice (items : List TypedValue)
  | map (entries : List (String × TypedValue))
  | record (values : List TypedValue)

def Leaf.zero : Leaf → LeafValue
  | .text => .text ""
  | .flag => .flag false
  | .integer _ => .integer 0
  | .bytes => .bytes []
  | .any => .any .null
  | .raw => .raw ""
  | .literal => .literal none
  | .stamp => .stamp none

/-- A leaf after one more document is decoded into it; a document that does not fit leaves it. -/
def leafStep : Leaf → LeafValue → Doc → LeafValue
  | .text, _, .str _ text => .text text
  | .flag, _, .bool value => .flag value
  | .integer bits, old, .num text => ((decodeInteger bits text).map .integer).getD old
  | .bytes, _, .null => .bytes []
  | .bytes, old, .str _ text => ((decodeBase64 text).map .bytes).getD old
  | .bytes, .bytes old, .arr _ items =>
    .bytes (items.mapIdx fun i item => (decodeByte (old.getD i 0) item).getD (old.getD i 0))
  | .any, _, doc => .any doc.asMap
  | .raw, old, .null => old
  | .raw, _, doc => .raw doc.source
  | .literal, _, .null => .literal none
  | .literal, old, doc => if hooks.parsesLiteral (literalOf doc) then .literal (literalOf doc) else old
  | .stamp, _, .null => .stamp none
  | .stamp, old, .str _ text => if hooks.parsesStamp text then .stamp text else old
  | _, old, _ => old

/-- The documents after the last `null`. -/
def sinceNull (docs : List Doc) : List Doc :=
  docs.foldl (fun kept doc => match doc with
    | .null => []
    | doc => kept ++ [doc]) []

/-- The lists after the last `null` or empty list.  A list that gets shorter keeps the items it no
longer shows, and they are there when it grows again. -/
def sinceEmpty (docs : List Doc) : List (List Doc) :=
  docs.foldl (fun kept doc => match doc with
    | .null => []
    | .arr _ [] => []
    | .arr _ items => kept ++ [items]
    | _ => kept) []

/-- What the members that name a field hold, in order. -/
def named (names : List String) (field : String) (members : Members) : List Doc :=
  members.filterMap fun member => if resolve names member.1 = some field then some member.2 else none

/-- The names of a map's members, each once and in order. -/
def keysOf (members : Members) : List String := (members.map (·.1)).dedup.insertionSort (· ≤ ·)

mutual

/-- The value of a shape after documents are decoded into it one after the other. -/
def build : Shape → List Doc → TypedValue
  | .leaf leaf, docs => .leaf (docs.foldl (leafStep hooks leaf) leaf.zero)
  | .pointer pointee, docs =>
    .pointer (if sinceNull docs = [] then none else some (build pointee (sinceNull docs)))
  | .slice item, docs =>
    let lists := sinceEmpty docs
    .slice ((List.range (lists.getLastD []).length).map fun i =>
      build item (lists.filterMap (·[i]?)))
  | .map value, docs =>
    let members := (sinceNull docs).flatMap Doc.members
    .map ((keysOf members).map fun name => (name, build value (lastOf name members).toList))
  | .record _ fields, docs =>
    .record (buildFields (namesOf fields) fields (docs.flatMap Doc.members))

def buildFields (names : List String) : List (Tag × Shape) → Members → List TypedValue
  | [], _ => []
  | (tag, shape) :: rest, members =>
    build shape (named names tag.name members) :: buildFields names rest members

end

end Foundations.Records
