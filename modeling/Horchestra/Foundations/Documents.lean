import Horchestra.Foundations.Checks
import Horchestra.Foundations.Json
import Mathlib.Data.List.Sort
import Mathlib.Data.List.TakeWhile
import Mathlib.Data.String.Basic

/-!
# JSON documents as they are written

A document keeps what its text says and how it says it: the characters between the quotes of a
string beside the text they stand for, and the source of every array and object.  The members of an
object are in the order of the text, repeated names included, because readers disagree about them:

* a reader that fills a map keeps the last member of each name (`asMap`);
* a reader that fills a record takes every member in turn, and a name that differs from a field's
  only in case names the field too (`resolve`).

`marshal` writes a document out again: no name is repeated, names are in order, and every string is
escaped anew.
-/

namespace Foundations.Documents

open Foundations.Json Foundations.Text

inductive Doc where
  | null
  | bool (value : Bool)
  | num (text : String)
  | str (raw text : String)
  | arr (source : String) (items : List Doc)
  | obj (source : String) (members : List (String × Doc))

namespace Doc

/-- The text of a value, quotes included. -/
def source : Doc → String
  | null => "null"
  | bool true => "true"
  | bool false => "false"
  | num text => text
  | str raw _ => "\"" ++ raw ++ "\""
  | arr source _ => source
  | obj source _ => source

/-- The members of an object; another value has none. -/
def members : Doc → List (String × Doc)
  | obj _ members => members
  | _ => []

/-- The items of an array; another value has none. -/
def items : Doc → List Doc
  | arr _ items => items
  | _ => []

end Doc

/-! ## Reading a text -/

/-- What was read of a text when some of it is left. -/
def taken (text rest : List Char) : String := String.ofList (text.take (text.length - rest.length))

/-- A string after its opening quote, as it is written and as it reads. -/
def scanString (text : List Char) : Option (String × String × List Char) :=
  (readString [] text).map fun (read, rest) =>
    (String.ofList (text.take (text.length - rest.length - 1)), String.ofList read, rest)

mutual

/-- A document at the start of a text, and what follows it. -/
def scanValue : Nat → List Char → Option (Doc × List Char)
  | 0, _ => none
  | fuel + 1, text =>
    match skipSpace text with
    | 'n' :: 'u' :: 'l' :: 'l' :: rest => some (.null, rest)
    | 't' :: 'r' :: 'u' :: 'e' :: rest => some (.bool true, rest)
    | 'f' :: 'a' :: 'l' :: 's' :: 'e' :: rest => some (.bool false, rest)
    | '"' :: rest => (scanString rest).map fun (raw, read, rest) => (.str raw read, rest)
    | '[' :: start =>
      match skipSpace start with
      | ']' :: rest => some (.arr (taken ('[' :: start) rest) [], rest)
      | _ => (scanItems fuel start).map fun (items, rest) =>
        (.arr (taken ('[' :: start) rest) items, rest)
    | '{' :: start =>
      match skipSpace start with
      | '}' :: rest => some (.obj (taken ('{' :: start) rest) [], rest)
      | _ => (scanMembers fuel start).map fun (members, rest) =>
        (.obj (taken ('{' :: start) rest) members, rest)
    | text => (readNumber text).map fun (number, rest) => (.num (String.ofList number), rest)

def scanItems : Nat → List Char → Option (List Doc × List Char)
  | 0, _ => none
  | fuel + 1, text =>
    match scanValue fuel text with
    | none => none
    | some (item, rest) =>
      match skipSpace rest with
      | ',' :: rest => (scanItems fuel rest).map fun (items, rest) => (item :: items, rest)
      | ']' :: rest => some ([item], rest)
      | _ => none

def scanMembers : Nat → List Char → Option (List (String × Doc) × List Char)
  | 0, _ => none
  | fuel + 1, text =>
    match skipSpace text with
    | '"' :: rest =>
      match scanString rest with
      | none => none
      | some (_, name, rest) =>
        match skipSpace rest with
        | ':' :: rest =>
          match scanValue fuel rest with
          | none => none
          | some (value, rest) =>
            match skipSpace rest with
            | ',' :: rest => (scanMembers fuel rest).map fun (members, rest) =>
              ((name, value) :: members, rest)
            | '}' :: rest => some ([(name, value)], rest)
            | _ => none
        | _ => none
    | _ => none

end

/-- The first value of a text, and what follows it; every call of the reader but the outermost
follows a character that was read. -/
def scan (text : String) : Option (Doc × List Char) :=
  scanValue (2 * text.toList.length + 2) text.toList

def parse (text : String) : Option Doc :=
  match scan text with
  | some (doc, rest) => if (skipSpace rest).isEmpty then some doc else none
  | none => none

/-! ## Names -/

section

variable {α : Type}

/-- What the members of one name hold, in order. -/
def occurrences (name : String) (members : List (String × α)) : List α :=
  (members.filter fun member => member.1 == name).map (·.2)

def lastOf (name : String) (members : List (String × α)) : Option α :=
  (occurrences name members).getLast?

def lastMembers : List (String × α) → List (String × α)
  | [] => []
  | member :: rest =>
    if rest.any fun other => other.1 == member.1 then lastMembers rest
    else member :: lastMembers rest

def setMember (name : String) (value : α) (members : List (String × α)) : List (String × α) :=
  members.filter (fun member => member.1 != name) ++ [(name, value)]

theorem occurrences_cons (name : String) (member : String × α) (rest : List (String × α)) :
    occurrences name (member :: rest) =
      if member.1 = name then member.2 :: occurrences name rest else occurrences name rest := by
  by_cases same : member.1 = name <;> simp [occurrences, same]

variable {name : String} {value : α} {members : List (String × α)}

theorem mem_occurrences : value ∈ occurrences name members ↔ (name, value) ∈ members := by
  simp only [occurrences, List.mem_map, List.mem_filter, beq_iff_eq]
  constructor
  · rintro ⟨⟨_, _⟩, ⟨mem, rfl⟩, rfl⟩
    exact mem
  · exact fun mem => ⟨(name, value), ⟨mem, rfl⟩, rfl⟩

theorem occurrences_eq_nil_iff :
    occurrences name members = [] ↔ (members.any fun member => member.1 == name) = false := by
  simp [occurrences, List.filter_eq_nil_iff]

theorem occurrences_append (name : String) (first second : List (String × α)) :
    occurrences name (first ++ second) = occurrences name first ++ occurrences name second := by
  simp [occurrences]

theorem occurrences_lastMembers (name : String) (members : List (String × α)) :
    occurrences name (lastMembers members) = (lastOf name members).toList := by
  induction members with
  | nil => rfl
  | cons member rest ih =>
    rw [lastMembers, lastOf, occurrences_cons]
    rw [lastOf] at ih
    split
    next again =>
      rw [ih]
      split
      next eq =>
        subst eq
        have ne : occurrences member.1 rest ≠ [] := fun empty => by
          rw [occurrences_eq_nil_iff, again] at empty
          cases empty
        rw [List.getLast?_cons, List.getLast?_eq_some_getLast ne, Option.getD_some]
      · rfl
    rename_i once
    rw [occurrences_cons, ih]
    split
    next eq =>
      have empty : occurrences name rest = [] := by
        rw [← eq, occurrences_eq_nil_iff]
        exact Bool.eq_false_iff.2 once
      rw [empty]
      rfl
    · rfl

theorem mem_lastMembers :
    (name, value) ∈ lastMembers members ↔ lastOf name members = some value := by
  rw [← mem_occurrences, occurrences_lastMembers, Option.mem_toList]

theorem lastOf_lastMembers (name : String) (members : List (String × α)) :
    lastOf name (lastMembers members) = lastOf name members := by
  rw [lastOf, occurrences_lastMembers]
  cases lastOf name members <;> rfl

theorem lastOf_eq_none_iff :
    lastOf name members = none ↔ occurrences name members = [] := List.getLast?_eq_none_iff

theorem lastOf_append_of_some {first second : List (String × α)}
    (found : lastOf name second = some value) : lastOf name (first ++ second) = some value := by
  rw [lastOf] at found ⊢
  rw [occurrences_append, List.getLast?_append, found, Option.some_or]

theorem mem_of_lastOf (found : lastOf name members = some value) : (name, value) ∈ members :=
  mem_occurrences.1 (List.mem_of_getLast? found)

theorem exists_lastOf (mem : (name, value) ∈ members) :
    ∃ last, lastOf name members = some last := by
  cases found : lastOf name members with
  | none =>
    rw [lastOf_eq_none_iff] at found
    cases found ▸ mem_occurrences.2 mem
  | some last => exact ⟨last, rfl⟩

theorem exists_mem_lastMembers (mem : (name, value) ∈ members) :
    ∃ last, (name, last) ∈ lastMembers members :=
  (exists_lastOf mem).imp fun _ => mem_lastMembers.2

theorem nodup_lastMembers (members : List (String × α)) :
    ((lastMembers members).map (·.1)).Nodup := by
  induction members with
  | nil => exact List.nodup_nil
  | cons member rest ih =>
    rw [lastMembers]
    split
    · exact ih
    rename_i once
    refine List.nodup_cons.2 ⟨fun mem => once ?_, ih⟩
    obtain ⟨⟨name, value⟩, mem, eq⟩ := List.mem_map.1 mem
    have occurs := mem_of_lastOf (mem_lastMembers.1 mem)
    exact List.any_eq_true.2 ⟨_, occurs, by simpa using eq⟩

theorem lastMembers_of_nodup (nodup : (members.map (·.1)).Nodup) :
    lastMembers members = members := by
  induction members with
  | nil => rfl
  | cons member rest ih =>
    obtain ⟨fresh, nodup⟩ := List.nodup_cons.1 nodup
    rw [lastMembers, if_neg, ih nodup]
    intro again
    obtain ⟨other, mem, eq⟩ := List.any_eq_true.1 again
    exact fresh (List.mem_map.2 ⟨other, mem, by simpa using eq⟩)

theorem lastMembers_map {β : Type} (change : α → β) (members : List (String × α)) :
    lastMembers (members.map fun member => (member.1, change member.2)) =
      (lastMembers members).map fun member => (member.1, change member.2) := by
  induction members with
  | nil => rfl
  | cons member rest ih =>
    rw [List.map_cons, lastMembers, lastMembers, ih]
    simp only [List.any_map, Function.comp_def]
    split <;> simp

theorem occurrences_of_nodup (nodup : (members.map (·.1)).Nodup) (name : String) :
    occurrences name members = (lastOf name members).toList := by
  induction members with
  | nil => rfl
  | cons member rest ih =>
    obtain ⟨fresh, nodup⟩ := List.nodup_cons.1 nodup
    rw [lastOf, occurrences_cons]
    split
    next eq =>
      have empty : occurrences name rest = [] := by
        rw [List.eq_nil_iff_forall_not_mem]
        exact fun value mem => fresh (List.mem_map.2 ⟨_, mem_occurrences.1 mem, eq.symm⟩)
      rw [empty]
      rfl
    · exact ih nodup

end

/-- A letter without its case.  Two letters outside the alphabet fold onto letters inside it. -/
def foldChar (c : Char) : Char :=
  if c = 'ſ' then 'S' else if c = 'K' then 'K' else c.toUpper

def foldName (name : String) : String := String.ofList (name.toList.map foldChar)

/-- The field a member names: the field of that very name, or else the first whose name differs in
case alone. -/
def resolve (fields : List String) (name : String) : Option String :=
  if name ∈ fields then some name else fields.find? fun field => foldName field == foldName name

/-! ## The document a map keeps -/

namespace Doc

mutual

/-- A document with the last member of every name alone. -/
def asMap : Doc → Doc
  | null => null
  | bool value => bool value
  | num text => num text
  | str raw text => str raw text
  | arr source items => arr source (asMaps items)
  | obj source members => obj source (lastMembers (asMapMembers members))

def asMaps : List Doc → List Doc
  | [] => []
  | item :: rest => item.asMap :: asMaps rest

def asMapMembers : List (String × Doc) → List (String × Doc)
  | [] => []
  | (name, value) :: rest => (name, value.asMap) :: asMapMembers rest

end

end Doc

theorem asMaps_eq_map (items : List Doc) : Doc.asMaps items = items.map Doc.asMap := by
  induction items with
  | nil => rfl
  | cons item rest ih => rw [Doc.asMaps, ih, List.map_cons]

theorem asMapMembers_eq_map (members : List (String × Doc)) :
    Doc.asMapMembers members = members.map fun member => (member.1, member.2.asMap) := by
  induction members with
  | nil => rfl
  | cons member rest ih => rw [Doc.asMapMembers, ih, List.map_cons]

theorem occurrences_asMapMembers (name : String) (members : List (String × Doc)) :
    occurrences name (Doc.asMapMembers members) = (occurrences name members).map Doc.asMap := by
  rw [asMapMembers_eq_map]
  induction members with
  | nil => rfl
  | cons member rest ih =>
    rw [List.map_cons, occurrences_cons, occurrences_cons, ih]
    split <;> simp

theorem lastOf_asMapMembers (name : String) (members : List (String × Doc)) :
    lastOf name (Doc.asMapMembers members) = (lastOf name members).map Doc.asMap := by
  rw [lastOf, occurrences_asMapMembers, List.getLast?_map, lastOf]

mutual

theorem asMap_asMap : ∀ doc : Doc, doc.asMap.asMap = doc.asMap
  | .null => rfl
  | .bool _ => rfl
  | .num _ => rfl
  | .str _ _ => rfl
  | .arr _ items => by rw [Doc.asMap, Doc.asMap, asMaps_asMaps items]
  | .obj _ members => by
    rw [Doc.asMap, Doc.asMap, asMapMembers_eq_map (lastMembers _), lastMembers_map,
      lastMembers_of_nodup (nodup_lastMembers _), ← lastMembers_map, ← asMapMembers_eq_map,
      asMapMembers_asMapMembers members]

theorem asMaps_asMaps : ∀ items : List Doc, Doc.asMaps (Doc.asMaps items) = Doc.asMaps items
  | [] => rfl
  | item :: rest => by simp only [Doc.asMaps, asMap_asMap item, asMaps_asMaps rest]

theorem asMapMembers_asMapMembers : ∀ members : List (String × Doc),
    Doc.asMapMembers (Doc.asMapMembers members) = Doc.asMapMembers members
  | [] => rfl
  | (name, value) :: rest => by
    simp only [Doc.asMapMembers, asMap_asMap value, asMapMembers_asMapMembers rest]

end

/-! ## Writing a document out -/

def hexDigits (n : Nat) : List Char :=
  [Nat.digitChar (n / 4096 % 16), Nat.digitChar (n / 256 % 16), Nat.digitChar (n / 16 % 16),
    Nat.digitChar (n % 16)]

/-- A character inside a string that is written out. -/
def escapeChar (c : Char) : List Char :=
  if c = '"' ∨ c = '\\' then ['\\', c]
  else if c = '\x08' then ['\\', 'b']
  else if c = '\x0c' then ['\\', 'f']
  else if c = '\n' then ['\\', 'n']
  else if c = '\r' then ['\\', 'r']
  else if c = '\t' then ['\\', 't']
  else if c.toNat < 0x20 ∨ c = '<' ∨ c = '>' ∨ c = '&' ∨ c.toNat = 0x2028 ∨ c.toNat = 0x2029 then
    '\\' :: 'u' :: hexDigits c.toNat
  else [c]

def escape (text : String) : String := String.ofList (text.toList.flatMap escapeChar)

namespace Doc

mutual

/-- A document written out from the map it is held in. -/
def marshal : Doc → Doc
  | null => null
  | bool value => bool value
  | num text => num text
  | str _ text => str (escape text) text
  | arr _ items =>
    let items := marshals items
    arr ("[" ++ ",".intercalate (items.map source) ++ "]") items
  | obj _ members =>
    let members := (lastMembers (marshalMembers members)).insertionSort (fun a b => a.1 ≤ b.1)
    obj ("\x7b" ++ ",".intercalate
      (members.map fun member => "\"" ++ escape member.1 ++ "\":" ++ member.2.source) ++ "\x7d")
      members

def marshals : List Doc → List Doc
  | [] => []
  | item :: rest => item.marshal :: marshals rest

def marshalMembers : List (String × Doc) → List (String × Doc)
  | [] => []
  | (name, value) :: rest => (name, value.marshal) :: marshalMembers rest

end

end Doc

/-! ### No name is repeated in what is written -/

mutual

/-- No object of a document repeats a name. -/
def Distinct : Doc → Prop
  | .arr _ items => AllDistinct items
  | .obj _ members => (members.map (·.1)).Nodup ∧ MembersDistinct members
  | _ => True

def AllDistinct : List Doc → Prop
  | [] => True
  | item :: rest => Distinct item ∧ AllDistinct rest

def MembersDistinct : List (String × Doc) → Prop
  | [] => True
  | (_, value) :: rest => Distinct value ∧ MembersDistinct rest

end

theorem allDistinct_iff {items : List Doc} : AllDistinct items ↔ ∀ item ∈ items, Distinct item := by
  induction items with
  | nil => simp [AllDistinct]
  | cons item rest ih => simp [AllDistinct, ih]

theorem membersDistinct_iff {members : List (String × Doc)} :
    MembersDistinct members ↔ ∀ name value, (name, value) ∈ members → Distinct value := by
  induction members with
  | nil => simp [MembersDistinct]
  | cons member rest ih =>
    obtain ⟨name, value⟩ := member
    rw [MembersDistinct, ih]
    constructor
    · rintro ⟨first, others⟩ other v' mem
      rcases List.mem_cons.1 mem with eq | mem
      · cases eq
        exact first
      · exact others other v' mem
    intro all
    exact ⟨all _ _ (.head _), fun other value mem =>
      all other value (.tail _ mem)⟩

mutual

theorem distinct_marshal : ∀ doc : Doc, Distinct doc.marshal
  | .null => trivial
  | .bool _ => trivial
  | .num _ => trivial
  | .str _ _ => trivial
  | .arr _ items => by
    rw [Doc.marshal, Distinct, allDistinct_iff]
    exact distinct_marshals items
  | .obj _ members => by
    rw [Doc.marshal, Distinct, membersDistinct_iff]
    have sorted := List.perm_insertionSort (fun a b : String × Doc => a.1 ≤ b.1)
      (lastMembers (Doc.marshalMembers members))
    refine ⟨?_, fun name value mem => ?_⟩
    · exact (sorted.map _).nodup_iff.2 (nodup_lastMembers _)
    have occurs := List.mem_of_getLast? (mem_lastMembers.1 (sorted.mem_iff.1 mem))
    exact distinct_marshalMembers members name value (mem_occurrences.1 occurs)

theorem distinct_marshals : ∀ items : List Doc, ∀ item ∈ Doc.marshals items, Distinct item
  | [], _, mem => absurd mem List.not_mem_nil
  | first :: rest, item, mem => by
    rw [Doc.marshals] at mem
    rcases List.mem_cons.1 mem with rfl | mem
    · exact distinct_marshal first
    · exact distinct_marshals rest item mem

theorem distinct_marshalMembers : ∀ members : List (String × Doc), ∀ name value,
    (name, value) ∈ Doc.marshalMembers members → Distinct value
  | [], _, _, mem => absurd mem List.not_mem_nil
  | (_, first) :: rest, name, value, mem => by
    rw [Doc.marshalMembers] at mem
    rcases List.mem_cons.1 mem with eq | mem
    · cases eq
      exact distinct_marshal first
    · exact distinct_marshalMembers rest name value mem

end

/-! ## Numbers -/

/-- Whether a numeral is negative, and its digits. -/
def signed : List Char → Bool × List Char
  | '-' :: digits => (true, digits)
  | '+' :: digits => (false, digits)
  | digits => (false, digits)

/-- The integer a signed run of digits writes. -/
def signedValue (text : List Char) : Int :=
  let digits : Int := Nat.ofDigitChars 10 (signed text).2 0
  if (signed text).1 then -digits else digits

/-- A number as an integer and the power of ten it is multiplied by. -/
def numberParts (text : List Char) : Int × Int :=
  let sign := (signed text).1
  let unsigned := (signed text).2
  let whole := unsigned.takeWhile (·.isDigit)
  let afterWhole := unsigned.dropWhile (·.isDigit)
  let fraction := match afterWhole with
    | '.' :: rest => rest.takeWhile (·.isDigit)
    | _ => []
  let afterFraction := match afterWhole with
    | '.' :: rest => rest.dropWhile (·.isDigit)
    | rest => rest
  let exponent := match afterFraction with
    | _ :: rest => signedValue rest
    | [] => 0
  let mantissa : Int := Nat.ofDigitChars 10 (whole ++ fraction) 0
  (if sign then -mantissa else mantissa, exponent - fraction.length)

/-- The integer a number stands for, however it is written. -/
def integerValue (text : String) : Option Int :=
  let (mantissa, scale) := numberParts text.toList
  if 0 ≤ scale then some (mantissa * 10 ^ scale.toNat)
  else if mantissa % 10 ^ (-scale).toNat = 0 then some (mantissa / 10 ^ (-scale).toNat)
  else none

/-- A number that a double can stand for, however roughly. -/
def fitsDouble (text : String) : Bool :=
  let (mantissa, scale) := numberParts text.toList
  if 0 ≤ scale then mantissa.natAbs * 10 ^ scale.toNat < 2 ^ 1024 - 2 ^ 970
  else mantissa.natAbs < (2 ^ 1024 - 2 ^ 970) * 10 ^ (-scale).toNat

variable {text : List Char}

theorem numberParts_of_digits (numeric : ∀ c ∈ (signed text).2, c.isDigit) :
    numberParts text = (signedValue text, 0) := by
  have whole : (signed text).2.takeWhile (·.isDigit) = (signed text).2 :=
    List.takeWhile_eq_self_iff.2 numeric
  have nothing : (signed text).2.dropWhile (·.isDigit) = [] := List.dropWhile_eq_nil_iff.2 numeric
  simp [numberParts, signedValue, whole, nothing]

variable {n : Int}

theorem signedValue_of_parseInt64 (read : parseInt64 text = .ok n) :
    (∀ c ∈ (signed text).2, c.isDigit) ∧ signedValue text = n := by
  unfold parseInt64 at read
  split at read
  next ds =>
    obtain ⟨m, unsigned, bounded⟩ := Foundations.Checks.bind_eq_ok_iff.1 read
    obtain ⟨numeric, rfl⟩ := eq_ofDigitChars_of_parseUint64 unsigned
    split at bounded
    · cases bounded
      exact ⟨numeric, rfl⟩
    · cases bounded
  next ds =>
    obtain ⟨m, unsigned, bounded⟩ := Foundations.Checks.bind_eq_ok_iff.1 read
    obtain ⟨numeric, rfl⟩ := eq_ofDigitChars_of_parseUint64 unsigned
    split at bounded
    · cases bounded
      exact ⟨numeric, rfl⟩
    · cases bounded
  next notMinus notPlus =>
    obtain ⟨m, unsigned, bounded⟩ := Foundations.Checks.bind_eq_ok_iff.1 read
    obtain ⟨numeric, rfl⟩ := eq_ofDigitChars_of_parseUint64 unsigned
    have plain : signed text = (false, text) := by
      unfold signed
      split
      · exact absurd rfl (notMinus _)
      · exact absurd rfl (notPlus _)
      · rfl
    split at bounded
    · cases bounded
      exact ⟨by rwa [plain], by simp [signedValue, plain]⟩
    · cases bounded

theorem integerValue_of_parseInt64 {text : String} (read : parseInt64 text.toList = .ok n) :
    integerValue text = some n := by
  obtain ⟨numeric, value⟩ := signedValue_of_parseInt64 read
  simp [integerValue, numberParts_of_digits numeric, value]

end Foundations.Documents
