import Horchestra.Foundations.Records
import Mathlib.Tactic.Ring

/-!
# The guard in front of quantities

A quantity's parser takes time and memory that grow with the decimal exponent it reads, so the three
types that carry quantities look over the text of their members before they decode them: a literal
that is too long or whose exponent is out of bounds is refused.

The look and the decoding read different things.  The look reads a map, which keeps the last member
of every name, and reads each value as the text it stands for; the decoding takes every member, and
hands the parser the characters between the quotes without the blanks around them.  The look also
takes the first character of a text without asking whether there is one.
-/

namespace Horchestra.Api.Quantity

open Foundations Text Documents Records

/-! ## The look -/

def maxQuantityLen : Nat := 32

def maxQuantityExponent : Int := 30

/-- How a function of the host language ends. -/
inductive Outcome where
  | ok
  | error (message : String)
  | panics
  deriving DecidableEq

/-- Bounds a text quoted in a message.  A character cut by the bound is left out, where the code
keeps its first bytes. -/
def clip (s : String) : String :=
  if s.utf8ByteSize ≤ maxQuantityLen then s
  else
    let fits := fun n => (String.ofList (s.toList.take n)).utf8ByteSize ≤ maxQuantityLen
    String.ofList (s.toList.take (Nat.findGreatest (fits ·) maxQuantityLen)) ++ "…"

/-- Whether a text begins the way a quantity does; the empty text has no first character to ask. -/
def startsNumeric : List Char → Option Bool
  | [] => none
  | c :: rest =>
    let numeric := fun (c : Char) => c == '.' || c.isDigit
    some <|
      if c = '+' ∨ c = '-' then
        match rest with
        | [] => false
        | c :: _ => numeric c
      else numeric c

/-- What the digits of an exponent say.  More than two of them are just past the bound. -/
def exponentOf (digits : List Char) : Int :=
  let trimmed := digits.dropWhile (· == '0')
  if trimmed = [] then 0
  else if trimmed.length > 2 then maxQuantityExponent + 1
  else Nat.ofDigitChars 10 trimmed 0

def decimalExponent (s : List Char) : Option Int :=
  match s.dropWhile fun c => c != 'e' && c != 'E' with
  | [] => none
  | _ :: after =>
    let digits := (signed after).2
    if digits = [] ∨ digits.dropWhile (·.isDigit) ≠ [] then none
    else some (if (signed after).1 then -exponentOf digits else exponentOf digits)

/-- The text the look reads: a string as it reads, anything else as it is written. -/
def textOf : Doc → String
  | .str _ text => text
  | doc => doc.source

def checkNumericLiteral (value : Doc) : Outcome :=
  if value.source = "" then .ok
  else
    let s := textOf value
    match startsNumeric s.toList with
    | none => .panics
    | some false => .ok
    | some true =>
      if s.utf8ByteSize > maxQuantityLen then
        .error ("quantity " ++ quote (clip s) ++ " is longer than 32 characters")
      else
        match decimalExponent s.toList with
        | none => .ok
        | some exponent =>
          if exponent > maxQuantityExponent ∨ exponent < -maxQuantityExponent then
            .error ("quantity " ++ quote s ++ ": decimal exponent outside ±30")
          else .ok

/-- Looks over the members of a map in the order they come in, which the host language leaves
open. -/
def checkQuantityLiterals : Members → Outcome
  | [] => .ok
  | (name, value) :: rest =>
    match checkNumericLiteral value with
    | .ok => checkQuantityLiterals rest
    | .error message => .error (clip name ++ ": " ++ message)
    | .panics => .panics

/-- How the look over an object can end: in a panic if some order of its members leads to one. -/
def lookOver (members : Members) : Verdict :=
  if ∃ member ∈ lastMembers members, checkNumericLiteral member.2 = .panics then .panicked
  else if ∀ member ∈ lastMembers members, checkNumericLiteral member.2 = .ok then .passed
  else .refused

theorem checkQuantityLiterals_eq_ok_iff (order : Members) :
    checkQuantityLiterals order = .ok ↔ ∀ mem ∈ order, checkNumericLiteral mem.2 = .ok := by
  induction order with
  | nil => simp [checkQuantityLiterals]
  | cons mem rest ih =>
    obtain ⟨name, value⟩ := mem
    rw [checkQuantityLiterals]
    split <;> simp_all

/-- A look that passes does so in every order of the map. -/
theorem lookOver_passed_iff (ms : Members) :
    lookOver ms = .passed ↔
      ∀ order, order.Perm (lastMembers ms) → checkQuantityLiterals order = .ok := by
  have all : lookOver ms = .passed ↔
      ∀ member ∈ lastMembers ms, checkNumericLiteral member.2 = .ok := by
    constructor
    · intro passed
      by_contra some
      rw [lookOver] at passed
      split at passed
      · cases passed
      · cases passed
    intro ok
    rw [lookOver, if_neg, if_pos ok]
    rintro ⟨member, mem, crash⟩
    rw [ok member mem] at crash
    cases crash
  rw [all]
  constructor
  · intro ok order permuted
    rw [checkQuantityLiterals_eq_ok_iff]
    exact fun member mem => ok member (permuted.mem_iff.1 mem)
  intro ok
  exact (checkQuantityLiterals_eq_ok_iff _).1 (ok _ (List.Perm.refl _))

/-! ## What the parser reads -/

/-- What the parser of quantities leaves for the suffix: it takes a sign, digits, a point and
digits, of which any may be missing. -/
def suffixOf (literal : List Char) : List Char :=
  match (signed literal).2.dropWhile (·.isDigit) with
  | '.' :: rest => rest.dropWhile (·.isDigit)
  | rest => rest

/-- The decimal exponent the parser reads: a suffix that is a letter and a signed run of digits. -/
def quantityExponent (literal : List Char) : Option Int :=
  match suffixOf literal with
  | [] => none
  | c :: exponent =>
    if (c = 'e' ∨ c = 'E') ∧ (signed exponent).2 ≠ [] ∧ (signed exponent).2.all (·.isDigit) then
      some (signedValue exponent)
    else none

/-- A literal the parser reads at little cost. -/
def Bounded (literal : String) : Prop :=
  literal.length ≤ maxQuantityLen ∧
    ∀ exponent, quantityExponent literal.toList = some exponent →
      -maxQuantityExponent ≤ exponent ∧ exponent ≤ maxQuantityExponent

/-- Neither of the letters an exponent follows. -/
def NoMark (text : List Char) : Prop := ∀ c ∈ text, (c != 'e' && c != 'E') = true

theorem noMark_takeWhile_isDigit (text : List Char) : NoMark (text.takeWhile (·.isDigit)) := by
  intro c mem
  have digit := List.mem_takeWhile_imp mem
  have notLower : c ≠ 'e' := by rintro rfl; cases digit
  have notUpper : c ≠ 'E' := by rintro rfl; cases digit
  simp [notLower, notUpper]

theorem NoMark.append {a b : List Char} (left : NoMark a) (right : NoMark b) : NoMark (a ++ b) :=
  fun c mem => (List.mem_append.1 mem).elim (left c) (right c)

theorem exists_signed (text : List Char) :
    ∃ sign, text = sign ++ (signed text).2 ∧ NoMark sign := by
  unfold signed
  split
  · exact ⟨['-'], rfl, by simp [NoMark]⟩
  · exact ⟨['+'], rfl, by simp [NoMark]⟩
  · exact ⟨[], rfl, by simp [NoMark]⟩

/-- What stands before the suffix has no letter of an exponent in it. -/
theorem exists_suffixOf (literal : List Char) :
    ∃ before, literal = before ++ suffixOf literal ∧ NoMark before := by
  obtain ⟨sign, signText, signNoMark⟩ := exists_signed literal
  have whole := List.takeWhile_append_dropWhile (p := (·.isDigit)) (l := (signed literal).2)
  have wholeNoMark := signNoMark.append (noMark_takeWhile_isDigit (signed literal).2)
  rw [suffixOf]
  split
  next rest point =>
    refine ⟨sign ++ (signed literal).2.takeWhile (·.isDigit) ++ '.' :: rest.takeWhile (·.isDigit),
      ?_, ?_⟩
    · rw [List.append_assoc, List.append_assoc, List.cons_append,
        List.takeWhile_append_dropWhile, ← point, whole]
      exact signText
    refine wholeNoMark.append fun c mem => ?_
    rcases List.mem_cons.1 mem with rfl | mem
    · decide
    · exact noMark_takeWhile_isDigit rest c mem
  refine ⟨sign ++ (signed literal).2.takeWhile (·.isDigit), ?_, wholeNoMark⟩
  rw [List.append_assoc, whole]
  exact signText

variable {literal : List Char} {exponent : Int}

theorem eq_append_of_quantityExponent (reads : quantityExponent literal = some exponent) :
    ∃ pre c after, literal = pre ++ c :: after ∧ NoMark pre ∧ (c = 'e' ∨ c = 'E') ∧
      (signed after).2 ≠ [] ∧ (∀ d ∈ (signed after).2, d.isDigit) ∧
        exponent = signedValue after := by
  obtain ⟨pre, text, noMark⟩ := exists_suffixOf literal
  rw [quantityExponent] at reads
  split at reads
  · cases reads
  rename_i c after suffix
  split at reads
  next marked =>
    exact ⟨pre, c, after, suffix ▸ text, noMark, marked.1, marked.2.1,
      List.all_eq_true.mp marked.2.2,
      (Option.some.inj reads).symm⟩
  · cases reads

theorem ofDigitChars_dropWhile_zero (digits : List Char) :
    Nat.ofDigitChars 10 (digits.dropWhile (· == '0')) 0 = Nat.ofDigitChars 10 digits 0 := by
  induction digits with
  | nil => rfl
  | cons c rest ih =>
    by_cases zero : c = '0'
    · subst zero
      rw [List.dropWhile_cons_of_pos (by decide), ih, Nat.ofDigitChars_cons]
      rfl
    · rw [List.dropWhile_cons_of_neg (by simpa using zero)]

theorem exponentOf_nonneg (digits : List Char) : 0 ≤ exponentOf digits := by
  rw [exponentOf]
  split
  · rfl
  split
  · decide
  · omega

theorem ofDigitChars_le_of_exponentOf {ds : List Char}
    (bounded : exponentOf ds ≤ maxQuantityExponent) :
    (Nat.ofDigitChars 10 ds 0 : Int) ≤ maxQuantityExponent := by
  rw [exponentOf] at bounded
  split at bounded
  next zero =>
    rw [← ofDigitChars_dropWhile_zero, zero]
    decide
  split at bounded
  · cases bounded
  · rwa [ofDigitChars_dropWhile_zero] at bounded

/-- The look's reading of an exponent is within the bounds only if the parser's is. -/
theorem exponent_bounded {literal : List Char} {exponent : Int}
    (reads : quantityExponent literal = some exponent)
    (bounded : ∀ e, decimalExponent literal = some e →
      ¬ (e > maxQuantityExponent ∨ e < -maxQuantityExponent)) :
    -maxQuantityExponent ≤ exponent ∧ exponent ≤ maxQuantityExponent := by
  obtain ⟨pre, c, after, text, noMark, mark, ne, numeric, rfl⟩ :=
    eq_append_of_quantityExponent reads
  have found : literal.dropWhile (fun c => c != 'e' && c != 'E') = c :: after := by
    rw [text, List.dropWhile_append_of_pos noMark, List.dropWhile_cons_of_neg]
    rcases mark with rfl | rfl <;> decide
  have allDigits : (signed after).2.dropWhile (·.isDigit) = [] :=
    List.dropWhile_eq_nil_iff.2 numeric
  simp only [decimalExponent, found, ne, allDigits, ne_eq, not_true_eq_false, or_self,
    if_false, Option.some.injEq, forall_eq'] at bounded
  have small : exponentOf (signed after).2 ≤ maxQuantityExponent := by
    have nonneg := exponentOf_nonneg (signed after).2
    split at bounded <;> omega
  have value := ofDigitChars_le_of_exponentOf small
  rw [signedValue]
  simp only [maxQuantityExponent] at value ⊢
  split <;> omega

theorem length_le_utf8Len (text : List Char) : text.length ≤ String.utf8Len text := by
  induction text with
  | nil => exact Nat.zero_le _
  | cons c rest ih =>
    have pos := c.utf8Size_pos
    simp only [List.length_cons, String.utf8Len]
    omega

theorem length_le_utf8ByteSize (s : String) : s.length ≤ s.utf8ByteSize := by
  have bytes := String.utf8ByteSize_ofList s.toList
  rw [String.ofList_toList] at bytes
  rw [bytes, ← String.length_toList]
  exact length_le_utf8Len _

variable {value : Doc}

/-- A text that starts like a number and that the look lets through is read at little cost. -/
theorem bounded_of_checkNumericLiteral (passed : checkNumericLiteral value = .ok)
    (numeric : startsNumeric (textOf value).toList = some true) : Bounded (textOf value) := by
  have wrote : value.source ≠ "" := by
    intro empty
    cases value with
    | str raw text => simp [Doc.source] at empty
    | _ => simp only [textOf, empty] at numeric; cases numeric
  rw [checkNumericLiteral, if_neg wrote] at passed
  simp only [numeric] at passed
  split at passed
  · cases passed
  rename_i short
  refine ⟨(length_le_utf8ByteSize _).trans (by omega), fun exponent reads => ?_⟩
  refine exponent_bounded reads fun e found => ?_
  simp only [found] at passed
  split at passed
  · cases passed
  · assumption

/-! ## The walk over a body -/

mutual

/-- Nothing of the shape is handed to the parser or looked over. -/
def isQuiet : Shape → Bool
  | .leaf leaf => leaf != .literal
  | .pointer pointee => isQuiet pointee
  | .slice item => isQuiet item
  | .map value => isQuiet value
  | .record kind fields => kind != .checked && areQuiet fields

def areQuiet : List (Tag × Shape) → Bool
  | [] => true
  | (_, shape) :: rest => isQuiet shape && areQuiet rest

end

def isQuantity (shape : Shape) : Bool :=
  match shape.target with
  | .leaf .literal => true
  | _ => false

mutual

/-- Quantities are fields of records that look their members over, and of no others. -/
def isGuarded : Shape → Bool
  | .leaf leaf => leaf != .literal
  | .pointer pointee => isGuarded pointee
  | .slice item => isGuarded item
  | .map value => isGuarded value
  | .record .checked fields => fields.all fun field => isQuantity field.2 || isQuiet field.2
  | .record _ fields => areGuarded fields

def areGuarded : List (Tag × Shape) → Bool
  | [] => true
  | (_, shape) :: rest => isGuarded shape && areGuarded rest

end

/-- The parsers of the quantity and time types. -/
structure Parsers where
  parsesQuantity : String → Bool
  parsesTime : String → Bool

def hooks (parsers : Parsers) : Hooks where
  look := lookOver
  parsesLiteral := parsers.parsesQuantity
  parsesStamp := parsers.parsesTime

/-- Decoding returns, and every literal handed to the parser is read at little cost. -/
def Safe (trace : Trace) : Prop :=
  trace.ending ≠ .panicked ∧ ∀ literal ∈ trace.literals, Bounded literal

variable (parsers : Parsers)

/-- The members decoding comes to: all of them, or those up to one whose own decoder fails. -/
def reached (fields : Fields) : Members → Members
  | [] => []
  | (name, value) :: rest =>
    match shapeOf fields name with
    | none => (name, value) :: reached fields rest
    | some shape =>
      match (visit (hooks parsers) value shape).ending with
      | .done _ => (name, value) :: reached fields rest
      | _ => [(name, value)]

/-- The text a member hands to the parser of quantities. -/
def handed (fields : Fields) (member : String × Doc) : Option String :=
  match shapeOf fields member.1, member.2 with
  | _, .null => none
  | some shape, value => if isQuantity shape then some (literalOf value) else none
  | none, _ => none

/-- The look passed a member over: it is not the last of its name, it does not start like a number,
or the text it reads is not the text the parser is handed. -/
def Overlooked (members : Members) (name : String) (value : Doc) : Prop :=
  lastOf name members ≠ some value ∨ startsNumeric (textOf value).toList ≠ some true ∨
    literalOf value ≠ textOf value

/-- **What the look leaves to luck.**  No member it reads is the empty string, and a quantity that
it passed over is read at little cost. -/
def Sound (look : Fields × Members) : Prop :=
  (∀ name raw, lastOf name look.2 ≠ some (.str raw "")) ∧
    (lookOver look.2 = .passed → ∀ name value, (name, value) ∈ reached parsers look.1 look.2 →
      ∀ literal, handed look.1 (name, value) = some literal →
        Overlooked look.2 name value → Bounded literal)

variable {parsers}

theorem checkNumericLiteral_panics_iff :
    checkNumericLiteral value = .panics ↔ ∃ raw, value = .str raw "" := by
  constructor
  · intro panics
    rw [checkNumericLiteral] at panics
    split at panics
    · cases panics
    rename_i wrote
    dsimp only at panics
    split at panics
    next none =>
      have empty : textOf value = "" := by
        cases text : (textOf value).toList with
        | nil => simpa using text
        | cons c rest => rw [text] at none; cases none
      cases value with
      | str raw text => exact ⟨raw, by rw [show text = "" from empty]⟩
      | _ => contradiction
    · cases panics
    · split at panics
      · cases panics
      · split at panics
        · cases panics
        · split at panics <;> cases panics
  rintro ⟨raw, rfl⟩
  rw [checkNumericLiteral, if_neg (by simp [Doc.source])]
  rfl

/-- A look that does not panic reads no empty string. -/
theorem lookOver_eq_panicked_iff (ms : Members) :
    lookOver ms = .panicked ↔ ∃ name raw, lastOf name ms = some (.str raw "") := by
  rw [lookOver]
  split
  next found =>
    obtain ⟨⟨name, value⟩, mem, panics⟩ := found
    obtain ⟨raw, rfl⟩ := checkNumericLiteral_panics_iff.1 panics
    exact iff_of_true rfl ⟨name, raw, mem_lastMembers.1 mem⟩
  rename_i none
  refine iff_of_false ?_ ?_
  · split <;> exact Verdict.noConfusion
  rintro ⟨name, raw, last⟩
  exact none ⟨_, mem_lastMembers.2 last, checkNumericLiteral_panics_iff.2 ⟨raw, rfl⟩⟩

variable {name : String}

theorem checkNumericLiteral_of_passed {ms : Members} (passed : lookOver ms = .passed)
    (last : lastOf name ms = some value) : checkNumericLiteral value = .ok := by
  have ok := (lookOver_passed_iff ms).1 passed _ (List.Perm.refl _)
  exact (checkQuantityLiterals_eq_ok_iff _).1 ok _ (mem_lastMembers.2 last)

/-! ### Shapes without quantities -/

theorem isQuiet_target : ∀ {shape : Shape}, isQuiet shape → isQuiet shape.target
  | .leaf _, quiet => quiet
  | .pointer pointee, quiet => @isQuiet_target pointee quiet
  | .slice _, quiet => quiet
  | .map _, quiet => quiet
  | .record _ _, quiet => quiet

theorem of_mem_fields {one : Shape → Bool} {all : Fields → Bool}
    (step : ∀ f rest, all (f :: rest) = (one f.2 && all rest)) {fields : Fields}
    (holds : all fields) {tag : Tag} {shape : Shape} (mem : (tag, shape) ∈ fields) : one shape := by
  induction fields with
  | nil => cases mem
  | cons f rest ih =>
    rw [step, Bool.and_eq_true] at holds
    rcases List.mem_cons.1 mem with rfl | mem
    · exact holds.1
    · exact ih holds.2 mem

/-- Nothing is handed to the parser, nothing is looked over and nothing panics. -/
def Silent (trace : Trace) : Prop :=
  trace.looked = [] ∧ trace.literals = [] ∧ trace.ending ≠ .panicked

variable {first second : Trace}

theorem Silent.andThen (one : Silent first) (two : Silent second) :
    Silent (first.andThen second) := by
  by_cases goesOn : first.GoesOn
  · obtain ⟨clean, ending⟩ := goesOn
    refine ⟨?_, ?_, fun panicked => ?_⟩
    · simp [Trace.andThen, ending, one.1, two.1]
    · simp [Trace.andThen, ending, one.2.1, two.2.1]
    · rcases Trace.panicked_andThen.1 panicked with first | ⟨_, second⟩
      · exact one.2.2 first
      · exact two.2.2 second
  rw [Trace.andThen_of_cut goesOn]
  exact one

theorem silent_visitLeaf {leaf : Leaf} (quiet : leaf ≠ .literal) (h : Hooks) (doc : Doc) :
    Silent (visitLeaf h leaf doc) := by
  cases leaf with
  | literal => contradiction
  | stamp =>
    cases doc with
    | str raw text =>
      refine ⟨rfl, rfl, ?_⟩
      simp only [visitLeaf]
      split <;> exact Ending.noConfusion
    | _ => exact ⟨rfl, rfl, Ending.noConfusion⟩
  | _ => cases doc <;> exact ⟨rfl, rfl, Ending.noConfusion⟩

variable {shape : Shape}

theorem silent_visitScalar (quiet : shape ≠ .leaf .literal) (h : Hooks) (doc : Doc) :
    Silent (visitScalar h doc shape) := by
  cases shape with
  | leaf leaf => exact silent_visitLeaf (fun eq => quiet (congrArg _ eq)) h doc
  | record kind fields => cases kind <;> cases doc <;> exact ⟨rfl, rfl, Ending.noConfusion⟩
  | _ => cases doc <;> exact ⟨rfl, rfl, Ending.noConfusion⟩

theorem quietRule (h : Hooks) : WalkRule h Silent (isQuiet ·) where
  target := isQuiet_target
  item := id
  value := id
  field quiet _ mem := by
    rw [isQuiet, Bool.and_eq_true] at quiet
    exact of_mem_fields (fun (_, _) _ => by rw [areQuiet]) quiet.2 mem
  empty := ⟨rfl, rfl, Ending.noConfusion⟩
  andThen := Silent.andThen
  scalar quiet doc := silent_visitScalar (by rintro rfl; simp [isQuiet] at quiet) h doc
  checked quiet _ := by simp [isQuiet] at quiet

/-! ### Records that carry quantities -/

variable (parsers) in
/-- A field of a record that looks its members over hands its own text to the parser, if any. -/
theorem visit_field {fields : Fields} (found : shapeOf fields name = some shape)
    (guarded : isQuantity shape ∨ isQuiet shape) (value : Doc) :
    (visit (hooks parsers) value shape).looked = [] ∧
    (visit (hooks parsers) value shape).literals = (handed fields (name, value)).toList ∧
    (visit (hooks parsers) value shape).ending ≠ .panicked := by
  rcases guarded with quantity | quiet
  · have target : shape.target = .leaf .literal := by
      unfold isQuantity at quantity
      split at quantity
      · assumption
      · cases quantity
    rw [visit_of_leaf target]
    cases value with
    | null => exact ⟨rfl, by simp [visitLeaf, handed], Ending.noConfusion⟩
    | _ =>
      refine ⟨rfl, by simp [visitLeaf, handed, found, quantity], ?_⟩
      simp only [visitLeaf]
      split <;> exact Ending.noConfusion
  obtain ⟨looked, lits, returns⟩ := (quietRule (hooks parsers)).visit value quiet
  have ne : ¬ isQuantity shape := by
    have quietTarget := isQuiet_target quiet
    unfold isQuantity
    split
    next target =>
      rw [target] at quietTarget
      cases quietTarget
    · exact Bool.false_ne_true
  refine ⟨looked, ?_, returns⟩
  rw [lits]
  cases value <;> simp [handed, found, ne]

variable (parsers) in
/-- The literals a record hands to the parser are those of the members decoding comes to. -/
theorem visitMembers_fields {fields : Fields}
    (guarded : ∀ name shape, shapeOf fields name = some shape → isQuantity shape ∨ isQuiet shape)
    (ms : Members) :
    (visitMembers (hooks parsers) ms (shapeOf fields)).looked = [] ∧
    (visitMembers (hooks parsers) ms (shapeOf fields)).literals =
      (reached parsers fields ms).filterMap (handed fields) ∧
    (visitMembers (hooks parsers) ms (shapeOf fields)).ending ≠ .panicked := by
  induction ms with
  | nil => exact ⟨rfl, rfl, Ending.noConfusion⟩
  | cons mem rest ih =>
    obtain ⟨name, value⟩ := mem
    obtain ⟨looked, lits, returns⟩ := ih
    rw [visitMembers, reached]
    cases found : shapeOf fields name with
    | none =>
      have nothing : handed fields (name, value) = none := by cases value <;> simp [handed, found]
      refine ⟨looked, ?_, returns⟩
      rw [List.filterMap_cons_none nothing]
      exact lits
    | some shape =>
      obtain ⟨fieldLooked, fieldLiterals, fieldReturns⟩ :=
        visit_field parsers found (guarded name shape found) value
      have handsOver : List.filterMap (handed fields) [(name, value)] =
          (handed fields (name, value)).toList := by
        cases text : handed fields (name, value) <;> simp [text]
      dsimp only
      cases ending : (visit (hooks parsers) value shape).ending with
      | done clean =>
        refine ⟨?_, ?_, fun panicked => ?_⟩
        · simp [Trace.andThen, ending, fieldLooked, looked]
        · rw [← List.singleton_append, List.filterMap_append, handsOver, ← lits, ← fieldLiterals]
          simp [Trace.andThen, ending]
        · rcases Trace.panicked_andThen.1 panicked with panicked | ⟨_, panicked⟩
          · exact fieldReturns panicked
          · exact returns panicked
      | stopped =>
        rw [Trace.andThen_of_cut (by simp [Trace.GoesOn, ending]), handsOver, ← fieldLiterals]
        exact ⟨fieldLooked, rfl, fieldReturns⟩
      | panicked => contradiction

/-- **One record.**  Decoding a record that carries quantities is safe exactly when the look leaves
nothing to luck. -/
theorem safe_visitChecked_iff {fields : Fields}
    (guarded : ∀ name shape, shapeOf fields name = some shape → isQuantity shape ∨ isQuiet shape)
    (ms : Members) :
    Safe (visitChecked (hooks parsers) fields ms
        (visitMembers (hooks parsers) ms (shapeOf fields))) ↔
      Sound parsers (fields, ms) := by
  obtain ⟨looked, lits, returns⟩ := visitMembers_fields parsers guarded ms
  have noEmpty := lookOver_eq_panicked_iff ms
  unfold visitChecked
  cases verdict : (hooks parsers).look ms with
  | panicked =>
    obtain ⟨name, raw, last⟩ := noEmpty.1 verdict
    exact iff_of_false (fun safe => safe.1 rfl) fun sound => sound.1 name raw last
  | refused =>
    have refused : lookOver ms = .refused := verdict
    refine iff_of_true ⟨Ending.noConfusion, by simp⟩ ⟨fun name raw last => ?_, fun passed => ?_⟩
    · exact absurd (noEmpty.2 ⟨name, raw, last⟩) (by rw [refused]; exact Verdict.noConfusion)
    · exact absurd passed (by rw [refused]; exact Verdict.noConfusion)
  | passed =>
    have passed : lookOver ms = .passed := verdict
    constructor
    · intro safe
      refine ⟨fun name raw last => ?_, fun _ name value mem literal hands _ => ?_⟩
      · exact absurd (noEmpty.2 ⟨name, raw, last⟩) (by rw [passed]; exact Verdict.noConfusion)
      refine safe.2 literal ?_
      dsimp only
      rw [lits]
      exact List.mem_filterMap.2 ⟨_, mem, hands⟩
    intro sound
    refine ⟨?_, fun literal mem => ?_⟩
    · dsimp only
      split
      · exact Ending.noConfusion
      · exact Ending.noConfusion
      · exact returns
    dsimp only at mem
    rw [lits] at mem
    obtain ⟨⟨name, value⟩, came, hands⟩ := List.mem_filterMap.1 mem
    by_cases overlooked : Overlooked ms name value
    · exact sound.2 passed name value came literal hands overlooked
    -- What the look did read is what the parser is handed.
    simp only [Overlooked, not_or, not_not] at overlooked
    obtain ⟨last, numeric, eq⟩ := overlooked
    have text : literal = textOf value := by
      rw [← eq]
      unfold handed at hands
      split at hands
      · cases hands
      · split at hands
        · exact (Option.some.inj hands).symm
        · cases hands
      · cases hands
    rw [text]
    exact bounded_of_checkNumericLiteral (checkNumericLiteral_of_passed passed last) numeric

/-! ### Whole bodies -/

theorem isGuarded_target : ∀ {shape : Shape}, isGuarded shape → isGuarded shape.target
  | .leaf _, guarded => guarded
  | .pointer pointee, guarded => @isGuarded_target pointee guarded
  | .slice _, guarded => guarded
  | .map _, guarded => guarded
  | .record _ _, guarded => guarded

variable (parsers) in
/-- A walk is safe exactly when every look on it leaves nothing to luck. -/
def Accounted (trace : Trace) : Prop := Safe trace ↔ ∀ look ∈ trace.looked, Sound parsers look

theorem safe_andThen_iff :
    Safe (first.andThen second) ↔ Safe first ∧ (first.GoesOn → Safe second) := by
  simp only [Safe, Ne, Trace.panicked_andThen, Trace.mem_literals_andThen]
  grind

theorem Accounted.andThen (one : Accounted parsers first) (two : Accounted parsers second) :
    Accounted parsers (first.andThen second) := by
  unfold Accounted at *
  rw [safe_andThen_iff, one, two]
  simp only [Trace.mem_looked_andThen]
  grind

theorem Silent.accounted {trace : Trace} (silent : Silent trace) : Accounted parsers trace := by
  obtain ⟨looked, lits, returns⟩ := silent
  exact iff_of_true ⟨returns, by simp [lits]⟩ (by simp [looked])

theorem accounted_visitScalar (guarded : isGuarded shape) (doc : Doc) :
    Accounted parsers (visitScalar (hooks parsers) doc shape) :=
  (silent_visitScalar (by rintro rfl; simp [isGuarded] at guarded) _ doc).accounted

theorem quantity_or_quiet {fields : Fields} (guarded : isGuarded (.record .checked fields))
    (name : String) (shape : Shape) (found : shapeOf fields name = some shape) :
    isQuantity shape ∨ isQuiet shape := by
  obtain ⟨tag, mem⟩ := mem_of_shapeOf found
  rw [isGuarded, List.all_eq_true] at guarded
  simpa using guarded _ mem

/-- A record that carries quantities is looked over once, and nothing inside it is. -/
theorem looked_visitChecked {fields : Fields} (guarded : isGuarded (.record .checked fields))
    (ms : Members) :
    (visitChecked (hooks parsers) fields ms
      (visitMembers (hooks parsers) ms (shapeOf fields))).looked = [(fields, ms)] := by
  obtain ⟨looked, _, _⟩ := visitMembers_fields parsers (quantity_or_quiet guarded) ms
  unfold visitChecked
  split <;> simp [looked]

theorem accounted_visitChecked {fields : Fields} (guarded : isGuarded (.record .checked fields))
    (ms : Members) :
    Accounted parsers (visitChecked (hooks parsers) fields ms
      (visitMembers (hooks parsers) ms (shapeOf fields))) := by
  unfold Accounted
  rw [safe_visitChecked_iff (quantity_or_quiet guarded), looked_visitChecked guarded]
  simp

theorem guardedRule : WalkRule (hooks parsers) (Accounted parsers) (isGuarded ·) where
  target := isGuarded_target
  item := id
  value := id
  field guarded unchecked mem := by
    rw [isGuarded] at guarded
    · exact of_mem_fields (fun (_, _) _ => by rw [areGuarded]) guarded mem
    · exact unchecked
  empty := Silent.accounted ⟨rfl, rfl, Ending.noConfusion⟩
  andThen := Accounted.andThen
  scalar guarded doc := accounted_visitScalar guarded doc
  checked guarded members := accounted_visitChecked guarded members

end Horchestra.Api.Quantity
