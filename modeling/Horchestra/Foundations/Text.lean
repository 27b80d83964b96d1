import Mathlib.Algebra.Group.Int.Defs
import Mathlib.Algebra.Group.Nat.Defs
import Mathlib.Tactic.Common

/-!
# Text and fixed-width integers of the host language

The programs verified here are written in a language whose strings are cut, split
and quoted by a handful of library functions and whose integers are 64 bits wide.
This module gives those functions as computable definitions over character lists,
with the facts the developments above need:

* `cut_append` and `eq_append_of_cut`: cutting at the first separator inverts joining with it;
* `parseInt64_itoa`: reading a decimal numeral back returns the number it was
  written from, for every number that fits the width;
* `wrap64_of_mem`: wrapping changes nothing inside the signed range.
-/

namespace Foundations.Text

/-! ## Signed 64-bit arithmetic -/

/-- The signed 64-bit integer congruent to `n` modulo `2 ^ 64`. -/
def wrap64 (n : Int) : Int := Int.bmod n (2 ^ 64)

variable {n : Int}

theorem wrap64_of_mem (low : -2 ^ 63 ≤ n) (high : n < 2 ^ 63) : wrap64 n = n := by
  unfold wrap64
  exact Int.bmod_eq_of_le (by omega) (by omega)

/-! ## Cutting and splitting -/

/-- The text before and after the first separator, if there is one. -/
def cut (separator : Char) : List Char → Option (List Char × List Char)
  | [] => none
  | c :: rest =>
    if c = separator then some ([], rest)
    else (cut separator rest).map fun (before, after) => (c :: before, after)

theorem cut_append (separator : Char) (before after : List Char)
    (gone : separator ∉ before) :
    cut separator (before ++ separator :: after) = some (before, after) := by
  induction before with
  | nil => simp [cut]
  | cons c rest ih =>
    have ne : c ≠ separator := fun eq => gone (by simp [eq])
    have absentRest : separator ∉ rest := fun mem => gone (by simp [mem])
    simp [cut, ne, ih absentRest]

variable {separator c : Char} {before after digits : List Char}

theorem eq_append_of_cut {text : List Char} (found : cut separator text = some (before, after)) :
    text = before ++ separator :: after ∧ separator ∉ before := by
  induction text generalizing before with
  | nil => cases found
  | cons c rest ih =>
    rw [cut] at found
    split at found
    next eq =>
      cases found
      exact ⟨by rw [eq, List.nil_append], List.not_mem_nil⟩
    rename_i ne
    obtain ⟨⟨start, tail⟩, cutRest, whole⟩ := Option.map_eq_some_iff.1 found
    cases whole
    obtain ⟨joined, gone⟩ := ih cutRest
    refine ⟨by rw [joined, List.cons_append], ?_⟩
    rw [List.mem_cons, not_or]
    exact ⟨fun eq => ne eq.symm, gone⟩

theorem append_separator_inj {pre' after' : List Char} (gone : separator ∉ before)
    (gone' : separator ∉ pre')
    (eq : before ++ separator :: after = pre' ++ separator :: after') :
    before = pre' ∧ after = after' := by
  have equal := cut_append separator before after gone
  rw [eq, cut_append separator pre' after' gone'] at equal
  simp only [Option.some.injEq, Prod.mk.injEq] at equal
  exact ⟨equal.1.symm, equal.2.symm⟩

/-! ## Quoting -/

/-- One character inside a double-quoted literal. -/
def escape (c : Char) : List Char :=
  if c = '"' then ['\\', '"']
  else if c = '\\' then ['\\', '\\']
  else if c = '\n' then ['\\', 'n']
  else if c = '\t' then ['\\', 't']
  else if c = '\r' then ['\\', 'r']
  else if c.toNat = 7 then ['\\', 'a']
  else if c.toNat = 8 then ['\\', 'b']
  else if c.toNat = 11 then ['\\', 'v']
  else if c.toNat = 12 then ['\\', 'f']
  else if c.toNat < 32 ∨ c.toNat = 127 then
    ['\\', 'x', Nat.digitChar (c.toNat / 16), Nat.digitChar (c.toNat % 16)]
  else [c]

def quote (text : String) : String := "\"" ++ String.ofList (text.toList.flatMap escape) ++ "\""

/-! ## Decimal numerals -/

inductive NumError where
  | invalidSyntax
  | outOfRange

/-- The message of a refused numeral, which quotes the text it was read from. -/
def NumError.message (error : NumError) (text : List Char) : String :=
  "strconv.ParseInt: parsing " ++ quote (String.ofList text) ++ ": " ++
    match error with
    | .invalidSyntax => "invalid syntax"
    | .outOfRange => "value out of range"

/-- The unsigned value of a run of digits, read onto an accumulator.  Overflow is
noticed at the digit that causes it, before any later character is looked at. -/
def parseDigits : List Char → Nat → Except NumError Nat
  | [], n => .ok n
  | c :: rest, n =>
    if c.isDigit then
      let next := 10 * n + (c.toNat - '0'.toNat)
      if next < 2 ^ 64 then parseDigits rest next else .error .outOfRange
    else .error .invalidSyntax

def parseUint64 (text : List Char) : Except NumError Nat :=
  if text = [] then .error .invalidSyntax else parseDigits text 0

def parseInt64 (text : List Char) : Except NumError Int :=
  match text with
  | '-' :: digits => do
    let n ← parseUint64 digits
    if n ≤ 2 ^ 63 then .ok (-(n : Int)) else .error .outOfRange
  | '+' :: digits => do
    let n ← parseUint64 digits
    if n < 2 ^ 63 then .ok (n : Int) else .error .outOfRange
  | digits => do
    let n ← parseUint64 digits
    if n < 2 ^ 63 then .ok (n : Int) else .error .outOfRange

def itoa : Int → List Char
  | .ofNat n => Nat.toDigits 10 n
  | .negSucc n => '-' :: Nat.toDigits 10 (n + 1)

theorem ofDigitChars_le (digits : List Char) (n : Nat) : n ≤ Nat.ofDigitChars 10 digits n := by
  induction digits generalizing n with
  | nil => simp
  | cons c rest ih =>
    rw [Nat.ofDigitChars_cons]
    exact Nat.le_trans (by omega) (ih _)

theorem parseDigits_eq_ok (digits : List Char) (n : Nat)
    (numeric : ∀ c ∈ digits, c.isDigit) (fits : Nat.ofDigitChars 10 digits n < 2 ^ 64) :
    parseDigits digits n = .ok (Nat.ofDigitChars 10 digits n) := by
  induction digits generalizing n with
  | nil => simp [parseDigits]
  | cons c rest ih =>
    rw [Nat.ofDigitChars_cons] at fits ⊢
    have head : c.isDigit := numeric c (by simp)
    have tail : ∀ d ∈ rest, d.isDigit := fun d mem => numeric d (by simp [mem])
    have small := Nat.lt_of_le_of_lt (ofDigitChars_le rest _) fits
    simp only [parseDigits, head, if_true]
    rw [if_pos small]
    exact ih _ tail fits

variable {m : Nat}

theorem eq_ofDigitChars_of_parseDigits {n : Nat} (read : parseDigits digits n = .ok m) :
    (∀ c ∈ digits, c.isDigit) ∧ m = Nat.ofDigitChars 10 digits n := by
  induction digits generalizing n with
  | nil =>
    cases read
    exact ⟨by simp, rfl⟩
  | cons c rest ih =>
    rw [parseDigits] at read
    split at read
    next digit =>
      dsimp only at read
      split at read
      · obtain ⟨numeric, v⟩ := ih read
        refine ⟨fun d mem => ?_, by rw [Nat.ofDigitChars_cons]; exact v⟩
        rcases List.mem_cons.1 mem with rfl | mem
        · exact digit
        · exact numeric d mem
      · cases read
    · cases read

theorem eq_ofDigitChars_of_parseUint64 (read : parseUint64 digits = .ok m) :
    (∀ c ∈ digits, c.isDigit) ∧ m = Nat.ofDigitChars 10 digits 0 := by
  rw [parseUint64] at read
  split at read
  · cases read
  · exact eq_ofDigitChars_of_parseDigits read

theorem parseUint64_toDigits {n : Nat} (fits : n < 2 ^ 64) :
    parseUint64 (Nat.toDigits 10 n) = .ok n := by
  have v : Nat.ofDigitChars 10 (Nat.toDigits 10 n) 0 = n := Nat.ofDigitChars_ten_toDigits
  have numeric : ∀ c ∈ Nat.toDigits 10 n, c.isDigit := fun c mem =>
    Nat.isDigit_of_mem_toDigits (by omega) (by omega) mem
  unfold parseUint64
  rw [if_neg Nat.toDigits_ne_nil, parseDigits_eq_ok _ _ numeric (by rw [v]; exact fits), v]

theorem toDigits_head (n : Nat) : ∃ c rest, Nat.toDigits 10 n = c :: rest ∧ c.isDigit := by
  rcases digits : Nat.toDigits 10 n with _ | ⟨c, rest⟩
  · exact absurd digits Nat.toDigits_ne_nil
  refine ⟨c, rest, rfl, ?_⟩
  exact Nat.isDigit_of_mem_toDigits (b := 10) (n := n) (by omega) (by omega) (by simp [digits])

theorem parseInt64_unsigned {rest : List Char} (notMinus : c ≠ '-') (notPlus : c ≠ '+') :
    parseInt64 (c :: rest) = (parseUint64 (c :: rest)).bind fun n =>
      if n < 2 ^ 63 then .ok (n : Int) else .error .outOfRange := by
  rw [parseInt64]
  · rfl
  · intro digits minus
    exact notMinus (List.cons.inj minus).1
  · intro digits plus
    exact notPlus (List.cons.inj plus).1

theorem parseInt64_itoa (low : -2 ^ 63 ≤ n) (high : n < 2 ^ 63) : parseInt64 (itoa n) = .ok n := by
  cases n with
  | ofNat n =>
    obtain ⟨c, rest, digits, numeric⟩ := toDigits_head n
    have bound : n < 2 ^ 63 := by
      rw [Int.ofNat_eq_natCast] at high
      omega
    have read := parseUint64_toDigits (n := n) (by omega)
    have notMinus : c ≠ '-' := by rintro rfl; simp at numeric
    have notPlus : c ≠ '+' := by rintro rfl; simp at numeric
    rw [digits] at read
    rw [itoa, digits, parseInt64_unsigned notMinus notPlus, read]
    exact if_pos bound
  | negSucc n =>
    have read := parseUint64_toDigits (n := n + 1) (by omega)
    have bound : n + 1 ≤ 2 ^ 63 := by omega
    rw [itoa, parseInt64, read]
    exact if_pos bound

theorem not_mem_itoa (n : Int) (notDigit : ¬ c.isDigit) (notMinus : c ≠ '-') : c ∉ itoa n := by
  have notNumeral : ∀ m, c ∉ Nat.toDigits 10 m := fun m mem =>
    notDigit (Nat.isDigit_of_mem_toDigits (by omega) (by omega) mem)
  cases n with
  | ofNat n => exact notNumeral n
  | negSucc n => simp [itoa, notMinus, notNumeral]

end Foundations.Text
