import Horchestra.Foundations.Text

/-!
# JSON values and tokens

Strings and numbers as they are read from a text; numbers are kept as they are written.
-/

namespace Foundations.Json

open Foundations.Text

inductive Value where
  | null
  | bool (value : Bool)
  | num (text : String)
  | str (text : String)
  | arr (items : List Value)
  | obj (members : List (String × Value))

/-! ## Reading a text -/

def isSpace (c : Char) : Bool := c == ' ' || c == '\t' || c == '\n' || c == '\r'

def skipSpace (text : List Char) : List Char := text.dropWhile isSpace

def hexValue (c : Char) : Option Nat :=
  if c.isDigit then some (c.toNat - '0'.toNat)
  else if 'a' ≤ c ∧ c ≤ 'f' then some (c.toNat - 'a'.toNat + 10)
  else if 'A' ≤ c ∧ c ≤ 'F' then some (c.toNat - 'A'.toNat + 10)
  else none

def hex4 (a b c d : Char) : Option Nat := do
  let a ← hexValue a
  let b ← hexValue b
  let c ← hexValue c
  let d ← hexValue d
  return ((a * 16 + b) * 16 + c) * 16 + d

def isHighSurrogate (n : Nat) : Bool := 0xD800 ≤ n && n < 0xDC00

def isLowSurrogate (n : Nat) : Bool := 0xDC00 ≤ n && n < 0xE000

def replacement : Char := Char.ofNat 0xFFFD

/-- The rest of a string after its opening quote; half of a surrogate pair reads as the replacement
character. -/
def readString : List Char → List Char → Option (List Char × List Char)
  | _, [] => none
  | kept, '"' :: rest => some (kept.reverse, rest)
  | kept, '\\' :: 'u' :: a :: b :: c :: d :: '\\' :: 'u' :: a' :: b' :: c' :: d' :: rest =>
    match hex4 a b c d, hex4 a' b' c' d' with
    | some high, some low =>
      if isHighSurrogate high && isLowSurrogate low then
        readString
          (Char.ofNat (0x10000 + (high - 0xD800) * 0x400 + (low - 0xDC00)) :: kept) rest
      else if isHighSurrogate high || isLowSurrogate high then
        readString (replacement :: kept) ('\\' :: 'u' :: a' :: b' :: c' :: d' :: rest)
      else readString (Char.ofNat high :: kept) ('\\' :: 'u' :: a' :: b' :: c' :: d' :: rest)
    | _, _ => none
  | kept, '\\' :: 'u' :: a :: b :: c :: d :: rest =>
    match hex4 a b c d with
    | some n =>
      readString
        ((if isHighSurrogate n || isLowSurrogate n then replacement else Char.ofNat n) :: kept)
        rest
    | none => none
  | kept, '\\' :: '"' :: rest => readString ('"' :: kept) rest
  | kept, '\\' :: '\\' :: rest => readString ('\\' :: kept) rest
  | kept, '\\' :: '/' :: rest => readString ('/' :: kept) rest
  | kept, '\\' :: 'b' :: rest => readString ('\x08' :: kept) rest
  | kept, '\\' :: 'f' :: rest => readString ('\x0c' :: kept) rest
  | kept, '\\' :: 'n' :: rest => readString ('\n' :: kept) rest
  | kept, '\\' :: 'r' :: rest => readString ('\r' :: kept) rest
  | kept, '\\' :: 't' :: rest => readString ('\t' :: kept) rest
  | _, '\\' :: _ => none
  | kept, c :: rest => if c.toNat < 0x20 then none else readString (c :: kept) rest

def readDigits (text : List Char) : Option (List Char × List Char) :=
  match text.span (·.isDigit) with
  | ([], _) => none
  | (digits, rest) => some (digits, rest)

/-- The digits before the point, without a leading zero. -/
def readInteger (text : List Char) : Option (List Char × List Char) :=
  match text with
  | '0' :: rest => some (['0'], rest)
  | _ => readDigits text

def readFraction (text : List Char) : Option (List Char × List Char) :=
  match text with
  | '.' :: rest => (readDigits rest).map fun found => ('.' :: found.1, found.2)
  | _ => some ([], text)

def readExponent (text : List Char) : Option (List Char × List Char) :=
  match text with
  | c :: rest =>
    if c == 'e' || c == 'E' then
      match rest with
      | '+' :: rest => (readDigits rest).map fun found => (c :: '+' :: found.1, found.2)
      | '-' :: rest => (readDigits rest).map fun found => (c :: '-' :: found.1, found.2)
      | _ => (readDigits rest).map fun found => (c :: found.1, found.2)
    else some ([], text)
  | [] => some ([], [])

def readNumber (text : List Char) : Option (List Char × List Char) := do
  let (sign, text) := match text with
    | '-' :: rest => (['-'], rest)
    | _ => ([], text)
  let (whole, text) ← readInteger text
  let (fraction, text) ← readFraction text
  let (exponent, text) ← readExponent text
  return (sign ++ whole ++ fraction ++ exponent, text)

end Foundations.Json
