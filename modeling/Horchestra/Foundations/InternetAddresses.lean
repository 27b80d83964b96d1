import Horchestra.Foundations.Text

/-!
# Internet addresses and their text

An address is four octets, or eight groups of sixteen bits with an optional zone.  This module
gives the reading and the writing of such addresses, and of prefixes, as the standard library of
the host language does them: one character at a time, with every refusal.  An IPv4 address
mapped into IPv6 is an IPv6 address, and it is written with its last two groups dotted.
-/

namespace Foundations.Internet

open Foundations.Text

/-! ## Addresses -/

/-- An address of either family.  A zone that is empty is no zone. -/
inductive Addr where
  | v4 (a b c d : UInt8)
  | v6 (groups : List UInt16) (whole : groups.length = 8) (zone : String)
  deriving DecidableEq

namespace Addr

def bitLen : Addr → Nat
  | v4 .. => 32
  | v6 .. => 128

/-- The six groups before an embedded IPv4 address. -/
def mapped : List UInt16 := [0, 0, 0, 0, 0, 0xffff]

def withoutZone : Addr → Addr
  | v4 a b c d => v4 a b c d
  | v6 groups whole _ => v6 groups whole ""

/-- The two octets of a group, the high one first. -/
def octets (group : UInt16) : UInt8 × UInt8 :=
  (UInt8.ofNat (group.toNat / 256), UInt8.ofNat (group.toNat % 256))

def group (high low : UInt8) : UInt16 := UInt16.ofNat (256 * high.toNat + low.toNat)

end Addr

/-! ## Reading -/

/-- The fields of a dotted address: the number being read, how many digits it has, and the
fields before it. -/
def parseIPv4Fields : List Char → Nat → Nat → List UInt8 → Except String (List UInt8)
  | [], val, _, fields =>
    if fields.length < 3 then .error "IPv4 address too short" else .ok (fields ++ [UInt8.ofNat val])
  | c :: rest, val, digLen, fields =>
    if c.isDigit then
      if digLen = 1 ∧ val = 0 then .error "IPv4 field has octet with leading zero"
      else
        let next := 10 * val + (c.toNat - '0'.toNat)
        if next > 255 then .error "IPv4 field has value >255"
        else parseIPv4Fields rest next (digLen + 1) fields
    else if c = '.' then
      if digLen = 0 ∨ rest = [] then .error "IPv4 field must have at least one digit"
      else if fields.length = 3 then .error "IPv4 address too long"
      else parseIPv4Fields rest 0 0 (fields ++ [UInt8.ofNat val])
    else .error "unexpected character"

def parseIPv4 (text : List Char) : Except String Addr :=
  match parseIPv4Fields text 0 0 [] with
  | .ok [a, b, c, d] => .ok (.v4 a b c d)
  | .ok _ => .error "IPv4 address too long"
  | .error e => .error e

def isHex (c : Char) : Bool := c.isDigit || ('a' ≤ c && c ≤ 'f') || ('A' ≤ c && c ≤ 'F')

def hexDigit (c : Char) : Nat :=
  if c.isDigit then c.toNat - '0'.toNat
  else if 'a' ≤ c then c.toNat - 'a'.toNat + 10
  else c.toNat - 'A'.toNat + 10

def hexValue (digits : List Char) : Nat := digits.foldl (fun acc c => 16 * acc + hexDigit c) 0

/-- Two groups from the four octets of an embedded IPv4 address. -/
def embedded : List UInt8 → List UInt16
  | [a, b, c, d] => [Addr.group a b, Addr.group c d]
  | _ => []

/-- Hexadecimal groups and the colons between them: how many groups there is still room for,
the groups read so far, where the ellipsis stood, and the text left.  What remains when the
room is used up is returned. -/
def parseGroups : Nat → List UInt16 → Option Nat → List Char →
    Except String (List UInt16 × Option Nat × List Char)
  | 0, groups, ellipsis, text => .ok (groups, ellipsis, text)
  | room + 1, groups, ellipsis, text =>
    let digits := text.takeWhile isHex
    if 4 < digits.length then .error "each group must have 4 or less digits"
    else if digits = [] then
      .error "each colon-separated field must have at least one digit"
    else
      let more := groups ++ [UInt16.ofNat (hexValue digits)]
      match text.dropWhile isHex with
      | [] => .ok (more, ellipsis, [])
      | '.' :: _ =>
        if ellipsis = none ∧ groups.length ≠ 6 then
          .error "embedded IPv4 address must replace the final 2 fields of the address"
        else if 8 < groups.length + 2 then
          .error "too many hex fields to fit an embedded IPv4 at the end of the address"
        else
          match parseIPv4Fields text 0 0 [] with
          | .error e => .error e
          | .ok fields => .ok (groups ++ embedded fields, ellipsis, [])
      | ':' :: rest =>
        match rest with
        | [] => .error "colon must be followed by more characters"
        | next :: tail =>
          if next = ':' then
            if ellipsis.isSome then .error "multiple :: in address"
            else if tail = [] then .ok (more, some more.length, [])
            else parseGroups room more (some more.length) tail
          else parseGroups room more ellipsis rest
      | _ => .error "unexpected character, want colon"

def expand (groups : List UInt16) : Option Nat → Except String (List UInt16)
  | none => if groups.length < 8 then .error "address string too short" else .ok groups
  | some place =>
    if groups.length < 8 then
      .ok (groups.take place ++ List.replicate (8 - groups.length) 0 ++ groups.drop place)
    else .error "the :: must expand to at least one field of zeros"

/-- What the groups read amount to. -/
def finish : Except String (List UInt16 × Option Nat × List Char) → Except String (List UInt16)
  | .error e => .error e
  | .ok (groups, ellipsis, rest) =>
    if rest ≠ [] then .error "trailing garbage after address" else expand groups ellipsis

/-- The groups of an address without its zone. -/
def parseWhole (text : List Char) : Except String (List UInt16) :=
  match text with
  | ':' :: ':' :: rest =>
    if rest = [] then .ok (List.replicate 8 0) else finish (parseGroups 8 [] (some 0) rest)
  | _ => finish (parseGroups 8 [] none text)

/-- An address whose zone has been split off. -/
def parseZoned (text : List Char) (zone : Option (List Char)) : Except String Addr :=
  if zone = some [] then .error "zone must be a non-empty string"
  else
    match parseWhole text with
    | .error e => .error e
    | .ok groups =>
      if whole : groups.length = 8 then .ok (.v6 groups whole (String.ofList (zone.getD [])))
      else .error "address string too short"

def parseIPv6 (text : List Char) : Except String Addr :=
  match cut '%' text with
  | none => parseZoned text none
  | some (before, zone) => parseZoned before (some zone)

/-- The characters that tell the families apart. -/
def telling (c : Char) : Bool := c == '.' || c == ':' || c == '%'

def parseAddr (text : List Char) : Except String Addr :=
  match text.find? telling with
  | some '.' => parseIPv4 text
  | some ':' => parseIPv6 text
  | some _ => .error "missing IPv6 address"
  | none => .error "unable to parse IP"

/-- An address and how many of its leading bits count. -/
structure Prefix where
  addr : Addr
  bits : Nat

def parsePrefix (text : List Char) : Except String Prefix :=
  match cut '/' text.reverse with
  | none => .error "no '/'"
  | some (after, before) =>
    match parseAddr before.reverse with
    | .error e => .error e
    | .ok addr =>
      if addr ≠ addr.withoutZone then .error "IPv6 zones cannot be present in a prefix"
      else
        let digits := after.reverse
        let bad := "bad bits after slash: " ++ quote (String.ofList digits)
        if 1 < digits.length ∧ ¬ ('1' ≤ digits.headD '1' ∧ digits.headD '1' ≤ '9') then .error bad
        else
          match parseInt64 digits with
          | .error _ => .error bad
          | .ok bits =>
            if bits < 0 ∨ addr.bitLen < bits then .error "prefix length out of range"
            else .ok ⟨addr, bits.toNat⟩

/-! ## Writing -/

def dotted (a b c d : UInt8) : List Char :=
  Nat.toDigits 10 a.toNat ++ '.' :: (Nat.toDigits 10 b.toNat ++ '.' ::
    (Nat.toDigits 10 c.toNat ++ '.' :: Nat.toDigits 10 d.toNat))

def hex (group : UInt16) : List Char := Nat.toDigits 16 group.toNat

def colons : List UInt16 → List Char
  | [] => []
  | [group] => hex group
  | group :: rest => hex group ++ ':' :: colons rest

def leadingZeros (groups : List UInt16) : Nat := (groups.takeWhile (· == 0)).length

/-- Where the first of the longest runs of two or more zero groups starts and stops. -/
def zeroRun (groups : List UInt16) : Option (Nat × Nat) :=
  (List.range 8).foldl
    (fun best i =>
      let width := leadingZeros (groups.drop i)
      if 2 ≤ width ∧ (best.elim 0 fun run => run.2 - run.1) < width then some (i, i + width) else best)
    none

def compressed (groups : List UInt16) : List Char :=
  match zeroRun groups with
  | none => colons groups
  | some (start, stop) => colons (groups.take start) ++ ':' :: ':' :: colons (groups.drop stop)

/-- The groups of an address, the last two dotted when they hold an IPv4 address. -/
def writeWhole (groups : List UInt16) : List Char :=
  match groups.take 6 == Addr.mapped, groups.drop 6 with
  | true, [high, low] =>
    "::ffff:".toList ++
      dotted (Addr.octets high).1 (Addr.octets high).2 (Addr.octets low).1 (Addr.octets low).2
  | _, _ => compressed groups

def Addr.format : Addr → List Char
  | .v4 a b c d => dotted a b c d
  | .v6 groups _ zone => writeWhole groups ++ if zone = "" then [] else '%' :: zone.toList

end Foundations.Internet
