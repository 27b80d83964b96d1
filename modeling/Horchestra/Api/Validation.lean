import Horchestra.Api.Core
import Horchestra.Foundations.Checks
import Horchestra.Foundations.Paths

/-!
# Names and paths an author may write

The validators of the API package and the name shapes the control plane insists on: DNS names
for objects, paths that cannot escape a mount, names an environment file can express, and the
`<mount>/<role>` spelling of a role on a secrets engine.  Each returns the text of its refusal.
-/

namespace Horchestra.Api

open Foundations Text Checks Paths

/-! ## DNS names -/

def isLowerAlnum (c : Char) : Bool := ('a' ≤ c && c ≤ 'z') || ('0' ≤ c && c ≤ '9')

/-- Lower-case letters, digits and dashes, with no dash at either end. -/
def isDNSLabel (text : List Char) : Bool :=
  text.all (fun c => isLowerAlnum c || c == '-') && text.head?.any isLowerAlnum &&
    text.getLast?.any isLowerAlnum

def isDNS1123 (text : String) : Bool := isDNSLabel text.toList

def isDNS1123Label (text : String) : Bool := isDNS1123 text && text.length ≤ 63

/-- Labels joined by dots, of at most 253 characters. -/
def isDNS1123Subdomain (text : String) : Bool :=
  (text.toList.splitOn '.').all isDNSLabel && text.length ≤ 253

theorem notMem_of_isDNSLabel {text : List Char} (label : isDNSLabel text = true) {c : Char}
    (other : (isLowerAlnum c || c == '-') = false) : c ∉ text := by
  intro mem
  simp only [isDNSLabel, Bool.and_eq_true, List.all_eq_true] at label
  rw [label.1.1 c mem] at other
  cases other

theorem slash_notMem_of_isDNSLabel {text : List Char} (label : isDNSLabel text = true) :
    '/' ∉ text :=
  notMem_of_isDNSLabel label (by decide)

/-- A name has letters, digits, dashes and dots in it. -/
theorem notMem_of_isDNS1123Subdomain {text : String} (valid : isDNS1123Subdomain text = true) {c : Char}
    (other : (isLowerAlnum c || c == '-') = false) (notDot : c ≠ '.') : c ∉ text.toList := by
  intro mem
  simp only [isDNS1123Subdomain, Bool.and_eq_true, List.all_eq_true] at valid
  obtain ⟨label, found, inside⟩ := exists_mem_splitOn '.' notDot mem
  exact notMem_of_isDNSLabel (valid.1 label found) other inside

theorem slash_notMem_of_isDNS1123Subdomain {text : String} (valid : isDNS1123Subdomain text = true) :
    '/' ∉ text.toList :=
  notMem_of_isDNS1123Subdomain valid (by decide) (by decide)

/-! ## Characters -/

def containsAny (text : String) (chars : List Char) : Bool := text.toList.any (· ∈ chars)

/-- The white space that is trimmed off a value. -/
def isSpace (c : Char) : Bool :=
  c.toNat ∈ [9, 10, 11, 12, 13, 32, 0x85, 0xA0, 0x1680, 0x2028, 0x2029, 0x202F, 0x205F, 0x3000] ||
    (0x2000 ≤ c.toNat && c.toNat ≤ 0x200A)

def trimBoth (trimmed : Char → Bool) (text : List Char) : List Char :=
  (text.dropWhile trimmed).rdropWhile trimmed

def trimSpace (text : String) : String := String.ofList (trimBoth isSpace text.toList)

/-! ## Paths -/

def cleanContainerPath (p what : String) : Except String Unit :=
  andThen
    (require (p == clean p)
      (what ++ " " ++ quote p ++ " must be a clean path (no '.', '..' or redundant separators)")) <|
  andThen
    (require (!containsAny p [' ', '\t', '\r', '\n', '\x00', ':', '\\'])
      (what ++ " " ++ quote p ++
        " must not contain whitespace, ':', '\\' or control characters")) <|
  require (!(parts p.toList).contains "..")
    (what ++ " " ++ quote p ++ " must not contain a '..' component")

/-- A mount destination: a clean absolute path that cannot split a mount entry. -/
def validMountPath (p : String) : Except String Unit :=
  andThen (require (p ≠ "") "mountPath is required") <|
  andThen (require (isRooted p) ("mountPath " ++ quote p ++ " must be absolute")) <|
  cleanContainerPath p "mountPath"

/-- The destination of one projected key, relative to its mount. -/
def validRelPath (p : String) : Except String Unit :=
  andThen (require (p ≠ "") "path is required") <|
  andThen (require (!isRooted p) ("path " ++ quote p ++ " must be relative")) <|
  cleanContainerPath p "path"

/-- A single path component. -/
def validBaseName (p what : String) : Except String Unit :=
  andThen (require (!p.toList.contains '/')
    (what ++ " " ++ quote p ++ " must be a single path component (no '/')")) <|
  andThen (require (p ≠ "." && p ≠ "..") (what ++ " " ++ quote p ++ " must not be '.' or '..'")) <|
  andThen (require (p ≠ "") (what ++ " is required")) <|
  cleanContainerPath p what

/-! ## Environment variables -/

def envSecretAllKeys : String := "*"

def EnvSecretRef.isWildcard (r : EnvSecretRef) : Bool := r.key == envSecretAllKeys

def isNameStart (c : Char) : Bool := ('a' ≤ c && c ≤ 'z') || ('A' ≤ c && c ≤ 'Z') || c == '_'

def isNameChar (c : Char) : Bool := isNameStart c || ('0' ≤ c && c ≤ '9')

def validEnvName (name what : String) : Except String Unit :=
  andThen (require (name ≠ "") (what ++ " is required")) <|
  require (name.toList.head?.any isNameStart && name.toList.all isNameChar)
    (what ++ " " ++ quote name ++
      " is not a valid environment variable name (letters, digits and '_', not starting with a digit)")

/-- A prefix for imported names; none at all is fine. -/
def validEnvPrefix (text : String) : Except String Unit :=
  if text = "" then .ok () else validEnvName text "env prefix"

/-- How many bytes come before the first character an environment file cannot carry. -/
def firstBadByte (text : List Char) : Option Nat :=
  let before := text.takeWhile fun c => !(c ∈ ['\n', '\r', '\x00'])
  if before.length = text.length then none else some (before.map fun c => c.utf8Size).sum

def validEnvValue (name value : String) : Except String Unit :=
  match firstBadByte value.toList with
  | none => .ok ()
  | some i =>
    .error ("value of " ++ name ++ " carries a newline or NUL at byte " ++ Nat.repr i ++
      "; an environment variable cannot express it — mount it as a file instead")

/-! ## Roles on a secrets engine -/

structure EngineRole where
  mount : String
  role : String

def checkRolePart (v name value : String) : Except String Unit :=
  andThen (require (value ≠ "") (quote v ++ ": the " ++ name ++ " is empty")) <|
  checkAll (fun segment => require (segment ≠ "" && segment ≠ "." && segment ≠ "..")
    (quote v ++ ": " ++ quote segment ++ " is not a path segment")) (parts value.toList)

/-- Reads `<mount>/<role>`; the last segment is the role. -/
def parseEngineRole (text : String) : Except String EngineRole :=
  let trimmed := trimSlashes (trimSpace text).toList
  let v := String.ofList trimmed
  -- cut at the last slash
  match cut '/' trimmed.reverse with
  | none => .error (quote v ++ ": want <mount>/<role>, e.g. database/app-rw")
  | some (role, mount) =>
    let ref : EngineRole := ⟨String.ofList mount.reverse, String.ofList role.reverse⟩
    match andThen (checkRolePart v "mount" ref.mount) (checkRolePart v "role" ref.role) with
    | .error e => .error e
    | .ok () =>
      if containsAny v [' ', '\t', '\r', '\n', '?', '#', '%'] then
        .error (quote v ++ ": a mount or role may not carry whitespace or URL punctuation")
      else .ok ref

end Horchestra.Api
