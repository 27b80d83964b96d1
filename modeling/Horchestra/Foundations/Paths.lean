import Mathlib.Data.List.DropRight

/-!
# Slash-separated paths: splitting and matching

Two ways of reading one path.  A router cuts an absolute path into segments and matches
them one by one against a pattern of literals and parameters, where a parameter takes
exactly one non-empty segment.  Other code trims the slashes off both ends first and then
splits.  On every path a pattern matches, the two see the same segments
(`trimmedParts_eq_of_match`), provided the pattern's own literals are not empty.  A third
reading removes what is redundant in a path and leaves its lexical meaning (`clean`).
-/

namespace Foundations.Paths

/-! ## Splitting -/

variable {text : List Char}

theorem exists_mem_splitOn (sep : Char) {c : Char} (ne : c ≠ sep)
    (mem : c ∈ text) : ∃ part ∈ text.splitOn sep, c ∈ part := by
  induction text with
  | nil => cases mem
  | cons d rest ih =>
    rw [List.splitOn_cons_eq_if_modifyHead]
    split
    next isSeparator =>
      have later : c ∈ rest := by
        rcases List.mem_cons.1 mem with rfl | later
        · exact absurd (beq_iff_eq.1 isSeparator) ne
        · exact later
      obtain ⟨part, found, inside⟩ := ih later
      exact ⟨part, .tail _ found, inside⟩
    cases parts : rest.splitOn sep with
    | nil => exact absurd parts (List.splitOn_ne_nil _ _)
    | cons first others =>
      rw [List.modifyHead_cons]
      rcases List.mem_cons.1 mem with rfl | later
      · exact ⟨c :: first, .head _, .head _⟩
      obtain ⟨part, found, inside⟩ := ih later
      rw [parts] at found
      rcases List.mem_cons.1 found with rfl | found
      · exact ⟨d :: part, .head _, List.mem_cons_of_mem d inside⟩
      · exact ⟨part, .tail _ found, inside⟩

theorem notMem_of_mem_splitOn {sep : Char} {piece : List Char}
    (mem : piece ∈ text.splitOn sep) : sep ∉ piece := by
  induction text generalizing piece with
  | nil =>
    rw [List.splitOn_nil, List.mem_singleton] at mem
    simp [mem]
  | cons d rest ih =>
    rw [List.splitOn_cons_eq_if_modifyHead] at mem
    split at mem
    · rcases List.mem_cons.1 mem with rfl | later
      · simp
      · exact ih later
    rename_i other
    cases pieces : rest.splitOn sep with
    | nil => exact absurd pieces (List.splitOn_ne_nil _ _)
    | cons first others =>
      rw [pieces] at mem ih
      rw [List.modifyHead_cons] at mem
      rcases List.mem_cons.1 mem with rfl | later
      · rw [List.mem_cons, not_or]
        exact ⟨fun eq => other (by simp [eq]), ih (.head _)⟩
      · exact ih (.tail _ later)

def parts (text : List Char) : List String := (text.splitOn '/').map String.ofList

def trimSlashes (text : List Char) : List Char := (text.dropWhile (· == '/')).rdropWhile (· == '/')

def trimmedParts (path : String) : List String := parts (trimSlashes path.toList)

def segments (path : String) : Option (List String) :=
  match path.toList with
  | '/' :: rest => some (parts rest)
  | _ => none

theorem parts_slash (text : List Char) : parts ('/' :: text) = "" :: parts text := by
  simp [parts, List.splitOn_cons_eq_if_modifyHead]

theorem parts_append_slash (text : List Char) : parts (text ++ ['/']) = parts text ++ [""] := by
  have divided : (text ++ ['/']).splitOn '/' = text.splitOn '/' ++ [[]] := by
    simpa using List.splitOn_append_cons_self (a := '/') text []
  simp [parts, divided]

theorem trimSlashes_of_parts (first : (parts text).head? ≠ some "")
    (last : (parts text).getLast? ≠ some "") : trimSlashes ('/' :: text) = text := by
  have start : ('/' :: text).dropWhile (· == '/') = text := by
    rw [List.dropWhile_cons_of_pos (by simp)]
    cases text with
    | nil => rfl
    | cons c rest =>
      have ne : c ≠ '/' := by
        rintro rfl
        rw [parts_slash] at first
        exact first rfl
      simp [ne]
  unfold trimSlashes
  rw [start, List.rdropWhile_eq_self_iff]
  intro nonempty slash
  have ends : text = text.dropLast ++ ['/'] := by
    rw [← beq_iff_eq.1 slash, List.dropLast_append_getLast]
  rw [ends, parts_append_slash] at last
  exact last (by simp)

/-! ## Patterns -/

inductive Segment where
  | literal (text : String)
  | param (name : String)
  deriving DecidableEq

/-- Whether a pattern segment takes a path segment. -/
def Segment.accepts : Segment → String → Bool
  | .literal text, part => text == part
  | .param _, part => part ≠ ""

/-- The parameters a pattern binds, or nothing when it does not match. -/
def matchSegments : List Segment → List String → Option (List (String × String))
  | [], [] => some []
  | segment :: pattern, part :: rest =>
    if segment.accepts part then
      match segment, matchSegments pattern rest with
      | .param name, some bound => some ((name, part) :: bound)
      | .literal _, some bound => some bound
      | _, none => none
    else none
  | _, _ => none

def matchPath (pattern : List Segment) (path : String) : Option (List (String × String)) :=
  (segments path).bind (matchSegments pattern)

/-- The value of a parameter; an absent one reads as the empty string. -/
def paramValue (bound : List (String × String)) (name : String) : String :=
  (bound.lookup name).getD ""

variable {pattern : List Segment} {found kept : List String} {bound : List (String × String)}

theorem matchSegments_literal_iff {text : String} :
    matchSegments (.literal text :: pattern) found = some bound ↔
      ∃ rest, found = text :: rest ∧ matchSegments pattern rest = some bound := by
  cases found with
  | nil => simp [matchSegments]
  | cons part rest =>
    by_cases same : text = part
    · subst same
      cases remaining : matchSegments pattern rest <;>
        simp [matchSegments, Segment.accepts, remaining]
    · simp [matchSegments, Segment.accepts, same, Ne.symm same]

theorem matchSegments_param_iff {name : String} :
    matchSegments (.param name :: pattern) found = some bound ↔
      ∃ part rest bound', found = part :: rest ∧ part ≠ "" ∧
        matchSegments pattern rest = some bound' ∧ bound = (name, part) :: bound' := by
  cases found with
  | nil => simp [matchSegments]
  | cons part rest =>
    by_cases empty : part = ""
    · simp [matchSegments, Segment.accepts, empty]
    cases remaining : matchSegments pattern rest with
    | none => simp [matchSegments, Segment.accepts, empty, remaining]
    | some bound' => simp [matchSegments, Segment.accepts, empty, remaining, eq_comm]

theorem matchSegments_nil_iff : matchSegments [] found = some bound ↔ found = [] ∧ bound = [] := by
  cases found <;> simp [matchSegments, eq_comm]

theorem ne_empty_of_match (solid : .literal "" ∉ pattern)
    (matched : matchSegments pattern found = some bound) : ∀ part ∈ found, part ≠ "" := by
  induction pattern generalizing found bound with
  | nil =>
    obtain ⟨rfl, -⟩ := matchSegments_nil_iff.1 matched
    simp
  | cons seg pattern ih =>
    have solidRest : .literal "" ∉ pattern := fun mem => solid (by simp [mem])
    cases seg with
    | literal text =>
      obtain ⟨rest, rfl, remaining⟩ := matchSegments_literal_iff.1 matched
      have named : text ≠ "" := by
        rintro rfl
        exact solid (by simp)
      simpa [named] using ih solidRest remaining
    | param name =>
      obtain ⟨part, rest, bound', rfl, ne, remaining, -⟩ := matchSegments_param_iff.1 matched
      simpa [ne] using ih solidRest remaining

variable {path part : String}

/-- **Both readings see the same segments.** -/
theorem trimmedParts_eq_of_match (solid : .literal "" ∉ pattern)
    (matched : matchPath pattern path = some bound) :
    matchSegments pattern (trimmedParts path) = some bound := by
  unfold matchPath at matched
  obtain ⟨found, cut, agreed⟩ := Option.bind_eq_some_iff.1 matched
  have ne := ne_empty_of_match solid agreed
  unfold segments at cut
  split at cut
  next rest absolute =>
    cases cut
    have trimmed : trimSlashes path.toList = rest := by
      rw [absolute]
      refine trimSlashes_of_parts ?_ ?_
      · intro empty
        exact ne "" (List.mem_of_mem_head? empty) rfl
      intro empty
      exact ne "" (List.mem_of_getLast? empty) rfl
    rw [trimmedParts, trimmed]
    exact agreed
  · cases cut

/-! ## Cleaning -/

/-- One part of a path onto the parts kept so far, last part first: empty parts and `.` are
dropped, and `..` takes back the part before it where there is one to take back. -/
def cleanStep (rooted : Bool) (kept : List String) (part : String) : List String :=
  if part = "" ∨ part = "." then kept
  else if part = ".." then
    match kept with
    | [] => if rooted then [] else [".."]
    | top :: rest => if top = ".." then ".." :: kept else rest
  else part :: kept

def isRooted (path : String) : Bool := path.toList.head? == some '/'

/-- The shortest path with the same lexical meaning. -/
def clean (path : String) : String :=
  let kept := ((parts path.toList).foldl (cleanStep (isRooted path)) []).reverse
  let joined := "/".intercalate kept
  if isRooted path then "/" ++ joined else if kept.isEmpty then "." else joined

theorem ne_empty_of_mem_cleanStep {rooted : Bool} (pre : ∀ p ∈ kept, p ≠ "") :
    ∀ p ∈ cleanStep rooted kept part, p ≠ "" := by
  intro p mem
  rw [cleanStep.eq_def] at mem
  split at mem
  · exact pre p mem
  rename_i worthy
  rw [not_or] at worthy
  split at mem
  · split at mem
    · split at mem
      · cases mem
      · rw [List.mem_singleton] at mem
        simp [mem]
    next top rest =>
      split at mem
      · rcases List.mem_cons.1 mem with rfl | later
        · decide
        · exact pre p later
      · exact pre p (.tail _ mem)
  rcases List.mem_cons.1 mem with rfl | later
  · exact worthy.1
  · exact pre p later

theorem clean_ne_empty (path : String) : clean path ≠ "" := by
  have worded : ∀ (pieces kept : List String), (∀ p ∈ kept, p ≠ "") →
      ∀ p ∈ pieces.foldl (cleanStep (isRooted path)) kept, p ≠ "" := by
    intro pieces
    induction pieces with
    | nil => exact fun kept pre => pre
    | cons part rest ih =>
      intro kept pre
      exact ih _ (ne_empty_of_mem_cleanStep pre)
  rw [clean]
  split
  · intro empty
    have lengths := congrArg String.length empty
    rw [String.length_append] at lengths
    simp at lengths
  split
  · decide
  rename_i some
  generalize lasting : ((parts path.toList).foldl (cleanStep (isRooted path)) []).reverse = kept
    at some
  cases kept with
  | nil => simp at some
  | cons first rest =>
    have ne : first ≠ "" := by
      apply worded (parts path.toList) [] (by simp)
      rw [← List.mem_reverse, lasting]
      exact .head _
    intro empty
    apply ne
    have lengths := congrArg String.length empty
    cases rest with
    | nil => simpa using empty
    | cons second others =>
      rw [String.intercalate_cons_cons, String.length_append, String.length_append] at lengths
      simp at lengths

/-! ## Absolute paths that do not climb -/

/-- The characters of a path that are neither separators nor dots. -/
def letters (text : List Char) : List Char := text.filter fun c => c ≠ '/' && c ≠ '.'

theorem letters_append (first second : List Char) :
    letters (first ++ second) = letters first ++ letters second := List.filter_append ..

theorem letters_intercalate (pieces : List (List Char)) :
    letters (['/'].intercalate pieces) = pieces.flatMap letters := by
  induction pieces with
  | nil => rfl
  | cons first rest ih =>
    cases rest with
    | nil => simp
    | cons second others =>
      have slash : letters ['/'] = [] := rfl
      rw [List.intercalate_cons_cons, letters_append, letters_append, ih, slash,
        List.append_nil, List.flatMap_cons (x := first)]

theorem letters_parts (text : List Char) :
    (parts text).flatMap (fun part => letters part.toList) = letters text := by
  have whole : ['/'].intercalate (text.splitOn '/') = text := List.intercalate_splitOn '/'
  conv_rhs => rw [← whole, letters_intercalate]
  rw [parts, List.flatMap_map]
  simp

theorem parts_append (first second : List Char) :
    parts (first ++ '/' :: second) = parts first ++ parts second := by
  rw [parts, List.splitOn_append_cons_self, List.map_append, parts, parts]

theorem parts_intercalate (first : String) (rest : List String) :
    parts ("/".intercalate (first :: rest)).toList =
      (first :: rest).flatMap fun text => parts text.toList := by
  induction rest generalizing first with
  | nil => simp
  | cons second others ih =>
    have slash : "/".toList = ['/'] := rfl
    rw [String.intercalate_cons_cons, String.toList_append, String.toList_append, slash,
      List.append_assoc, List.singleton_append, parts_append, ih,
      List.flatMap_cons (x := first)]

/-- An absolute path with no `..` in it. -/
def Straight (path : String) : Prop := isRooted path = true ∧ ".." ∉ parts path.toList

/-- The parts that say something. -/
def worded (found : List String) : List String := found.filter fun part => part ≠ "" && part ≠ "."

theorem foldl_cleanStep_of_noUp (noUp : ".." ∉ found) :
    found.foldl (cleanStep true) kept = (worded found).reverse ++ kept := by
  induction found generalizing kept with
  | nil => rfl
  | cons part rest ih =>
    rw [List.mem_cons, not_or] at noUp
    rw [List.foldl_cons, ih noUp.2, cleanStep.eq_def, worded, worded]
    by_cases nothing : part = "" ∨ part = "."
    · rw [if_pos nothing, List.filter_cons_of_neg (by simp; tauto)]
    rw [if_neg nothing, if_neg (Ne.symm noUp.1), List.filter_cons_of_pos (by simpa using nothing)]
    simp

theorem Straight.clean_eq (straight : Straight path) :
    clean path = "/" ++ "/".intercalate (worded (parts path.toList)) := by
  rw [clean, straight.1, foldl_cleanStep_of_noUp straight.2, List.append_nil, List.reverse_reverse]
  rfl

theorem letters_worded (found : List String) :
    (worded found).flatMap (fun part => letters part.toList) =
      found.flatMap fun part => letters part.toList := by
  induction found with
  | nil => rfl
  | cons part rest ih =>
    rw [worded, List.filter_cons]
    split
    · rw [List.flatMap_cons, List.flatMap_cons, ← worded, ih]
    rename_i silent
    have nothing : letters part.toList = [] := by
      have either : part = "" ∨ part = "." := by
        simpa [-not_and, Classical.not_and_iff_not_or_not] using silent
      rcases either with rfl | rfl <;> rfl
    rw [List.flatMap_cons, nothing, List.nil_append, ← worded, ih]

/-- Cleaning such a path keeps its characters, but for separators and dots. -/
theorem Straight.letters_clean (straight : Straight path) :
    letters (clean path).toList = letters path.toList := by
  have slash : "/".toList = ['/'] := rfl
  have nothing : letters ['/'] = [] := rfl
  rw [straight.clean_eq, String.toList_append, String.toList_intercalate, slash, letters_append, nothing,
    List.nil_append, letters_intercalate, List.flatMap_map, letters_worded, letters_parts]

theorem slash_notMem_of_mem_parts (mem : part ∈ parts text) : '/' ∉ part.toList := by
  obtain ⟨piece, listed, rfl⟩ := List.mem_map.1 mem
  simpa using notMem_of_mem_splitOn listed

theorem Straight.parts_clean (straight : Straight path) :
    parts (clean path).toList = "" :: if worded (parts path.toList) = [] then [""]
      else worded (parts path.toList) := by
  have slash : "/".toList = ['/'] := rfl
  rw [straight.clean_eq, String.toList_append, String.toList_intercalate, slash, List.singleton_append,
    parts_slash]
  congr 1
  split
  next nothing =>
    rw [nothing]
    rfl
  rename_i something
  have plain : ∀ piece ∈ (worded (parts path.toList)).map String.toList, '/' ∉ piece := by
    intro piece listed
    obtain ⟨part, found, rfl⟩ := List.mem_map.1 listed
    exact slash_notMem_of_mem_parts (List.mem_of_mem_filter found)
  rw [parts, List.splitOn_intercalate '/' plain (by simpa using something), List.map_map]
  simp [Function.comp_def]

theorem Straight.clean (straight : Straight path) : Straight (clean path) := by
  constructor
  · rw [straight.clean_eq, isRooted, String.toList_append]
    rfl
  rw [straight.parts_clean, List.mem_cons, not_or]
  refine ⟨by decide, ?_⟩
  split
  · decide
  · exact fun mem => straight.2 (List.mem_of_mem_filter mem)

end Foundations.Paths
