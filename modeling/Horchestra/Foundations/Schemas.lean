import Horchestra.Foundations.Records
import Mathlib.Data.List.Dedup
import Mathlib.Data.List.Induction

/-!
# Schemas derived from types

A schema is read off a type's tags.  It judges a document the way a map holds it, with the last
member of every name (`accepts`), while decoding takes every member.  So a document that is accepted
may still be decoded into something else than what was judged: an object that is given twice is
filled in twice, and what the first has and the second leaves out stays.

* `Settled` says of a document, and of those decoded into the same place before it, that nothing
  stays.
* `build_eq_iff_settled`: for an accepted document, that is exactly when decoding gives what
  decoding the judged document alone gives.
* `meets_build_judged`: what decoding the judged document gives is within the schema's bounds.
-/

namespace Foundations.Schemas

open Foundations Text Documents Records

/-! ## Bounds -/

def allowsText (rules : Rules) (text : String) : Bool :=
  (rules.enum.isEmpty || rules.enum.contains text) &&
    (rules.minLength.all fun bound => bound ≤ text.length) &&
    (rules.maxLength.all fun bound => text.length ≤ bound)

def allowsInteger (rules : Rules) (n : Int) : Bool :=
  (rules.minimum.all fun bound => bound ≤ n) && (rules.maximum.all fun bound => n ≤ bound)

/-! ## Judging a document -/

def acceptsLeaf : Leaf → Rules → Doc → Bool
  | .text, rules, .str _ text => allowsText rules text
  | .flag, _, .bool _ => true
  | .integer _, rules, .num text => (integerValue text).any (allowsInteger rules)
  | .bytes, _, .str _ _ => true
  | .any, _, _ => true
  | .raw, _, _ => true
  | .literal, _, .str _ _ => true
  | .stamp, _, .str _ _ => true
  | _, _, _ => false

mutual

/-- A document is within the schema of a shape.  A record that is open asks for a name and leaves
the rest alone. -/
def accepts : Shape → Rules → Doc → Bool
  | .leaf leaf, rules, doc => acceptsLeaf leaf rules doc
  | .pointer pointee, rules, doc => accepts pointee rules doc
  | .slice item, _, doc =>
    match doc with
    | .arr _ items => items.all (accepts item {})
    | _ => false
  | .map value, _, doc =>
    match doc with
    | .obj _ members => members.all fun member => accepts value {} member.2
    | _ => false
  | .record .opened _, _, doc =>
    match doc with
    | .obj _ members =>
      match lastOf "name" members with
      | some (.str _ name) => 1 ≤ name.length
      | _ => false
    | _ => false
  | .record _ fields, _, doc =>
    match doc with
    | .obj _ members =>
      acceptsFields fields members &&
        members.all fun member => (namesOf fields).contains member.1
    | _ => false

def acceptsFields : List (Tag × Shape) → Members → Bool
  | [], _ => true
  | (tag, shape) :: rest, members =>
    (match lastOf tag.name members with
      | some doc => accepts shape tag.rules doc
      | none => tag.optional) &&
    acceptsFields rest members

end

/-! ## Filling in defaults -/

/-- The defaults a schema declares: for the value itself, for its properties and for its items. -/
inductive DefaultNode where
  | node (value : Option Doc) (properties : List (String × DefaultNode)) (item : Option DefaultNode)

mutual

/-- The defaults a schema declares at every depth, or nothing when it declares none. -/
def collectDefaults : Shape → Option DefaultNode
  | .pointer pointee => collectDefaults pointee
  | .slice item => (collectDefaults item).map fun node => .node none [] (some node)
  | .record .opened _ => none
  | .record _ fields =>
    match collectProperties fields with
    | [] => none
    | properties => some (.node none properties none)
  | _ => none

def collectProperties : List (Tag × Shape) → List (String × DefaultNode)
  | [] => []
  | (tag, shape) :: rest =>
    match collectDefaults shape, tag.default with
    | none, none => collectProperties rest
    | none, some value => (tag.name, .node (some value) [] none) :: collectProperties rest
    | some (.node _ properties item), value =>
      (tag.name, .node value properties item) :: collectProperties rest

end

def replaceMember (name : String) (value : Doc) (members : Members) : Members :=
  members.map fun member => if member.1 = name then (name, value) else member

mutual

/-- Fills in what a document leaves out, and says whether anything was. -/
def applyDefaults : DefaultNode → Doc → Doc × Bool
  | .node _ properties _, .obj source members =>
    let filled := applyProperties properties members
    (.obj source filled.1, filled.2)
  | .node _ _ (some item), .arr source items =>
    let filled := items.map (applyDefaults item)
    (.arr source (filled.map (·.1)), filled.any (·.2))
  | _, doc => (doc, false)

def applyProperties : List (String × DefaultNode) → Members → Members × Bool
  | [], members => (members, false)
  | (name, .node value properties item) :: rest, members =>
    match lastOf name members with
    | some current =>
      let filled := applyDefaults (.node value properties item) current
      let others := applyProperties rest (replaceMember name filled.1 members)
      (others.1, filled.2 || others.2)
    | none =>
      match value with
      | some value =>
        let others := applyProperties rest (setMember name value members)
        (others.1, true)
      | none => applyProperties rest members

end

/-! ## What repeated names leave behind -/

variable (hooks : Hooks)

mutual

/-- Documents decoded into a fresh value one after the other leave it as it was. -/
def Idle : Shape → List Doc → Prop
  | .leaf leaf, docs => docs.foldl (leafStep hooks leaf) leaf.zero = leaf.zero
  | .pointer _, docs => sinceNull docs = []
  | .slice _, docs => sinceEmpty docs = []
  | .map _, docs => (sinceNull docs).flatMap Doc.members = []
  | .record _ fields, docs => IdleFields (namesOf fields) fields (docs.flatMap Doc.members)

def IdleFields (names : List String) : List (Tag × Shape) → Members → Prop
  | [], _ => True
  | (tag, shape) :: rest, members =>
    Idle shape (named names tag.name members) ∧ IdleFields names rest members

end

mutual

/-- Nothing of the earlier documents is left once the last is decoded over them, and nothing of the
earlier members of a name inside it: a field that the last one leaves out is as it was. -/
def Settled : Shape → List Doc → Doc → Prop
  | .leaf _, _, _ => True
  | .pointer pointee, earlier, last => Settled pointee (sinceNull earlier) last
  | .slice item, earlier, last => ∀ (i : Nat) (doc : Doc), last.items[i]? = some doc →
      Settled item ((sinceEmpty earlier).filterMap (·[i]?)) doc
  | .map value, earlier, last =>
    (∀ name doc, (name, doc) ∈ (sinceNull earlier).flatMap Doc.members →
      ∃ doc, (name, doc) ∈ last.members) ∧
    ∀ name doc, lastOf name last.members = some doc → Settled value [] doc
  | .record _ fields, earlier, last =>
    SettledFields (namesOf fields) fields (earlier.flatMap Doc.members) last.members

def SettledFields (names : List String) : List (Tag × Shape) → Members → Members → Prop
  | [], _, _ => True
  | (tag, shape) :: rest, earlier, last =>
    (match lastOf tag.name last with
      | none => Idle hooks shape (named names tag.name earlier)
      | some doc =>
        Settled shape (named names tag.name earlier ++ (occurrences tag.name last).dropLast)
          doc) ∧
    SettledFields names rest earlier last

end

/-! ## Bounds on typed values -/

mutual

/-- A typed value is within the bounds of its schema. -/
def Meets : Shape → Rules → TypedValue → Prop
  | .leaf leaf, rules, value =>
    match leaf, value with
    | .text, .leaf (.text text) => allowsText rules text
    | .integer _, .leaf (.integer n) => allowsInteger rules n
    | _, _ => True
  | .pointer pointee, rules, value => ∃ target, value = .pointer (some target) ∧
      Meets pointee rules target
  | .slice item, _, value => ∃ items, value = .slice items ∧ ∀ entry ∈ items, Meets item {} entry
  | .map element, _, value => ∃ entries, value = .map entries ∧
      ∀ entry ∈ entries, Meets element {} entry.2
  | .record _ fields, _, value => ∃ values, value = .record values ∧ MeetsFields fields values

/-- Every field is within its bounds; one that may be left out may also have the value it has when
it is left out. -/
def MeetsFields : List (Tag × Shape) → List TypedValue → Prop
  | [], values => values = []
  | (tag, shape) :: rest, values => ∃ value others, values = value :: others ∧
      ((tag.optional ∧ value = build hooks shape []) ∨ Meets shape tag.rules value) ∧
      MeetsFields rest others

end

/-! ## Shapes whose schema closes them -/

def takesAny : Shape → Bool
  | .leaf .any => true
  | _ => false

mutual

/-- No record of the shape is open or has two fields of a name, nothing keeps the text it is given,
and no pointer points to something that takes `null` itself. -/
def isRegular : Shape → Bool
  | .leaf leaf => leaf != .raw
  | .pointer pointee => !takesAny pointee.target && isRegular pointee
  | .slice item => isRegular item
  | .map value => isRegular value
  | .record kind fields => kind != .opened && decide (namesOf fields).Nodup && areRegular fields

def areRegular : List (Tag × Shape) → Bool
  | [] => true
  | (_, shape) :: rest => isRegular shape && areRegular rest

end

variable {hooks}

/-! ## Documents decoded into one place -/

variable {docs items : List Doc} {doc : Doc}

theorem sinceNull_append (given : doc ≠ .null) :
    sinceNull (docs ++ [doc]) = sinceNull docs ++ [doc] := by
  rw [sinceNull, List.foldl_append, List.foldl_cons, List.foldl_nil]
  cases doc with
  | null => contradiction
  | _ => rfl

theorem sinceEmpty_append {src : String} (given : items ≠ []) :
    sinceEmpty (docs ++ [.arr src items]) = sinceEmpty docs ++ [items] := by
  rw [sinceEmpty, List.foldl_append, List.foldl_cons, List.foldl_nil]
  cases items with
  | nil => contradiction
  | cons item rest => rfl

theorem sinceEmpty_append_nil (docs : List Doc) (src : String) :
    sinceEmpty (docs ++ [.arr src []]) = [] := by
  rw [sinceEmpty, List.foldl_append, List.foldl_cons, List.foldl_nil]

theorem ne_nil_of_mem_sinceEmpty (mem : items ∈ sinceEmpty docs) : items ≠ [] := by
  induction docs using List.reverseRecOn with
  | nil => cases mem
  | append_singleton docs doc ih =>
    cases doc with
    | arr source list =>
      cases list with
      | nil =>
        rw [sinceEmpty_append_nil] at mem
        cases mem
      | cons item rest =>
        rw [sinceEmpty_append (List.cons_ne_nil _ _)] at mem
        rcases List.mem_append.1 mem with mem | mem
        · exact ih mem
        rw [List.mem_singleton.1 mem]
        exact List.cons_ne_nil _ _
    | null =>
      rw [sinceEmpty, List.foldl_append, List.foldl_cons, List.foldl_nil] at mem
      cases mem
    | _ =>
      rw [sinceEmpty, List.foldl_append, List.foldl_cons, List.foldl_nil] at mem
      exact ih mem

variable {name : String} {members : Members}

theorem mem_keysOf : name ∈ keysOf members ↔ ∃ doc, (name, doc) ∈ members := by simp [keysOf]

theorem keysOf_eq_iff {first second : Members} :
    keysOf first = keysOf second ↔ ∀ name, name ∈ keysOf first ↔ name ∈ keysOf second := by
  constructor
  · intro eq name
    rw [eq]
  intro eq
  have nodup : ∀ members : Members, (keysOf members).Nodup := fun members =>
    ((List.perm_insertionSort _ _).nodup_iff).2 (List.nodup_dedup _)
  have sorted : ∀ members : Members, (keysOf members).Pairwise (· ≤ ·) := fun members =>
    List.pairwise_insertionSort _ _
  exact ((List.perm_ext_iff_of_nodup (nodup first) (nodup second)).2 eq).eq_of_pairwise'
    (sorted first) (sorted second)

theorem keysOf_eq_nil_iff : keysOf members = [] ↔ members = [] := by
  constructor
  · intro empty
    rw [List.eq_nil_iff_forall_not_mem]
    rintro ⟨name, doc⟩ mem
    have listed : name ∈ keysOf members := mem_keysOf.2 ⟨doc, mem⟩
    rw [empty] at listed
    cases listed
  rintro rfl
  rfl

mutual

theorem build_eq_zero_iff : ∀ (shape : Shape) (docs : List Doc),
    build hooks shape docs = build hooks shape [] ↔ Idle hooks shape docs
  | .leaf leaf, docs => by simp [build, Idle]
  | .pointer pointee, docs => by
    simp only [build, Idle, TypedValue.pointer.injEq]
    rw [if_pos (show sinceNull [] = [] from rfl)]
    split <;> simp_all
  | .slice item, docs => by
    simp only [build, Idle, TypedValue.slice.injEq]
    constructor
    · intro eq
      by_contra given
      have short : ((sinceEmpty docs).getLastD []).length = 0 := by
        simpa [sinceEmpty] using congrArg List.length eq
      rw [List.getLastD_eq_getLast?, List.getLast?_eq_some_getLast given, Option.getD_some,
        List.length_eq_zero_iff] at short
      exact ne_nil_of_mem_sinceEmpty (List.getLast_mem given) short
    intro empty
    rw [empty]
    rfl
  | .map v, docs => by
    simp only [build, Idle, TypedValue.map.injEq]
    rw [show (keysOf ((sinceNull []).flatMap Doc.members)) = [] from rfl, List.map_nil,
      List.map_eq_nil_iff, keysOf_eq_nil_iff]
  | .record kind fields, docs => by
    simp only [build, Idle, TypedValue.record.injEq]
    exact buildFields_eq_zero_iff (namesOf fields) fields _

theorem buildFields_eq_zero_iff (names : List String) : ∀ (fields : List (Tag × Shape))
    (members : Members),
    buildFields hooks names fields members = buildFields hooks names fields [] ↔
      IdleFields hooks names fields members
  | [], _ => by simp [buildFields, IdleFields]
  | (tag, shape) :: rest, members => by
    simp only [buildFields, IdleFields, List.cons.injEq]
    rw [show named names tag.name [] = [] from rfl, build_eq_zero_iff shape,
      buildFields_eq_zero_iff names rest]

end

/-! ## Accepted documents -/

variable {leaf : Leaf} {rules : Rules}

theorem leafStep_of_accepted (regular : leaf ≠ .raw) (ok : acceptsLeaf leaf rules doc.asMap)
    (clean : (visitLeaf hooks leaf doc).ending = .done true) (old : LeafValue) :
    leafStep hooks leaf old doc = leafStep hooks leaf leaf.zero doc.asMap := by
  cases leaf with
  | raw => contradiction
  | any => simp only [leafStep, asMap_asMap]
  | text | flag => cases doc <;> simp_all [acceptsLeaf, Doc.asMap, leafStep]
  | integer bits =>
    cases doc with
    | num text =>
      obtain ⟨n, dec⟩ := Option.isSome_iff_exists.1 (Ending.done.inj clean)
      simp [leafStep, Doc.asMap, dec]
    | _ => simp [acceptsLeaf, Doc.asMap] at ok
  | bytes =>
    cases doc with
    | str raw text =>
      obtain ⟨n, dec⟩ := Option.isSome_iff_exists.1 (Ending.done.inj clean)
      simp [leafStep, Doc.asMap, dec]
    | _ => simp [acceptsLeaf, Doc.asMap] at ok
  | literal =>
    cases doc with
    | str raw text =>
      have parses : hooks.parsesLiteral (literalOf (.str raw text)) := by
        simp only [visitLeaf] at clean
        split at clean
        · assumption
        · cases clean
      simp [leafStep, Doc.asMap, parses]
    | _ => simp [acceptsLeaf, Doc.asMap] at ok
  | stamp =>
    cases doc with
    | str raw text =>
      have parses : hooks.parsesStamp text := by
        simp only [visitLeaf] at clean
        split at clean
        · assumption
        · cases clean
      simp [leafStep, Doc.asMap, parses]
    | _ => simp [acceptsLeaf, Doc.asMap] at ok

/-- Only a value of any type at all may be `null`. -/
theorem takesAny_of_accepts_null : ∀ {shape : Shape} {rules : Rules}, isRegular shape →
    accepts shape rules .null → takesAny shape.target
  | .leaf leaf, _, regular, ok => by
    cases leaf with
    | any => rfl
    | raw => cases regular
    | _ => cases ok
  | .pointer pointee, _, regular, ok => by
    rw [isRegular, Bool.and_eq_true] at regular
    exact @takesAny_of_accepts_null pointee _ regular.2 ok
  | .slice _, _, _, ok => absurd ok Bool.false_ne_true
  | .map _, _, _, ok => absurd ok Bool.false_ne_true
  | .record kind _, _, _, ok => by cases kind <;> cases ok

theorem eq_null_of_asMap (null : doc.asMap = .null) : doc = .null := by
  cases doc <;> simp_all [Doc.asMap]

theorem exists_obj_of_accepts_record {kind : RecordKind} (closed : kind ≠ .opened)
    {fields : Fields} (ok : accepts (.record kind fields) rules doc.asMap) :
    ∃ src members, doc = .obj src members ∧
      acceptsFields fields (lastMembers (Doc.asMapMembers members)) ∧
      ∀ name v, (name, v) ∈ members → name ∈ namesOf fields := by
  cases doc with
  | obj src members =>
    refine ⟨src, members, rfl, ?_⟩
    have both : acceptsFields fields (lastMembers (Doc.asMapMembers members)) &&
        (lastMembers (Doc.asMapMembers members)).all
          fun member => (namesOf fields).contains member.1 := by
      cases kind with
      | opened => contradiction
      | _ => exact ok
    rw [Bool.and_eq_true, List.all_eq_true] at both
    refine ⟨both.1, fun name v mem => ?_⟩
    have mapped : (name, v.asMap) ∈ Doc.asMapMembers members := by
      rw [asMapMembers_eq_map]
      exact List.mem_map.2 ⟨_, mem, rfl⟩
    obtain ⟨last, held⟩ := exists_mem_lastMembers mapped
    simpa using both.2 _ held
  | _ => cases kind <;> cases ok

theorem accepts_of_acceptsFields : ∀ {fields : Fields} {members : Members},
    acceptsFields fields members → ∀ {tag : Tag} {shape : Shape}, (tag, shape) ∈ fields →
      match lastOf tag.name members with
      | some doc => accepts shape tag.rules doc
      | none => tag.optional
  | [], _, _, _, _, mem => absurd mem List.not_mem_nil
  | (_, _) :: rest, members, ok, _, _, mem => by
    rw [acceptsFields, Bool.and_eq_true] at ok
    rcases List.mem_cons.1 mem with eq | mem
    · cases eq
      have first := ok.1
      split <;> simp_all
    · exact accepts_of_acceptsFields ok.2 mem

/-! ## Decoding an accepted document -/

variable {names : List String}

theorem named_of_known (known : ∀ name v, (name, v) ∈ members → name ∈ names)
    (field : String) : named names field members = occurrences field members := by
  induction members with
  | nil => rfl
  | cons member rest ih =>
    obtain ⟨name, v⟩ := member
    have first : resolve names name = some name := if_pos (known name v (.head _))
    have others := ih fun name v mem =>
      known name v (.tail _ mem)
    rw [occurrences_cons, ← others]
    simp only [named, List.filterMap_cons, first, Option.some.injEq]
    split <;> simp_all

theorem named_append (names : List String) (field : String) (first second : Members) :
    named names field (first ++ second) = named names field first ++ named names field second :=
  List.filterMap_append

theorem named_judged (known : ∀ name v, (name, v) ∈ members → name ∈ names)
    (f : String) :
    named names f (lastMembers (Doc.asMapMembers members)) =
      ((lastOf f members).map Doc.asMap).toList := by
  rw [named_of_known, occurrences_lastMembers, lastOf_asMapMembers]
  intro name v mem
  have occurs := List.mem_of_getLast? (mem_lastMembers.1 mem)
  rw [occurrences_asMapMembers] at occurs
  obtain ⟨original, mem, _⟩ := List.mem_map.1 occurs
  exact known name original (mem_occurrences.1 mem)

theorem occurrences_eq_dropLast_append (last : lastOf name members = some doc) :
    occurrences name members = (occurrences name members).dropLast ++ [doc] :=
  (List.dropLast_append_getLast? doc last).symm

theorem exists_arr_of_accepts_slice {item : Shape}
    (ok : accepts (.slice item) rules doc.asMap) :
    ∃ src items, doc = .arr src items ∧ ∀ e ∈ items, accepts item {} e.asMap := by
  cases doc with
  | arr src items =>
    refine ⟨src, items, rfl, fun e mem => ?_⟩
    simp only [Doc.asMap, accepts, asMaps_eq_map, List.all_map, List.all_eq_true] at ok
    exact ok e mem
  | _ => cases ok

theorem exists_obj_of_accepts_map {v : Shape}
    (ok : accepts (.map v) rules doc.asMap) :
    ∃ src members, doc = .obj src members ∧
      ∀ name held, lastOf name members = some held → accepts v {} held.asMap := by
  cases doc with
  | obj src members =>
    refine ⟨src, members, rfl, fun name held last => ?_⟩
    simp only [Doc.asMap, accepts, List.all_eq_true] at ok
    refine ok (name, held.asMap) (mem_lastMembers.2 ?_)
    rw [lastOf_asMapMembers, last, Option.map_some]
  | _ => cases ok

theorem build_slice_judged (item : Shape) (src : String) (items : List Doc) :
    build hooks (.slice item) [Doc.asMap (.arr src items)] =
      .slice (items.map fun doc => build hooks item [doc.asMap]) := by
  by_cases empty : items = []
  · subst empty
    rfl
  have given : Doc.asMaps items ≠ [] := by simpa [asMaps_eq_map] using empty
  have judged : sinceEmpty ([] ++ [.arr src (Doc.asMaps items)]) = [] ++ [Doc.asMaps items] :=
    sinceEmpty_append given
  rw [List.nil_append, List.nil_append] at judged
  simp only [build, Doc.asMap, judged, TypedValue.slice.injEq, List.getLastD_cons,
    List.getLastD_nil]
  refine List.ext_getElem? fun i => ?_
  by_cases short : i < items.length
  · simp [asMaps_eq_map, short]
  · simp [asMaps_eq_map, short]

theorem build_slice_eq_iff (item : Shape) (past : List Doc) (src : String)
    (items : List Doc) :
    build hooks (.slice item) (past ++ [.arr src items]) =
        build hooks (.slice item) [Doc.asMap (.arr src items)] ↔
      ∀ (i : Nat) (doc : Doc), items[i]? = some doc →
        build hooks item ((sinceEmpty past).filterMap (·[i]?) ++ [doc]) =
          build hooks item [doc.asMap] := by
  rw [build_slice_judged]
  by_cases empty : items = []
  · subst empty
    simp [build, sinceEmpty_append_nil]
  simp only [build, sinceEmpty_append empty, TypedValue.slice.injEq, List.getLastD_concat,
    List.filterMap_append]
  constructor
  · intro eq i doc found
    obtain ⟨short, rfl⟩ := List.getElem?_eq_some_iff.1 found
    have equal := congrArg (·[i]?) eq
    simpa [short] using equal
  intro eq
  refine List.ext_getElem? fun i => ?_
  by_cases short : i < items.length
  · have equal := eq i _ (List.getElem?_eq_getElem short)
    simpa [short] using equal
  · simp [short]

theorem map_keys_eq_iff {first second : List String} {one two : String → TypedValue} :
    (first.map fun name => (name, one name)) = (second.map fun name => (name, two name)) ↔
      first = second ∧ ∀ name ∈ first, one name = two name := by
  constructor
  · intro eq
    have keys : first = second := by
      simpa [Function.comp_def] using congrArg (List.map Prod.fst) eq
    subst keys
    exact ⟨rfl, fun name mem => (Prod.mk.inj (List.map_inj_left.1 eq name mem)).2⟩
  rintro ⟨rfl, eq⟩
  exact List.map_inj_left.2 fun name mem => by rw [eq name mem]

theorem keysOf_judged (members : Members) :
    keysOf (lastMembers (Doc.asMapMembers members)) = keysOf members := by
  rw [keysOf_eq_iff]
  intro name
  rw [mem_keysOf, mem_keysOf]
  constructor
  · rintro ⟨held, mem⟩
    have last := mem_lastMembers.1 mem
    rw [lastOf_asMapMembers] at last
    obtain ⟨doc, found, _⟩ := Option.map_eq_some_iff.1 last
    exact ⟨doc, mem_of_lastOf found⟩
  rintro ⟨doc, mem⟩
  obtain ⟨last, found⟩ := exists_lastOf mem
  refine ⟨last.asMap, mem_lastMembers.2 ?_⟩
  rw [lastOf_asMapMembers, found, Option.map_some]

theorem build_map_judged (v : Shape) (src : String) (members : Members) :
    build hooks (.map v) [Doc.asMap (.obj src members)] =
      .map ((keysOf members).map fun name =>
        (name, build hooks v ((lastOf name members).map Doc.asMap).toList)) := by
  have judged : (sinceNull [Doc.asMap (.obj src members)]).flatMap Doc.members =
      lastMembers (Doc.asMapMembers members) := by
    simp [Doc.asMap, sinceNull, Doc.members]
  simp only [build, judged, keysOf_judged, lastOf_lastMembers, lastOf_asMapMembers]

/-- A map gains members, each of them fresh. -/
theorem build_map_eq_iff (v : Shape) (past : List Doc) (src : String)
    (members : Members) :
    build hooks (.map v) (past ++ [.obj src members]) =
        build hooks (.map v) [Doc.asMap (.obj src members)] ↔
      (∀ name doc, (name, doc) ∈ (sinceNull past).flatMap Doc.members →
        ∃ doc, (name, doc) ∈ members) ∧
      ∀ name doc, lastOf name members = some doc →
        build hooks v [doc] = build hooks v [doc.asMap] := by
  have all : (sinceNull (past ++ [.obj src members])).flatMap Doc.members =
      (sinceNull past).flatMap Doc.members ++ members := by
    rw [sinceNull_append Doc.noConfusion]
    simp [Doc.members]
  rw [build_map_judged]
  simp only [build, all, TypedValue.map.injEq, map_keys_eq_iff]
  generalize (sinceNull past).flatMap Doc.members = pre
  have keys : keysOf (pre ++ members) = keysOf members ↔
      ∀ name doc, (name, doc) ∈ pre → ∃ doc, (name, doc) ∈ members := by
    rw [keysOf_eq_iff]
    simp only [mem_keysOf, List.mem_append]
    constructor
    · exact fun eq name doc mem => (eq name).1 ⟨doc, .inl mem⟩
    intro covered name
    constructor
    · rintro ⟨doc, mem | mem⟩
      · exact covered name doc mem
      · exact ⟨doc, mem⟩
    · exact fun ⟨doc, mem⟩ => ⟨doc, .inr mem⟩
  rw [keys]
  refine and_congr_right fun covered => ?_
  rw [keys.2 covered]
  constructor
  · intro eq name doc found
    have equal := eq name (mem_keysOf.2 ⟨doc, mem_of_lastOf found⟩)
    rw [lastOf_append_of_some found, found] at equal
    exact equal
  intro eq name mem
  obtain ⟨doc, mem⟩ := mem_keysOf.1 mem
  obtain ⟨last, found⟩ := exists_lastOf mem
  rw [lastOf_append_of_some found, found]
  exact eq name last found

mutual

/-- **Decoding and judging agree where nothing is left behind.** -/
theorem build_eq_iff_settled : ∀ (shape : Shape) (rules : Rules) (past : List Doc) (last : Doc),
    isRegular shape → accepts shape rules last.asMap →
    (visit hooks last shape).ending = .done true →
    (build hooks shape (past ++ [last]) = build hooks shape [last.asMap] ↔
      Settled hooks shape past last)
  | .leaf leaf, rules, past, last, regular, ok, clean => by
    rw [visit_of_leaf (show (Shape.leaf leaf).target = .leaf leaf from rfl)] at clean
    have step := leafStep_of_accepted (by simpa [isRegular] using regular) ok clean
    simp [build, Settled, List.foldl_append, step]
  | .pointer pointee, rules, past, last, regular, ok, clean => by
    rw [isRegular, Bool.and_eq_true] at regular
    have given : last ≠ .null := by
      rintro rfl
      have any : takesAny pointee.target := takesAny_of_accepts_null regular.2 ok
      simp [any] at regular
    have givenMap : last.asMap ≠ .null := fun null => given (eq_null_of_asMap null)
    have single : sinceNull ([] ++ [last.asMap]) = [] ++ [last.asMap] := sinceNull_append givenMap
    rw [List.nil_append] at single
    rw [visit_pointer] at clean
    have inner := build_eq_iff_settled pointee rules (sinceNull past) last regular.2 ok
      clean
    simp only [build, sinceNull_append given, single, Settled, TypedValue.pointer.injEq]
    simpa using inner
  | .slice item, rules, past, last, regular, ok, clean => by
    obtain ⟨src, items, rfl, acceptedItems⟩ := exists_arr_of_accepts_slice ok
    rw [visit] at clean
    rw [build_slice_eq_iff]
    refine forall_congr' fun i => forall_congr' fun doc => forall_congr' fun found => ?_
    have mem := List.mem_of_getElem? found
    exact build_eq_iff_settled item {} _ doc regular (acceptedItems doc mem) (clean_visitItems.1 clean doc mem)
  | .map v, rules, past, last, regular, ok, clean => by
    obtain ⟨src, members, rfl, acceptedMembers⟩ := exists_obj_of_accepts_map ok
    rw [visit] at clean
    rw [build_map_eq_iff]
    refine and_congr_right fun _ => forall_congr' fun name => forall_congr' fun doc =>
      forall_congr' fun found => ?_
    exact build_eq_iff_settled v {} [] doc regular (acceptedMembers name doc found)
      (clean_visitMembers clean (mem_of_lastOf found) rfl)
  | .record kind fields, rules, past, last, regular, ok, clean => by
    simp only [isRegular, Bool.and_eq_true, bne_iff_ne, decide_eq_true_eq] at regular
    obtain ⟨⟨closed, nodup⟩, regularFields⟩ := regular
    obtain ⟨src, members, rfl, acceptedFields, known⟩ :=
      exists_obj_of_accepts_record closed ok
    have inner := buildFields_eq_iff_settled (namesOf fields) fields
      (past.flatMap Doc.members) members regularFields acceptedFields known
      fun tag shape mem v given => clean_visit_record clean given (shapeOf_of_mem nodup mem)
    simp only [build, Settled, TypedValue.record.injEq, List.flatMap_append, List.flatMap_cons,
      List.flatMap_nil, List.append_nil, Doc.members, Doc.asMap]
    exact inner

theorem buildFields_eq_iff_settled (names : List String) : ∀ (fields : List (Tag × Shape))
    (past last : Members), areRegular fields →
    acceptsFields fields (lastMembers (Doc.asMapMembers last)) →
    (∀ name v, (name, v) ∈ last → name ∈ names) →
    (∀ tag shape, (tag, shape) ∈ fields → ∀ v, (tag.name, v) ∈ last →
      (visit hooks v shape).ending = .done true) →
    (buildFields hooks names fields (past ++ last) =
        buildFields hooks names fields (lastMembers (Doc.asMapMembers last)) ↔
      SettledFields hooks names fields past last)
  | [], _, _, _, _, _, _ => by simp [buildFields, SettledFields]
  | (tag, shape) :: rest, past, last, regular, ok, known, clean => by
    rw [areRegular, Bool.and_eq_true] at regular
    have first := accepts_of_acceptsFields ok (.head _)
    rw [acceptsFields, Bool.and_eq_true] at ok
    have others := buildFields_eq_iff_settled names rest past last regular.2 ok.2 known
      fun tag shape mem => clean tag shape (.tail _ mem)
    simp only [buildFields, SettledFields, List.cons.injEq]
    rw [others, named_append, named_of_known known, named_judged known]
    refine and_congr_left fun _ => ?_
    rw [lastOf_lastMembers, lastOf_asMapMembers] at first
    cases found : lastOf tag.name last with
    | none =>
      rw [lastOf_eq_none_iff.1 found, List.append_nil]
      exact build_eq_zero_iff shape _
    | some doc =>
      rw [found] at first
      rw [occurrences_eq_dropLast_append found, ← List.append_assoc, List.dropLast_concat]
      exact build_eq_iff_settled shape tag.rules _ doc regular.1 first
        (clean tag shape (.head _) doc (mem_of_lastOf found))

end

/-! ## Documents without repeated names -/

theorem distinct_of_getElem? {item : Doc} (nodup : Distinct doc) {i : Nat}
    (found : doc.items[i]? = some item) : Distinct item := by
  cases doc with
  | arr source items => exact allDistinct_iff.1 nodup item (List.mem_of_getElem? found)
  | _ => simp [Doc.items] at found

theorem distinct_members (nodup : Distinct doc) :
    (doc.members.map (·.1)).Nodup ∧ MembersDistinct doc.members := by
  cases doc with
  | obj source members => exact nodup
  | _ => exact ⟨List.nodup_nil, trivial⟩

mutual

theorem settled_of_distinct : ∀ (shape : Shape) {doc : Doc}, Distinct doc →
    Settled hooks shape [] doc
  | .leaf _, _, _ => trivial
  | .pointer pointee, _, nodup => settled_of_distinct pointee nodup
  | .slice item, _, nodup => fun _ _ found =>
    settled_of_distinct item (distinct_of_getElem? nodup found)
  | .map v, _, nodup =>
    ⟨fun _ _ mem => absurd mem List.not_mem_nil, fun _ _ found => settled_of_distinct v
      (membersDistinct_iff.1 (distinct_members nodup).2 _ _ (mem_of_lastOf found))⟩
  | .record _ fields, _, nodup =>
    settledFields_of_distinct (namesOf fields) fields (distinct_members nodup)

theorem settledFields_of_distinct (names : List String) : ∀ (fields : List (Tag × Shape))
    {members : Members}, (members.map (·.1)).Nodup ∧ MembersDistinct members →
    SettledFields hooks names fields [] members
  | [], _, _ => trivial
  | (tag, shape) :: rest, members, nodup => by
    refine ⟨?_, settledFields_of_distinct names rest nodup⟩
    cases found : lastOf tag.name members with
    | none => exact (build_eq_zero_iff shape []).1 rfl
    | some doc =>
      have once : (occurrences tag.name members).dropLast = [] := by
        rw [occurrences_of_nodup nodup.1, found]
        rfl
      dsimp only
      rw [once]
      exact settled_of_distinct shape
        (membersDistinct_iff.1 nodup.2 _ _ (mem_of_lastOf found))

end

/-! ## The judged document is within bounds once it is decoded -/

theorem meets_leaf (ok : acceptsLeaf leaf rules doc.asMap)
    (clean : (visitLeaf hooks leaf doc).ending = .done true) :
    Meets hooks (.leaf leaf) rules (build hooks (.leaf leaf) [doc.asMap]) := by
  cases leaf with
  | text =>
    cases doc with
    | str raw text => simpa [Meets, build, leafStep, Doc.asMap, acceptsLeaf] using ok
    | _ => cases ok
  | integer bits =>
    cases doc with
    | num text =>
      obtain ⟨n, dec⟩ := Option.isSome_iff_exists.1 (Ending.done.inj clean)
      have v : integerValue text = some n := by
        unfold decodeInteger at dec
        split at dec
        next read =>
          split at dec
          · cases dec
            exact integerValue_of_parseInt64 read
          · cases dec
        · cases dec
      simp only [acceptsLeaf, Doc.asMap, v, Option.any_some] at ok
      simpa [Meets, build, leafStep, Doc.asMap, dec] using ok
    | _ => cases ok
  | _ => simp [Meets]

mutual

/-- **What the judged document is decoded into is within the bounds of the schema.** -/
theorem meets_build_judged : ∀ (shape : Shape) {rules : Rules} {doc : Doc}, isRegular shape →
    accepts shape rules doc.asMap → (visit hooks doc shape).ending = .done true →
    Meets hooks shape rules (build hooks shape [doc.asMap])
  | .leaf leaf, rules, doc, regular, ok, clean => by
    rw [visit_of_leaf (show (Shape.leaf leaf).target = .leaf leaf from rfl)] at clean
    exact meets_leaf ok clean
  | .pointer pointee, rules, doc, regular, ok, clean => by
    rw [isRegular, Bool.and_eq_true] at regular
    rw [visit_pointer] at clean
    have given : doc.asMap ≠ .null := by
      intro null
      rw [null] at ok
      have any : takesAny pointee.target := takesAny_of_accepts_null regular.2 ok
      simp [any] at regular
    have single : sinceNull ([] ++ [doc.asMap]) = [] ++ [doc.asMap] := sinceNull_append given
    rw [List.nil_append] at single
    refine ⟨_, ?_, meets_build_judged pointee regular.2 ok clean⟩
    simp [build, single]
  | .slice item, rules, doc, regular, ok, clean => by
    obtain ⟨src, items, rfl, acceptedItems⟩ := exists_arr_of_accepts_slice ok
    rw [visit] at clean
    rw [Meets]
    refine ⟨_, build_slice_judged item src items, fun e mem => ?_⟩
    obtain ⟨original, held, rfl⟩ := List.mem_map.1 mem
    exact meets_build_judged item regular (acceptedItems original held) (clean_visitItems.1 clean original held)
  | .map v, rules, doc, regular, ok, clean => by
    obtain ⟨src, members, rfl, acceptedMembers⟩ := exists_obj_of_accepts_map ok
    rw [visit] at clean
    rw [Meets]
    refine ⟨_, build_map_judged v src members, fun e mem => ?_⟩
    obtain ⟨name, listed, rfl⟩ := List.mem_map.1 mem
    obtain ⟨doc, held⟩ := mem_keysOf.1 listed
    obtain ⟨last, found⟩ := exists_lastOf held
    rw [found]
    exact meets_build_judged v regular (acceptedMembers name last found)
      (clean_visitMembers clean (mem_of_lastOf found) rfl)
  | .record kind fields, rules, doc, regular, ok, clean => by
    simp only [isRegular, Bool.and_eq_true, bne_iff_ne, decide_eq_true_eq] at regular
    obtain ⟨⟨closed, nodup⟩, regularFields⟩ := regular
    obtain ⟨src, members, rfl, acceptedFields, known⟩ :=
      exists_obj_of_accepts_record closed ok
    refine ⟨_, by rw [build], ?_⟩
    simp only [List.flatMap_cons, List.flatMap_nil, List.append_nil, Doc.members, Doc.asMap]
    exact meetsFields_build_judged (namesOf fields) fields regularFields acceptedFields known
      fun tag shape mem v given => clean_visit_record clean given (shapeOf_of_mem nodup mem)

theorem meetsFields_build_judged (names : List String) : ∀ (fields : List (Tag × Shape))
    {members : Members}, areRegular fields →
    acceptsFields fields (lastMembers (Doc.asMapMembers members)) →
    (∀ name v, (name, v) ∈ members → name ∈ names) →
    (∀ tag shape, (tag, shape) ∈ fields → ∀ v, (tag.name, v) ∈ members →
      (visit hooks v shape).ending = .done true) →
    MeetsFields hooks fields
      (buildFields hooks names fields (lastMembers (Doc.asMapMembers members)))
  | [], _, _, _, _, _ => rfl
  | (tag, shape) :: rest, members, regular, ok, known, clean => by
    rw [areRegular, Bool.and_eq_true] at regular
    have first := accepts_of_acceptsFields ok (.head _)
    rw [acceptsFields, Bool.and_eq_true] at ok
    refine ⟨_, _, by rw [buildFields], ?_, meetsFields_build_judged names rest regular.2
      ok.2 known fun tag shape mem => clean tag shape (.tail _ mem)⟩
    rw [named_judged known]
    rw [lastOf_lastMembers, lastOf_asMapMembers] at first
    cases found : lastOf tag.name members with
    | none =>
      rw [found] at first
      exact .inl ⟨first, rfl⟩
    | some doc =>
      rw [found] at first
      exact .inr (meets_build_judged shape regular.1 first
        (clean tag shape (.head _) doc (mem_of_lastOf found)))

end

end Foundations.Schemas
