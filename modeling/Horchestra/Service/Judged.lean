import Horchestra.Service.Decode

/-!
# What the schema checked and what is returned

The schema judges the map a body is held in, and the object is decoded from the text.  The two
differ where the text repeats a name, unless the body was written out again in between, which
depends on its kind and on which defaults it left out.

* `returned_is_judged_iff`: an object that is returned is the one that was judged exactly when its
  body was written out again or nothing of a repeated name is left behind in it.
-/

namespace Horchestra.Decode

open Api Api.Schemas Api.Quantity Foundations.Schemas Foundations Documents Records

variable (parsers : Parsers)

/-! ## Objects without their metadata -/

/-- The fields of a kind outside its metadata. -/
def checkedFields (kind : Kind) : Fields :=
  optional "kind" text :: optional "apiVersion" text :: contentFields kind

/-- What an object holds outside its metadata, which is its third field. -/
def withoutMetadata : TypedValue → List TypedValue
  | .record (kind :: apiVersion :: _ :: content) => kind :: apiVersion :: content
  | _ => []

def judgedObject (kind : Kind) (body : String) : TypedValue :=
  build (hooks parsers) (kindShape kind) ((default kind body).map Doc.asMap).toList

/-- Nothing of a repeated name is left behind in the object a body is decoded into. -/
def NothingLeft (kind : Kind) (body : String) : Prop :=
  ∀ doc, parse body = some doc →
    SettledFields (hooks parsers) (namesOf (kindFields kind)) (checkedFields kind) [] doc.members

theorem withoutMetadata_build (kind : Kind) (docs : List Doc) :
    withoutMetadata (build (hooks parsers) (kindShape kind) docs) =
      buildFields (hooks parsers) (namesOf (kindFields kind)) (checkedFields kind)
        (docs.flatMap Doc.members) := rfl

theorem areRegular_checkedFields (kind : Kind) : areRegular (checkedFields kind) := by
  cases kind <;> decide +kernel

theorem nodup_kindFields (kind : Kind) : (namesOf (kindFields kind)).Nodup := by
  cases kind <;> decide +kernel

variable {kind : Kind}

theorem mem_kindFields {f : Tag × Shape} (mem : f ∈ checkedFields kind) : f ∈ kindFields kind := by
  simp only [checkedFields, kindFields, List.mem_cons] at mem ⊢
  tauto

theorem acceptsFields_checkedFields {members : Members}
    (ok : acceptsFields (kindFields kind) members) :
    acceptsFields (checkedFields kind) members := by
  simp only [kindFields, checkedFields, acceptsFields, Bool.and_eq_true] at ok ⊢
  exact ⟨ok.1, ok.2.1, ok.2.2.2⟩

/-! ## Returned objects -/

variable {body : String} {object : TypedValue}

theorem of_decode (returned : decode parsers kind body = .object object) :
    ∃ doc, default kind body = some doc ∧ accepts (kindShape kind) {} doc.asMap ∧
      (visit (hooks parsers) doc (kindShape kind)).ending = .done true ∧
      object = build (hooks parsers) (kindShape kind) [doc] := by
  unfold decode at returned
  dsimp only at returned
  split at returned
  · cases returned
  cases completed : default kind body with
  | none =>
    rw [completed] at returned
    cases returned
  | some doc =>
    simp only [completed, decodeTrace, unmarshal] at returned
    split at returned
    · cases returned
    rename_i ok
    split at returned
    next clean =>
      cases returned
      exact ⟨doc, rfl, by simpa using ok, clean, rfl⟩
    · cases returned

theorem default_of_not_rewrites (kept : ¬ rewrites kind body) : default kind body = parse body := by
  unfold default
  cases readMap body <;> simp [kept]

theorem distinct_default (wrote : rewrites kind body) {doc : Doc}
    (completed : default kind body = some doc) : Distinct doc := by
  unfold default at completed
  cases read : readMap body with
  | none => simp [rewrites, read] at wrote
  | some map =>
    simp only [read, wrote, if_true] at completed
    cases completed
    exact distinct_marshal _

/-- **What the schema checked is what is returned, where nothing is left behind.** -/
theorem returned_is_judged_iff {kind : Kind} {body : String} {object : TypedValue}
    (returned : decode parsers kind body = .object object) :
    (withoutMetadata object = withoutMetadata (judgedObject parsers kind body) ∧
        MeetsFields (hooks parsers) (checkedFields kind) (withoutMetadata object)) ↔
      (rewrites kind body ∨ NothingLeft parsers kind body) := by
  obtain ⟨doc, completed, accepted, clean, rfl⟩ := of_decode parsers returned
  obtain ⟨source, members, rfl, acceptedFields, known⟩ :=
    exists_obj_of_accepts_record RecordKind.noConfusion accepted
  have cleanFields : ∀ tag shape, (tag, shape) ∈ checkedFields kind → ∀ value,
      (tag.name, value) ∈ members → (visit (hooks parsers) value shape).ending = .done true :=
    fun tag shape mem value given => clean_visit_record clean given
      (shapeOf_of_mem (nodup_kindFields kind) (mem_kindFields mem))
  have settled := buildFields_eq_iff_settled (namesOf (kindFields kind)) (checkedFields kind) []
    members (areRegular_checkedFields kind) (acceptsFields_checkedFields acceptedFields) known
    cleanFields
  have bounds := meetsFields_build_judged (namesOf (kindFields kind)) (checkedFields kind)
    (areRegular_checkedFields kind) (acceptsFields_checkedFields acceptedFields) known cleanFields
  have judged : withoutMetadata (judgedObject parsers kind body) =
      buildFields (hooks parsers) (namesOf (kindFields kind)) (checkedFields kind)
        (lastMembers (Doc.asMapMembers members)) := by
    rw [judgedObject, completed, withoutMetadata_build]
    simp [Doc.asMap, Doc.members]
  have decoded : withoutMetadata (build (hooks parsers) (kindShape kind) [.obj source members]) =
      buildFields (hooks parsers) (namesOf (kindFields kind)) (checkedFields kind)
        ([] ++ members) := by
    rw [withoutMetadata_build]
    simp [Doc.members]
  -- Being decoded from the judged document is enough: the bounds then follow.
  have enough : (withoutMetadata (build (hooks parsers) (kindShape kind) [.obj source members]) =
        withoutMetadata (judgedObject parsers kind body) ∧
      MeetsFields (hooks parsers) (checkedFields kind)
        (withoutMetadata (build (hooks parsers) (kindShape kind) [.obj source members]))) ↔
      SettledFields (hooks parsers) (namesOf (kindFields kind)) (checkedFields kind) [] members := by
    rw [judged, decoded, ← settled]
    refine and_iff_left_of_imp fun same => ?_
    rw [same]
    exact bounds
  rw [enough]
  by_cases written : rewrites kind body
  · refine iff_of_true ?_ (.inl written)
    exact settledFields_of_distinct _ _ (distinct_members (distinct_default written completed))
  rw [default_of_not_rewrites written] at completed
  simp [written, NothingLeft, completed, Doc.members]

def Response.object? : Response → Option TypedValue
  | .object value => some value
  | _ => none

theorem exists_object {resp : Response} (some : resp.object?.isSome) :
    ∃ object, resp = .object object := by
  cases resp with
  | object object => exact ⟨object, rfl⟩
  | _ => cases some

/-- An application that names its image and nothing else is written out again with its defaults, and
is returned as it was judged. -/
theorem returned_is_judged_iff_application :
    ∃ object, decode anyParsers .application
        "\x7b\"metadata\":\x7b\"name\":\"a\"\x7d,\"spec\":\x7b\"image\":\"b\"\x7d\x7d" = .object object ∧
      withoutMetadata object = withoutMetadata (judgedObject anyParsers .application
        "\x7b\"metadata\":\x7b\"name\":\"a\"\x7d,\"spec\":\x7b\"image\":\"b\"\x7d\x7d") ∧
      MeetsFields (hooks anyParsers) (checkedFields .application) (withoutMetadata object) := by
  obtain ⟨object, returned⟩ : ∃ object, decode anyParsers .application
      "\x7b\"metadata\":\x7b\"name\":\"a\"\x7d,\"spec\":\x7b\"image\":\"b\"\x7d\x7d" =
        .object object :=
    exists_object (by decide +kernel)
  exact ⟨object, returned,
    (returned_is_judged_iff anyParsers returned).2 (.inl (by decide +kernel))⟩

/-! ## A value the schema never saw -/

def firstTargetPort : TypedValue → Option Int
  | .record [_, _, _, .record [_, .slice (.record [_, _, _, .leaf (.integer n), _] :: _)]] => some n
  | _ => none

theorem nonneg_of_meets
    (meets : MeetsFields (hooks parsers) (checkedFields .service) (withoutMetadata object))
    {n : Int} (first : firstTargetPort object = some n) : 0 ≤ n := by
  unfold firstTargetPort at first
  split at first
  · cases first
    obtain ⟨_, _, kindEq, _, _, _, verEq, _, spec, _, sameSpec, inSpec, _⟩ := meets
    cases kindEq
    cases verEq
    cases sameSpec
    simp only [Bool.false_eq_true, false_and, false_or] at inSpec
    obtain ⟨_, sameFields, _, _, sameAddress, _, ports, _, samePorts, inPorts, _⟩ := inSpec
    cases sameFields
    cases sameAddress
    cases samePorts
    simp only [Bool.false_eq_true, false_and, false_or] at inPorts
    obtain ⟨_, sameItems, each⟩ := inPorts
    cases sameItems
    obtain ⟨_, sameRecord, _, _, nameEq, _, _, _, samePort, _, _, _, sameTarget, _, _, _,
      sameTargetPort, inTargetPort, _⟩ := each _ (.head _)
    cases sameRecord
    cases nameEq
    cases samePort
    cases sameTarget
    cases sameTargetPort
    rcases inTargetPort with ⟨_, zero⟩ | bounded
    · cases zero
      decide
    simp only [int32, Meets, allowsInteger, Bool.and_eq_true] at bounded
    simpa using bounded.1
  · cases first

/-- A service whose specification is given twice, with all its defaults. -/
def repeatedSpec : String :=
  "\x7b\"metadata\":\x7b\"name\":\"a\"\x7d," ++
  "\"spec\":\x7b\"ports\":[\x7b\"port\":1,\"protocol\":\"TCP\",\"targetPort\":-7\x7d]\x7d," ++
  "\"spec\":\x7b\"ports\":[\x7b\"port\":1,\"protocol\":\"TCP\"\x7d]\x7d\x7d"

/-- **A negative port is accepted.**  The schema sees the second specification, the decoder fills
in the first one and then the second over it, and the target port of the first stays. -/
theorem repeated_spec_keeps_port :
    ∃ object, decode anyParsers .service repeatedSpec = .object object ∧
      firstTargetPort object = some (-7) ∧
      ¬ MeetsFields (hooks anyParsers) (checkedFields .service) (withoutMetadata object) := by
  obtain ⟨object, returned⟩ : ∃ object, decode anyParsers .service repeatedSpec = .object object :=
    exists_object (by decide +kernel)
  have port : ((decode anyParsers .service repeatedSpec).object?.bind firstTargetPort) =
      some (-7) := by
    decide +kernel
  rw [returned] at port
  refine ⟨object, returned, port, fun meets => ?_⟩
  cases nonneg_of_meets anyParsers meets port

end Horchestra.Decode
