import Horchestra.Api.Core
import Horchestra.Foundations.NameMap

/-!
# The scores of preferred terms

The node affinity plugin adds up the weights of the preferred terms a node matches and maps the sums
linearly onto the range of a score, in 64-bit arithmetic.  `preference_is_normalized` says that this
is faithful: nothing overflows, the order is kept, the ends are reached, and only differences count.
-/

namespace Horchestra.Scheduler

open Api Foundations Text NameMap Std

def subsetMatch (selector labels : StringMap) : Bool :=
  selector.toList.all fun (key, value) => labels.getD key "" == value

/-- An unknown operator never matches. -/
def NodeSelectorRequirement.matches (r : NodeSelectorRequirement) (labels : StringMap) : Bool :=
  let value := labels[r.key]?
  match r.operator with
  | "In" => value.any r.values.contains
  | "NotIn" => !value.any r.values.contains
  | "Exists" => value.isSome
  | "DoesNotExist" => value.isNone
  | _ => false

def nodeSelectorMatches (sel : NodeSelector) (labels : StringMap) : Bool :=
  subsetMatch sel.matchLabels labels &&
    sel.matchExpressions.all fun r => NodeSelectorRequirement.matches r labels

def maxNodeScore : Int := 100

def rawScore (preferred : List (Int × NodeSelector)) (node : Node) : Int :=
  preferred.foldl (fun s term =>
    if nodeSelectorMatches term.2 node.schedulingLabels then wrap64 (s + term.1) else s) 0

def normalize (raw : ExtTreeMap String Int) : ExtTreeMap String Int :=
  match raw.values with
  | [] => raw
  | first :: rest =>
    let lo := rest.foldl min first
    let hi := rest.foldl max first
    if hi = lo then ∅
    else raw.map fun _ v => (wrap64 (wrap64 (v - lo) * maxNodeScore)).tdiv (wrap64 (hi - lo))

def rawScores (preferred : List (Int × NodeSelector)) (nodes : List Node) : ExtTreeMap String Int :=
  indexBy (·.metadata.name) (rawScore preferred) nodes

/-- What `Score` reads of the scores that `PreScore` left. -/
def scoreFromState (scores : ExtTreeMap String Int) (node : String) : Int := scores.getD node 0

/-! ## The sums -/

def weightOf (preferred : List (Int × NodeSelector)) (node : Node) : Int :=
  ((preferred.filter fun term => nodeSelectorMatches term.2 node.schedulingLabels).map (·.1)).sum

def totalWeight (preferred : List (Int × NodeSelector)) : Int := (preferred.map (|·.1|)).sum

theorem rawScore_spec {preferred : List (Int × NodeSelector)}
    (bounded : totalWeight preferred ≤ 2 ^ 55) (node : Node) :
    rawScore preferred node = weightOf preferred node ∧
      |rawScore preferred node| ≤ totalWeight preferred := by
  induction preferred using List.reverseRecOn with
  | nil => exact ⟨rfl, Int.le_refl 0⟩
  | append_singleton rest term ih =>
    have grown : totalWeight (rest ++ [term]) = totalWeight rest + |term.1| := by simp [totalWeight]
    have weight := abs_nonneg term.1
    rw [grown] at bounded ⊢
    obtain ⟨sum, within⟩ := ih (by omega)
    rw [rawScore, List.foldl_concat, ← rawScore]
    split
    next isMatch =>
      have range := abs_le.1 ((abs_add_le (rawScore rest node) term.1).trans (add_le_add_left within _))
      rw [wrap64_of_mem (by omega) (by omega)]
      exact ⟨by simp [weightOf, isMatch, sum], abs_le.2 (by omega)⟩
    next noMatch => exact ⟨by simp [weightOf, noMatch, sum], by omega⟩

/-! ## The scale -/

structure Ends (raw : ExtTreeMap String Int) (lo hi : Int) : Prop where
  low : ∃ name : String, raw[name]? = some lo
  high : ∃ name : String, raw[name]? = some hi
  between : ∀ (name : String) (v : Int), raw[name]? = some v → lo ≤ v ∧ v ≤ hi

variable {raw : ExtTreeMap String Int} {lo hi v : Int} {name : String}

theorem mem_values : v ∈ raw.values ↔ ∃ name : String, raw[name]? = some v := by
  simp [values_eq, ExtTreeMap.mem_toList_iff_getElem?_eq_some]

theorem Ends.of_values {first : Int} {rest : List Int} (values : raw.values = first :: rest) :
    Ends raw (rest.foldl min first) (rest.foldl max first) := by
  obtain ⟨low, below⟩ := List.min?_eq_some_iff.1
    (show raw.values.min? = some (rest.foldl min first) by rw [values]; rfl)
  obtain ⟨high, above⟩ := List.max?_eq_some_iff.1
    (show raw.values.max? = some (rest.foldl max first) by rw [values]; rfl)
  refine ⟨mem_values.1 low, mem_values.1 high, fun name v scored => ?_⟩
  have listed := mem_values.2 ⟨name, scored⟩
  exact ⟨below v listed, above v listed⟩

/-- A score is the place of a sum between the two ends, rounded down. -/
theorem exists_ends (bounded : ∀ (name : String) v, raw[name]? = some v → |v| ≤ 2 ^ 55)
    (scored : raw[name]? = some v) :
    ∃ lo hi, Ends raw lo hi ∧ ∀ (name : String) v, raw[name]? = some v →
      scoreFromState (normalize raw) name = (v - lo) * maxNodeScore / (hi - lo) := by
  have listed := mem_values.2 ⟨name, scored⟩
  cases values : raw.values with
  | nil => simp [values] at listed
  | cons first rest =>
    have ends := Ends.of_values values
    refine ⟨_, _, ends, fun name v scored => ?_⟩
    unfold normalize
    rw [values]
    dsimp only
    generalize rest.foldl min first = lo at *
    generalize rest.foldl max first = hi at *
    obtain ⟨⟨_, low⟩, ⟨_, high⟩, between⟩ := ends
    have lower := abs_le.1 (bounded _ _ low)
    have upper := abs_le.1 (bounded _ _ high)
    have within := between _ _ scored
    have inner : wrap64 (v - lo) = v - lo := wrap64_of_mem (by omega) (by omega)
    have outer : wrap64 ((v - lo) * 100) = (v - lo) * 100 := wrap64_of_mem (by omega) (by omega)
    have span : wrap64 (hi - lo) = hi - lo := wrap64_of_mem (by omega) (by omega)
    simp only [maxNodeScore, scoreFromState]
    split
    next flat => simp [flat]
    · simp only [ExtTreeMap.getD_eq_getD_getElem?, ExtTreeMap.getElem?_map, scored, Option.map_some,
        Option.getD_some, inner, outer, span]
      exact Int.tdiv_eq_ediv_of_nonneg (by omega)

/-- The place of a sum between the ends is in the range and grows with the sum. -/
theorem place_le {w : Int} (above : lo ≤ v) (le : v ≤ w) (below : w ≤ hi) :
    0 ≤ (v - lo) * maxNodeScore / (hi - lo) ∧
      (v - lo) * maxNodeScore / (hi - lo) ≤ (w - lo) * maxNodeScore / (hi - lo) ∧
      (w - lo) * maxNodeScore / (hi - lo) ≤ maxNodeScore := by
  simp only [maxNodeScore]
  rcases eq_or_lt_of_le (above.trans (le.trans below)) with flat | apart
  · simp [flat]
  · exact ⟨Int.ediv_nonneg (by omega) (by omega), Int.ediv_le_ediv (by omega) (by omega),
      Int.ediv_le_of_le_mul (by omega) (by omega)⟩

theorem normalize_shift (raw : ExtTreeMap String Int) (c : Int) :
    normalize (raw.map fun _ v => v + c) = normalize raw := by
  have shifted : (raw.map fun _ v => v + c).values = raw.values.map (· + c) := by
    simp [values_eq, ExtTreeMap.toList_map]
  unfold normalize
  rw [shifted]
  cases values : raw.values with
  | nil =>
    refine ExtTreeMap.ext_getElem? fun name => ?_
    cases scored : raw[name]? with
    | none => simp [scored]
    | some v => simpa [values] using mem_values.2 ⟨name, scored⟩
  | cons first rest =>
    have least : (rest.map (· + c)).foldl min (first + c) = rest.foldl min first + c := by
      rw [List.foldl_map]
      exact List.foldl_hom (· + c) (by intros; simp [min_add_add_right])
    have most : (rest.map (· + c)).foldl max (first + c) = rest.foldl max first + c := by
      rw [List.foldl_map]
      exact List.foldl_hom (· + c) (by intros; simp [max_add_add_right])
    simp [least, most]

theorem preference_is_normalized (preferred : List (Int × NodeSelector)) (nodes : List Node)
    (bounded : totalWeight preferred ≤ 2 ^ 55) :
    let raw := rawScores preferred nodes
    let score := scoreFromState (normalize raw)
    (∀ (name : String) v, raw[name]? = some v →
      (∃ node ∈ nodes, node.metadata.name = name ∧ v = weightOf preferred node) ∧
      (0 ≤ score name ∧ score name ≤ maxNodeScore) ∧
      (∃ lo hi, Ends raw lo hi ∧ score name = (v - lo) * maxNodeScore / (hi - lo) ∧
        (lo < hi → (v = hi → score name = maxNodeScore) ∧ (v = lo → score name = 0))) ∧
      ∀ (other : String) w, raw[other]? = some w → v ≤ w → score name ≤ score other) ∧
    ∀ c, normalize (raw.map fun _ v => v + c) = normalize raw := by
  have sums (name : String) (v : Int) (scored : (rawScores preferred nodes)[name]? = some v) :
      (∃ node ∈ nodes, node.metadata.name = name ∧ v = weightOf preferred node) ∧
        |v| ≤ 2 ^ 55 := by
    obtain ⟨node, mem, named, rfl⟩ := exists_of_indexBy scored
    obtain ⟨sum, within⟩ := rawScore_spec bounded node
    exact ⟨⟨node, mem, named, sum⟩, within.trans bounded⟩
  refine ⟨fun name v scored => ?_, normalize_shift _⟩
  obtain ⟨lo, hi, ends, place⟩ := exists_ends (fun name v it => (sums name v it).2) scored
  have within := ends.between _ _ scored
  have range := place_le within.1 le_rfl within.2
  rw [place name v scored]
  refine ⟨(sums name v scored).1, ⟨range.1, range.2.2⟩, ⟨lo, hi, ends, rfl, fun apart => ⟨?_, ?_⟩⟩, ?_⟩
  · rintro rfl
    exact Int.mul_ediv_cancel_left _ (by omega)
  · rintro rfl
    simp
  · intro other w scored' le
    rw [place other w scored']
    exact (place_le within.1 le (ends.between _ _ scored').2).2.1

def disks : List Node :=
  [{ metadata := { name := "fast", labels := .ofList [("disk", "ssd")] } },
    { metadata := { name := "slow" } }]

def preferSsd : List (Int × NodeSelector) :=
  [(3, { matchLabels := .ofList [("disk", "ssd")] }), (-1, {})]

theorem preference_is_normalized_two :
    let raw := rawScores preferSsd disks
    let score := scoreFromState (normalize raw)
    raw["fast"]? = some 2 ∧ raw["slow"]? = some (-1) ∧ score "fast" = 100 ∧ score "slow" = 0 ∧
      score "slow" ≤ score "fast" ∧ score "fast" ≤ maxNodeScore ∧
      normalize (raw.map fun _ v => v + 1) = normalize raw := by
  have fast : (rawScores preferSsd disks)["fast"]? = some 2 := by decide +kernel
  have slow : (rawScores preferSsd disks)["slow"]? = some (-1) := by decide +kernel
  obtain ⟨scores, shift⟩ := preference_is_normalized preferSsd disks (by decide)
  exact ⟨fast, slow, by decide +kernel, by decide +kernel,
    (scores "slow" (-1) slow).2.2.2 "fast" 2 fast (by decide), (scores "fast" 2 fast).2.1.2, shift 1⟩

end Horchestra.Scheduler
