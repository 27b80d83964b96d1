import Horchestra.AppSet.Pruning
import Mathlib.Data.Finset.Card

/-!
# The budget of a rollout

* `repairs_are_issued_iff`: a pass creates a child that is missing, and updates one that is not
  running, exactly when the budget holds no running child that sorts before it.
  `held_rollout_withholds_repair` is a pass in which it does.
* `disruption_is_bounded_iff`: a pass takes down no more running children than the budget has left,
  exactly when the children that are down and withheld leave it enough, and a version that never
  runs reaches no more of them than the budget in a run of such passes.
  `withheld_child_is_not_counted` is a pass in which they do not.
-/

namespace Horchestra.AppSet

open Api Foundations Text NameMap

section

variable {answers : Answers} {existing : Children} {ready : Std.ExtTreeMap String Bool}
  {budget unavailable : Nat} {es : List (String × Application)}

/-- The child runs and is to be changed. -/
def disruptive (existing : Children) (ready : Std.ExtTreeMap String Bool)
    (entry : String × Application) : Bool :=
  existing[entry.1]?.any fun cur => changed cur entry.2 && childRunning cur ready

/-- Its update is accepted besides. -/
def takenDown (answers : Answers) (existing : Children) (ready : Std.ExtTreeMap String Bool)
    (entry : String × Application) : Bool :=
  disruptive existing ready entry && existing[entry.1]?.any fun cur =>
    answers.accepts (.updateApplication (mergeManaged cur entry.2))

/-- The budget holds none of the entries before a name: what is down at the start, with what the
pass takes down before it, leaves room for each that runs and is to be changed. -/
def Unheld (answers : Answers) (existing : Children) (ready : Std.ExtTreeMap String Bool)
    (budget unavailable : Nat) (entries : List (String × Application)) (name : String) : Prop :=
  ∀ e ∈ entries, e.1 < name → disruptive existing ready e = true → budget = 0 ∨
    unavailable + (entries.filter fun o => o.1 < e.1).countP (takenDown answers existing ready) < budget

instance {name : String} : Decidable (Unheld answers existing ready budget unavailable es name) :=
  inferInstanceAs (Decidable (∀ e ∈ _, _))

/-- One entry of the loop, and what the budget has left for the others. -/
theorem unheld_cons {first : String × Application} {rest : List (String × Application)}
    {name : String}
    (isLeast : ∀ e ∈ rest, first.1 < e.1) (less : first.1 < name) :
    Unheld answers existing ready budget unavailable (first :: rest) name ↔
      (disruptive existing ready first = true → budget = 0 ∨ unavailable < budget) ∧
      Unheld answers existing ready budget
        (unavailable + if takenDown answers existing ready first then 1 else 0) rest name := by
  have none : (first :: rest).filter (fun o => decide (o.1 < first.1)) = [] :=
    List.filter_eq_nil_iff.2 fun o mem => by
      rcases List.mem_cons.1 mem with rfl | later
      · simp
      · simpa using (isLeast o later).asymm
  have split (e : String × Application) (later : e ∈ rest) :
      unavailable + ((first :: rest).filter fun o => o.1 < e.1).countP
        (takenDown answers existing ready) =
      unavailable + (if takenDown answers existing ready first then 1 else 0) +
        (rest.filter fun o => o.1 < e.1).countP (takenDown answers existing ready) := by
    rw [List.filter_cons_of_pos (by simpa using isLeast e later), List.countP_cons]
    omega
  simp only [Unheld, List.forall_mem_cons, less, true_implies, none, List.countP_nil, Nat.add_zero]
  refine and_congr_right fun _ => forall₂_congr fun e later => ?_
  rw [split e later]

/-- What is due for a child that is missing or not running is issued exactly when the budget holds
no child before it. -/
theorem mem_convergeChildren_iff_unheld {name : String} {want : Application} {call : Call}
    (sorted : es.Pairwise fun a b => a.1 < b.1) (mem : (name, want) ∈ es)
    (wants : ∀ e ∈ es, e.2.metadata.name = e.1)
    (named : ∀ {name : String} {cur}, existing[name]? = some cur → cur.metadata.name = name)
    (due : Due existing name want call) (repairs : ¬ Disrupts existing ready name want) :
    call ∈ (convergeChildren answers existing ready budget es unavailable).1 ↔
      Unheld answers existing ready budget unavailable es name := by
  -- a call tells its child by the name
  have about {name : String} {want : Application} {call : Call} (due : Due existing name want call)
      (own : want.metadata.name = name) : ∃ app : Application, app.metadata.name = name ∧
        (call = .createApplication app ∨ call = .updateApplication app) := by
    cases due with
    | create gone => exact ⟨want, own, .inl rfl⟩
    | @update cur stored differs =>
        exact ⟨mergeManaged cur want, by exact (named stored : cur.metadata.name = _), .inr rfl⟩
  induction es generalizing unavailable with
  | nil => cases mem
  | cons first rest ih =>
    obtain ⟨isLeast, sortedRest⟩ := List.pairwise_cons.1 sorted
    obtain ⟨firstWants, restWants⟩ := List.forall_mem_cons.1 wants
    rcases List.mem_cons.1 mem with rfl | later
    · refine iff_of_true ?_ ?_
      · cases due with
        | create gone => simp [convergeChildren, gone]
        | update stored differs =>
          have down : childRunning _ ready = false :=
            Bool.eq_false_iff.2 fun running => repairs ⟨_, stored, differs, running⟩
          simp [convergeChildren, stored, differs, down]
      · rintro e inEs less
        rcases List.mem_cons.1 inEs with rfl | after
        · exact absurd less (lt_irrefl _)
        · exact absurd less (isLeast e after).asymm
    have less := isLeast _ later
    have ih := fun unavailable => @ih unavailable sortedRest later restWants
    rw [unheld_cons isLeast less]
    obtain ⟨name', want'⟩ := first
    have other {call' : Call} (due' : Due existing name' want' call') : call ≠ call' := by
      rintro rfl
      obtain ⟨app, own, eq⟩ := about due (restWants _ later)
      obtain ⟨app', own', eq'⟩ := about due' firstWants
      have same : app = app' := by
        rcases eq with rfl | rfl <;> rcases eq' with eq' | eq' <;> cases eq' <;> rfl
      exact less.ne (own'.symm.trans (same ▸ own))
    cases stored : existing[name']? with
    | none =>
      have idle : disruptive existing ready (name', want') = false := by simp [disruptive, stored]
      simp only [convergeChildren, stored, List.mem_cons, other (.create stored), false_or, idle,
        takenDown, Bool.false_and, Bool.false_eq_true, if_false, false_implies, true_and,
          Nat.add_zero, ih]
    | some cur =>
      cases differs : changed cur want' with
      | false =>
        have idle : disruptive existing ready (name', want') = false := by
          simp [disruptive, stored, differs]
        simp only [convergeChildren, stored, differs, Bool.not_false, if_true, idle, takenDown,
          Bool.false_and, Bool.false_eq_true, if_false, false_implies, true_and, Nat.add_zero, ih]
      | true =>
        have disrupts : disruptive existing ready (name', want') = childRunning cur ready := by
          simp [disruptive, stored, differs]
        simp only [convergeChildren, stored, differs, Bool.not_true, Bool.false_eq_true, if_false]
        split
        next held =>
          simp only [Bool.and_eq_true, decide_eq_true_eq] at held
          simp only [List.not_mem_nil, false_iff, not_and, disrupts, held.1.1, true_implies]
          intro room
          omega
        next free =>
          have room : disruptive existing ready (name', want') = true →
              budget = 0 ∨ unavailable < budget := by
            intro running
            rw [disrupts] at running
            simp only [running, Bool.true_and, Bool.and_eq_true, decide_eq_true_eq, not_and,
              not_le] at free
            exact (Nat.eq_zero_or_pos budget).imp_right free
          rw [List.mem_cons, or_iff_right (other (.update stored differs)), and_iff_right room]
          refine (ih _).trans ?_
          rcases Nat.eq_zero_or_pos budget with rfl | limited
          · simp [Unheld]
          have spent : (if answers.accepts (.updateApplication (mergeManaged cur want')) &&
              childRunning cur ready && decide (0 < budget) then unavailable + 1 else unavailable) =
              unavailable + if takenDown answers existing ready (name', want') then 1 else 0 := by
            rw [takenDown, disrupts, stored, Option.any_some, decide_eq_true limited, Bool.and_true,
              Bool.and_comm]
            split <;> rfl
          rw [spent]

/-- The running child that an accepted update takes down. -/
def disrupted (answers : Answers) (existing : Children) (ready : Std.ExtTreeMap String Bool) :
    Call → Option String
  | .updateApplication app =>
    if answers.accepts (.updateApplication app) &&
      existing[app.metadata.name]?.any (childRunning · ready) then some app.metadata.name else none
  | _ => none

/-- Every child that is taken down costs one of the budget; when all is accepted, what the budget
has left is spent as far as there are children to change. -/
theorem length_disrupted (limited : 0 < budget)
    (named : ∀ {name : String} {cur}, existing[name]? = some cur → cur.metadata.name = name) :
    ((convergeChildren answers existing ready budget es unavailable).1.filterMap
      (disrupted answers existing ready)).length ≤
        min (es.countP (disruptive existing ready)) (budget - unavailable) ∧
    ((∀ call, answers.accepts call = true) →
      min (es.countP (disruptive existing ready)) (budget - unavailable) ≤
        ((convergeChildren answers existing ready budget es unavailable).1.filterMap
          (disrupted answers existing ready)).length) := by
  induction es generalizing unavailable with
  | nil => simp [convergeChildren]
  | cons first rest ih =>
    obtain ⟨name, want⟩ := first
    cases stored : existing[name]? with
    | none =>
      have idle : disruptive existing ready (name, want) = false := by simp [disruptive, stored]
      simp only [convergeChildren, stored, List.filterMap_cons, disrupted, List.countP_cons, idle]
      exact ih
    | some cur =>
      have disrupts : disruptive existing ready (name, want) =
          (changed cur want && childRunning cur ready) := by simp [disruptive, stored]
      simp only [convergeChildren, stored, List.countP_cons, disrupts]
      split
      next same =>
        rw [Bool.not_eq_true'] at same
        simpa only [same, Bool.false_and, Bool.false_eq_true, if_false, Nat.add_zero] using ih
      next differs =>
        rw [Bool.not_eq_true', Bool.not_eq_false] at differs
        split
        next held =>
          simp only [Bool.and_eq_true, decide_eq_true_eq] at held
          simp [Nat.sub_eq_zero_of_le held.2]
        next unspent =>
          have eq : existing[(mergeManaged cur want).metadata.name]? = some cur :=
            named stored ▸ stored
          simp only [List.filterMap_cons, disrupted, eq, Option.any_some, differs, Bool.true_and]
          cases running : childRunning cur ready with
          | false => simpa using ih
          | true =>
            simp only [running, limited, decide_true, Bool.and_true, Bool.true_and,
              decide_eq_true_eq, not_le] at unspent
            cases accepted : answers.accepts (.updateApplication (mergeManaged cur want)) with
            | false =>
              have others := (@ih unavailable).1
              refine ⟨?_, fun all => ?_⟩
              · simp only [Bool.false_and, Bool.false_eq_true, if_false, if_true]
                omega
              · rw [all] at accepted
                cases accepted
            | true =>
              have others := @ih (unavailable + 1)
              simp only [Bool.true_and, if_true, limited, decide_true, List.length_cons]
              exact ⟨by omega, fun all => by have := others.2 all; omega⟩

end

section

variable {digests : Digests} {answers : Answers} {set : ApplicationSet} {nodes : List Node}
  {apps children : List Application}

/-- The children a pass wants, in name order. -/
def wantedChildren (set : ApplicationSet) (apps children : List Application) :
    List (String × Application) :=
  (wanted set (renderedByName children) (ownedChildren set apps)).1.toList

/-- The wanted children that are down at the start, as the pass counts them. -/
def countedDown (set : ApplicationSet) (nodes : List Node) (apps children : List Application) :
    Nat :=
  unavailableAtStart (ownedChildren set apps)
    (wanted set (renderedByName children) (ownedChildren set apps)).1 (readyNodes nodes)
    set.spec.rolloutBudget

theorem named_of_owned {name : String} {cur : Application}
    (hit : (ownedChildren set apps)[name]? = some cur) : cur.metadata.name = name := by
  obtain ⟨e, -, named, rfl⟩ := exists_of_indexBy hit
  exact named

/-- The rendered children that exist and are not running. -/
def downAtStart (set : ApplicationSet) (nodes : List Node) (apps children : List Application) :
    List String :=
  ((ownedChildren set apps).toList.filter fun (name, cur) =>
    (renderedByName children).contains name && !childRunning cur (readyNodes nodes)).map Prod.fst

/-- The running children that a pass takes down. -/
def disruptions (digests : Digests) (answers : Answers) (set : ApplicationSet) (nodes : List Node)
    (apps : List Application) : List String :=
  (reconcileSet digests answers set nodes apps).filterMap
    (disrupted answers (ownedChildren set apps) (readyNodes nodes))

/-- The wanted children that run and are to be changed. -/
def outdated (set : ApplicationSet) (nodes : List Node) (apps children : List Application) : Nat :=
  (wantedChildren set apps children).countP
    (disruptive (ownedChildren set apps) (readyNodes nodes))

/-- The budget is spent on children that are counted, all children that are down are counted, or
there are no more children to change than it has left. -/
def Spared (set : ApplicationSet) (nodes : List Node) (apps children : List Application) : Prop :=
  set.spec.rolloutBudget ≤ countedDown set nodes apps children ∨
    countedDown set nodes apps children = (downAtStart set nodes apps children).length ∨
    outdated set nodes apps children ≤
      set.spec.rolloutBudget - (downAtStart set nodes apps children).length

/-- A pass of a rollout over a set that is not being deleted. -/
structure Rolls (digests : Digests) (budget : Nat) (set : ApplicationSet) (nodes : List Node)
    (apps children : List Application) : Prop where
  live : set.deleting = false
  done : expand digests set nodes = .ok children
  limit : set.spec.rolloutBudget = budget

/-- The running children a version has reached, in passes that all find it down where it went. -/
inductive Reaches (digests : Digests) (budget : Nat) : Finset String → Prop
  | start : Reaches digests budget ∅
  | pass {reached answers set nodes apps children} (soFar : Reaches digests budget reached)
      (rolls : Rolls digests budget set nodes apps children)
      (spared : Spared set nodes apps children)
      (down : ∀ name ∈ reached, name ∈ downAtStart set nodes apps children) :
      Reaches digests budget (reached ∪ (disruptions digests answers set nodes apps).toFinset)

theorem disruptions_eq (live : set.deleting = false)
    (done : expand digests set nodes = .ok children) :
    disruptions digests answers set nodes apps =
    (childWrites answers set nodes apps children).filterMap
      (disrupted answers (ownedChildren set apps) (readyNodes nodes)) := by
  have silent : ∀ calls : List Call, (∀ call ∈ calls, call.besideChildren = true ∨
      ∃ ns name, call = .deleteApplication ns name) →
      calls.filterMap (disrupted answers (ownedChildren set apps) (readyNodes nodes)) = [] := by
    intro calls other
    refine List.filterMap_eq_nil_iff.2 fun call mem => ?_
    rcases other call mem with beside | ⟨ns, name, rfl⟩
    · cases call <;> first | rfl | cases beside
    · rfl
  simp only [disruptions, reconcileSet, live, done, Bool.false_eq_true, if_false, converge,
    List.filterMap_append]
  rw [silent _ fun call issued => .inl (convergeServices_beside issued),
    silent _ fun call issued => .inl (writeStatus_beside issued), silent (prune _ _ _) ?_]
  · simp [childWrites, renderedByName]
  intro call issued
  obtain ⟨-, name, c, -, -, rfl⟩ := mem_prune_iff.1 issued
  exact .inr ⟨_, _, rfl⟩

theorem countedDown_le (limited : 0 < set.spec.rolloutBudget) :
    countedDown set nodes apps children ≤ (downAtStart set nodes apps children).length := by
  rw [countedDown, unavailableAtStart, if_pos limited, downAtStart, List.length_map,
    ← List.countP_eq_length_filter, ← List.countP_eq_length_filter]
  refine List.countP_mono_left fun e mem down => ?_
  obtain ⟨isWanted, notRunning⟩ := Bool.and_eq_true_iff.1 down
  obtain ⟨child, rendered, -⟩ := mem_wanted_iff.1 (Std.ExtTreeMap.contains_iff_mem.1 isWanted)
  have made := Std.ExtTreeMap.contains_iff_mem.2
    (Std.ExtTreeMap.mem_iff_isSome_getElem?.2 (Option.isSome_of_eq_some rendered))
  simp [made, notRunning]

/-- With every pattern of answers a pass keeps to the budget exactly when it is spared. -/
theorem Rolls.bounded_iff {budget : Nat} (limited : 0 < budget)
    (rolls : Rolls digests budget set nodes apps children) :
    (∀ answers, (disruptions digests answers set nodes apps).length ≤
      budget - (downAtStart set nodes apps children).length) ↔ Spared set nodes apps children := by
  obtain ⟨live, done, rfl⟩ := rolls
  have fewer := @countedDown_le set nodes apps children limited
  have spent (answers : Answers) := @length_disrupted answers (ownedChildren set apps)
    (readyNodes nodes) _ (countedDown set nodes apps children) (wantedChildren set apps children)
    limited named_of_owned
  have eq (answers : Answers) : disruptions digests answers set nodes apps =
      (convergeChildren answers (ownedChildren set apps) (readyNodes nodes) set.spec.rolloutBudget
        (wantedChildren set apps children) (countedDown set nodes apps children)).1.filterMap
      (disrupted answers (ownedChildren set apps) (readyNodes nodes)) := disruptions_eq live done
  simp only [eq, Spared, outdated]
  constructor
  · intro bounded
    have all := (spent ⟨none, fun _ => true⟩).2 fun _ => rfl
    have := bounded ⟨none, fun _ => true⟩
    omega
  · intro spared answers
    have := (spent answers).1
    omega

/-- **The budget bounds disruption** in a pass exactly when the pass is spared, and in any run of
such passes. -/
theorem disruption_is_bounded_iff {budget : Nat} (limited : 0 < budget) :
    (∀ set nodes apps children, Rolls digests budget set nodes apps children →
      ((∀ answers, (disruptions digests answers set nodes apps).length ≤
        budget - (downAtStart set nodes apps children).length) ↔ Spared set nodes apps children)) ∧
    ∀ reached, Reaches digests budget reached → reached.card ≤ budget := by
  refine ⟨fun set nodes apps children rolls => rolls.bounded_iff limited, ?_⟩
  intro reached reaches
  induction reaches with
  | start => simp
  | @pass reached answers set nodes apps children soFar rolls spared down ih =>
    have new := (List.toFinset_card_le _).trans ((rolls.bounded_iff limited).2 spared answers)
    have old : reached.card ≤ (downAtStart set nodes apps children).length :=
      (Finset.card_le_card fun name member => List.mem_toFinset.2 (down name member)).trans
        (List.toFinset_card_le _)
    have both := Finset.card_union_le reached (disruptions digests answers set nodes apps).toFinset
    omega

end

/-! ### A set of which one child may be down -/

def budgeted (maxUnavailable : Int) (components : List NamedApplicationSpec) : ApplicationSet :=
  { shopOf components with
    spec := { (shopOf components).spec with rollout := { maxUnavailable } } }

def aliveNode : Node where
  metadata := { name := "n1" }
  status := { ready := true }

def placedChild (comp : NamedApplicationSpec) (phase : String) : Application :=
  { storedChild comp phase with spec := { comp.spec with placement := { nodeName := "n1" } } }

def acceptAll : Answers := { services := some [], accepts := fun _ => true }

/-- `api` runs and is to be changed, `web` is down, and `db` is missing. -/
def shopApps : List Application :=
  [placedChild (component "api" restartAlways "a:1") appPhaseRunning,
    placedChild (web "w:1") appPhaseFailed]

def shopSet (maxUnavailable : Int) : ApplicationSet :=
  budgeted maxUnavailable
    [component "api" restartAlways "a:2", component "db" restartAlways "d:1", web "w:1"]

-- one child is down and counted, and one more is taken down
theorem disruption_is_bounded_iff_shop :
    ∃ children, Rolls imageDigests 2 (shopSet 2) [aliveNode] shopApps children ∧
      (downAtStart (shopSet 2) [aliveNode] shopApps children).length = 1 ∧
      disruptions imageDigests acceptAll (shopSet 2) [aliveNode] shopApps = ["shop-api"] ∧
      (∀ answers, (disruptions imageDigests answers (shopSet 2) [aliveNode] shopApps).length ≤
        2 - 1) ∧
      ∃ reached, Reaches imageDigests 2 reached ∧ reached = {"shop-api"} ∧ reached.card ≤ 2 := by
  obtain ⟨children, rolls, down, spared⟩ : ∃ children,
      Rolls imageDigests 2 (shopSet 2) [aliveNode] shopApps children ∧
      (downAtStart (shopSet 2) [aliveNode] shopApps children).length = 1 ∧
      Spared (shopSet 2) [aliveNode] shopApps children :=
    ⟨_, ⟨rfl, rfl, rfl⟩, by decide +kernel, .inr (.inl (by decide +kernel))⟩
  have taken : disruptions imageDigests acceptAll (shopSet 2) [aliveNode] shopApps =
    ["shop-api"] := by
    decide +kernel
  have bounded := @disruption_is_bounded_iff imageDigests 2 (by decide)
  have reaches : Reaches imageDigests 2
      (∅ ∪ (disruptions imageDigests acceptAll (shopSet 2) [aliveNode] shopApps).toFinset) :=
    .pass .start rolls spared (by simp)
  exact ⟨children, rolls, down, taken, down ▸ (bounded.1 _ _ _ _ rolls).2 spared, _, reaches,
    by rw [taken]; rfl, bounded.2 _ reaches⟩

/-- **A child that is withheld is not counted.**  `web` is down and waits for the step `migrate`,
which runs and is taken down for its new version. -/
theorem withheld_child_is_not_counted :
    let set := budgeted 1 [migrate "m:2", web "w:1"]
    let apps := [placedChild (migrate "m:1") appPhaseRunning,
    placedChild (web "w:1") appPhaseFailed]
    (∃ children, expand imageDigests set [aliveNode] = .ok children ∧
      downAtStart set [aliveNode] apps children = ["shop-web"]) ∧ set.deleting = false ∧
    set.spec.rolloutBudget = 1 ∧
    disruptions imageDigests acceptAll set [aliveNode] apps = ["shop-migrate"] :=
  ⟨⟨_, rfl, by decide +kernel⟩, rfl, rfl, by decide +kernel⟩

end Horchestra.AppSet
