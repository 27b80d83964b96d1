import Horchestra.AppSet.Controller

/-!
# What one pass over a set issues

The children a pass wants are the rendered ones that are not withheld
(`mem_wanted_iff`).  Of the calls it issues, those about children are the writes of the loop
over the wanted children and the deletions of the prune step (`mem_converge_iff`), and a
write is issued only if it is due and the disruption budget allows it
(`mayIssue_of_mem_convergeChildren`).  Conversely, when every call is refused nothing spends
the budget, and every write it allows at the start is issued
(`mem_convergeChildren_of_refused`).
-/

namespace Horchestra.AppSet

open Api Foundations Text NameMap

/-! ## The children a pass wants -/

def renderedByName (children : List Application) : Children := indexBy (·.metadata.name) id children

/-- A rendered child is not withheld: its turn has come, and the set does not wait for its
anchor to be placed, unless the child is the anchor. -/
structure InTurn (set : ApplicationSet) (rendered existing : Children) (name : String)
    (child : Application) : Prop where
  released : Released set rendered existing child
  placed : set.spec.sameNode = true →
    AnchorSettled existing (anchorChild set rendered) ∨ name = anchorChild set rendered

section

variable {set : ApplicationSet} {rendered existing : Children}

variable {name : String}

theorem wanted_lookup {app : Application}
    (hit : (wanted set rendered existing).1[name]? = some app) :
    ∃ child, rendered[name]? = some child ∧ InTurn set rendered existing name child ∧
      ∃ placement, app = { child with spec := { child.spec with placement } } := by
  unfold wanted at hit
  cases together : set.spec.sameNode with
  | false =>
    simp only [together, Bool.false_eq_true, if_false] at hit
    obtain ⟨isRendered, released⟩ := initGate_lookup.1 hit
    exact ⟨app, isRendered, ⟨released, by simp [together]⟩, _, rfl⟩
  | true =>
    simp only [together, if_true] at hit
    rw [pinSameNode_lookup anchorChild_mem, anchorChild_initGate] at hit
    obtain ⟨child, passed, settled, rfl⟩ := hit
    obtain ⟨isRendered, released⟩ := initGate_lookup.1 passed
    refine ⟨child, isRendered, ⟨released, fun _ => settled⟩, ?_⟩
    split
    · exact ⟨_, rfl⟩
    · exact pinChild_same _ _ _ _

theorem mem_wanted_iff :
    name ∈ (wanted set rendered existing).1 ↔
      ∃ child, rendered[name]? = some child ∧ InTurn set rendered existing name child := by
  rw [Std.ExtTreeMap.mem_iff_isSome_getElem?, Option.isSome_iff_exists]
  constructor
  · rintro ⟨app, hit⟩
    obtain ⟨child, isRendered, inTurn, -⟩ := wanted_lookup hit
    exact ⟨child, isRendered, inTurn⟩
  rintro ⟨child, isRendered, released, settled⟩
  have passed := initGate_lookup.2 ⟨isRendered, released⟩
  cases together : set.spec.sameNode with
  | false => exact ⟨child, by simpa [wanted, together] using passed⟩
  | true =>
    have kept := settled together
    have sameAnchor : anchorChild set (initGate set rendered existing).1 =
        anchorChild set rendered := anchorChild_initGate
    rw [← sameAnchor] at kept
    have found := (pinSameNode_lookup anchorChild_mem).2 ⟨child, passed, kept, rfl⟩
    simp only [wanted, together, if_true]
    exact ⟨_, found⟩

end

/-! ## Which calls a pass issues -/

section

variable {ds : Digests} {answers : Answers} {set : ApplicationSet} {nodes : List Node}
  {apps : List Application}

/-- A call about services or about the set itself. -/
def Call.besideChildren : Call → Bool
  | .createApplication _ | .updateApplication _ | .deleteApplication _ _ => false
  | _ => true

variable {call : Call}

theorem writeStatus_beside {status : ApplicationSetStatus}
    (issued : call ∈ writeStatus set status) : call.besideChildren = true := by
  unfold writeStatus at issued
  split at issued
  · cases issued
  obtain rfl := List.mem_singleton.1 issued
  rfl

theorem mem_convergeServices (issued : call ∈ convergeServices ds answers set apps) :
    (∃ svc ∈ expandServices ds set, call = .createService svc) ∨
      (∃ all cur svc, answers.services = some all ∧ cur ∈ all ∧ svc.metadata = cur.metadata ∧
        call = .updateService svc) ∨
      ∃ ns name, call = .deleteService ns name := by
  unfold convergeServices at issued
  split at issued
  · cases issued
  rename_i all read
  simp only at issued
  have either : ∀ {writes prunes : List Call},
      call ∈ (if set.spec.prune then writes ++ prunes else writes) →
        call ∈ writes ∨ call ∈ prunes := by
    intro writes prunes mem
    split at mem
    · exact List.mem_append.1 mem
    · exact .inl mem
  rcases either issued with isWrite | isPrune
  · obtain ⟨⟨name, want⟩, mem, isCall⟩ := List.mem_filterMap.1 isWrite
    obtain ⟨svc, rendered, -, rfl⟩ :=
      exists_of_indexBy (Std.ExtTreeMap.mem_toList_iff_getElem?_eq_some.1 mem)
    simp only [serviceCall] at isCall
    split at isCall
    · cases isCall
      exact .inl ⟨_, rendered, rfl⟩
    rename_i cur hit
    obtain ⟨cur, listed, -, rfl⟩ := exists_of_indexBy hit
    split at isCall
    · cases isCall
    split at isCall
    · cases isCall
    cases isCall
    refine .inr (.inl ⟨all, cur, _, read, (List.mem_filter.1 listed).1, ?_, rfl⟩)
    rfl
  obtain ⟨⟨name, svc⟩, -, isCall⟩ := List.mem_filterMap.1 isPrune
  simp only at isCall
  split at isCall
  · cases isCall
  cases isCall
  exact .inr (.inr ⟨_, _, rfl⟩)

theorem convergeServices_beside (issued : call ∈ convergeServices ds answers set apps) :
    call.besideChildren = true := by
  rcases mem_convergeServices issued with
    ⟨svc, -, rfl⟩ | ⟨all, cur, svc, -, -, -, rfl⟩ | ⟨ns, name, rfl⟩ <;> rfl

theorem mem_of_mem_untilRefused {calls : List Call}
    (issued : call ∈ (untilRefused answers calls).1) : call ∈ calls := by
  induction calls with
  | nil => simp [untilRefused] at issued
  | cons first rest ih =>
    unfold untilRefused at issued
    split at issued
    · rcases List.mem_cons.1 issued with rfl | later
      · exact .head _
      · exact .tail _ (ih later)
    rw [List.mem_singleton.1 issued]
    exact .head _

/-- What a pass wants to write for one child: nothing is due when the stored child already
matches. -/
inductive Due (existing : Children) (name : String) (want : Application) : Call → Prop
  | create (absent : existing[name]? = none) : Due existing name want (.createApplication want)
  | update {cur : Application} (stored : existing[name]? = some cur)
      (differs : changed cur want = true) :
      Due existing name want (.updateApplication (mergeManaged cur want))

/-- Writing a child would take a running workload down. -/
def Disrupts (existing : Children) (ready : Std.ExtTreeMap String Bool) (name : String)
    (want : Application) : Prop :=
  ∃ cur, existing[name]? = some cur ∧ changed cur want = true ∧ childRunning cur ready = true

/-- The budget, with `unavailable` children down, does not forbid writing a child. -/
def Affords (existing : Children) (ready : Std.ExtTreeMap String Bool) (budget unavailable : Nat)
    (entry : String × Application) : Prop :=
  Disrupts existing ready entry.1 entry.2 → budget = 0 ∨ unavailable < budget

/-- A call that is due for one of the entries, none of which up to there the budget forbids. -/
inductive MayIssue (existing : Children) (ready : Std.ExtTreeMap String Bool)
    (budget unavailable : Nat) (call : Call) : List (String × Application) → Prop
  | here {entry : String × Application} {rest : List (String × Application)}
      (due : Due existing entry.1 entry.2 call)
      (affords : Affords existing ready budget unavailable entry) :
      MayIssue existing ready budget unavailable call (entry :: rest)
  | later {entry : String × Application} {rest : List (String × Application)}
      (affords : Affords existing ready budget unavailable entry)
      (issues : MayIssue existing ready budget unavailable call rest) :
      MayIssue existing ready budget unavailable call (entry :: rest)

section

variable {existing : Children} {ready : Std.ExtTreeMap String Bool} {budget unavailable : Nat}
  {entries : List (String × Application)} {call : Call}

theorem MayIssue.mono {down : Nat} (more : unavailable ≤ down)
    (issues : MayIssue existing ready budget down call entries) :
    MayIssue existing ready budget unavailable call entries := by
  have weaken : ∀ entry, Affords existing ready budget down entry →
      Affords existing ready budget unavailable entry := fun entry affords disrupts =>
    (affords disrupts).imp id (lt_of_le_of_lt more)
  induction issues with
  | here due affords => exact .here due (weaken _ affords)
  | later affords _ ih => exact .later (weaken _ affords) ih

variable {name : String} {want : Application}

theorem affords_of_absent (gone : existing[name]? = none) :
    Affords existing ready budget unavailable (name, want) := by
  rintro ⟨cur, hit, -⟩
  simp only [gone] at hit
  cases hit

theorem affords_of_stored {name : String} {want cur : Application}
    (stored : existing[name]? = some cur) (affordable : changed cur want = true →
      childRunning cur ready = true → budget = 0 ∨ unavailable < budget) :
    Affords existing ready budget unavailable (name, want) := by
  rintro ⟨other, hit, differs, running⟩
  obtain rfl : cur = other := Option.mem_unique stored hit
  exact affordable differs running

/-- Every call of the loop over the wanted children is one it may issue with the budget it
starts from: the number of children that are down never decreases. -/
theorem mayIssue_of_mem_convergeChildren
    (issued : call ∈ (convergeChildren answers existing ready budget entries unavailable).1) :
    MayIssue existing ready budget unavailable call entries := by
  induction entries generalizing unavailable with
  | nil => simp [convergeChildren] at issued
  | cons entry rest ih =>
    obtain ⟨name, want⟩ := entry
    cases stored : existing[name]? with
    | none =>
      simp only [convergeChildren, stored, List.mem_cons] at issued
      rcases issued with rfl | later
      · exact .here (.create stored) (affords_of_absent stored)
      · exact .later (affords_of_absent stored) (ih later)
    | some cur =>
      simp only [convergeChildren, stored] at issued
      cases differs : changed cur want with
      | false =>
        simp only [differs, Bool.not_false, if_true] at issued
        refine .later (affords_of_stored stored fun differs' => ?_) (ih issued)
        rw [differs] at differs'
        cases differs'
      | true =>
        simp only [differs, Bool.not_true, Bool.false_eq_true, if_false] at issued
        split at issued
        · cases issued
        rename_i notSpent
        have affords : Affords existing ready budget unavailable (name, want) := by
          refine affords_of_stored stored fun _ running => ?_
          simp only [running, Bool.true_and, Bool.and_eq_true, decide_eq_true_eq,
            not_and, not_le] at notSpent
          exact (Nat.eq_zero_or_pos budget).imp id notSpent
        rcases List.mem_cons.1 issued with rfl | later
        · exact .here (.update stored differs) affords
        refine .later affords ((ih later).mono ?_)
        split <;> omega

/-- When every call is refused, an affordable entry costs nothing: the loop issues what is due
for it and goes on as if it were not there. -/
theorem mem_convergeChildren_cons_of_refused (refused : ∀ call, answers.accepts call = false)
    {e : String × Application} {rest : List (String × Application)}
    (affords : Affords existing ready budget unavailable e) :
    call ∈ (convergeChildren answers existing ready budget (e :: rest) unavailable).1 ↔
      Due existing e.1 e.2 call ∨
        call ∈ (convergeChildren answers existing ready budget rest unavailable).1 := by
  obtain ⟨name, want⟩ := e
  cases stored : existing[name]? with
  | none =>
    have due : Due existing name want call ↔ call = .createApplication want := by
      constructor
      · rintro (_ | ⟨hit, -⟩)
        · rfl
        · rw [stored] at hit
          cases hit
      rintro rfl
      exact .create stored
    simp [convergeChildren, stored, due]
  | some cur =>
    have due : Due existing name want call ↔
        changed cur want = true ∧ call = .updateApplication (mergeManaged cur want) := by
      constructor
      · rintro (gone | ⟨hit, differs⟩)
        · rw [stored] at gone
          cases gone
        · cases stored.symm.trans hit
          exact ⟨differs, rfl⟩
      rintro ⟨differs, rfl⟩
      exact .update stored differs
    cases differs : changed cur want with
    | false => simp [convergeChildren, stored, differs, due]
    | true =>
      have notSpent : (childRunning cur ready && decide (0 < budget) &&
          decide (budget ≤ unavailable)) = false := by
        rw [Bool.eq_false_iff]
        intro spent
        simp only [Bool.and_eq_true, decide_eq_true_eq] at spent
        have := affords ⟨cur, stored, differs, spent.1.1⟩
        omega
      simp [convergeChildren, stored, differs, notSpent, refused, due]

theorem mem_convergeChildren_of_refused (refused : ∀ call, answers.accepts call = false)
    (issues : MayIssue existing ready budget unavailable call entries) :
    call ∈ (convergeChildren answers existing ready budget entries unavailable).1 := by
  induction issues with
  | here due affords => exact (mem_convergeChildren_cons_of_refused refused affords).2 (.inl due)
  | later affords _ ih => exact (mem_convergeChildren_cons_of_refused refused affords).2 (.inr ih)

/-- Over entries in name order, being affordable up to an entry is being affordable at every
entry whose name does not come after it. -/
theorem mayIssue_iff_of_sorted (sorted : entries.Pairwise fun a b => a.1 < b.1) :
    MayIssue existing ready budget unavailable call entries ↔
      ∃ e ∈ entries, Due existing e.1 e.2 call ∧
        ∀ other ∈ entries, other.1 ≤ e.1 → Affords existing ready budget unavailable other := by
  induction entries with
  | nil =>
    constructor
    · rintro ⟨⟩
    · simp
  | cons first rest ih =>
    obtain ⟨firstIsLeast, sortedRest⟩ := List.pairwise_cons.1 sorted
    constructor
    · rintro (⟨due, affords⟩ | ⟨affords, issues⟩)
      · refine ⟨first, .head _, due, List.forall_mem_cons.2 ⟨fun _ => affords, ?_⟩⟩
        intro other mem pre
        exact absurd (firstIsLeast other mem) (not_lt.2 pre)
      · obtain ⟨e, mem, due, within⟩ := (ih sortedRest).1 issues
        exact ⟨e, .tail _ mem, due, List.forall_mem_cons.2 ⟨fun _ => affords, within⟩⟩
    rintro ⟨e, mem, due, within⟩
    obtain ⟨firstAffords, restAffords⟩ := List.forall_mem_cons.1 within
    rcases List.mem_cons.1 mem with rfl | later
    · exact .here due (firstAffords le_rfl)
    exact .later (firstAffords (firstIsLeast e later).le)
      ((ih sortedRest).2 ⟨e, later, due, restAffords⟩)

theorem mayIssue_toList_iff {desired : Children} :
    MayIssue existing ready budget unavailable call desired.toList ↔
      ∃ name want, desired[name]? = some want ∧ Due existing name want call ∧
        ∀ other app, desired[other]? = some app → other ≤ name →
          Affords existing ready budget unavailable (other, app) := by
  have sorted : desired.toList.Pairwise fun a b => a.1 < b.1 :=
    Std.ExtTreeMap.ordered_keys_toList.imp compare_lt_iff_lt.1
  simp only [mayIssue_iff_of_sorted sorted, Prod.exists, Prod.forall,
    Std.ExtTreeMap.mem_toList_iff_getElem?_eq_some]

end

/-- The calls of the loop over the wanted children, with everything it is given. -/
def childWrites (answers : Answers) (set : ApplicationSet) (nodes : List Node)
    (apps children : List Application) : List Call :=
  let existing := ownedChildren set apps
  let desired := (wanted set (renderedByName children) existing).1
  (convergeChildren answers existing (readyNodes nodes) set.spec.rolloutBudget desired.toList
    (unavailableAtStart existing desired (readyNodes nodes) set.spec.rolloutBudget)).1

variable {children : List Application}

/-- Besides services and status, converging a set writes wanted children and prunes. -/
theorem mem_converge_iff (aboutChild : call.besideChildren = false) :
    call ∈ converge ds answers set nodes apps children ↔
      call ∈ childWrites answers set nodes apps children ∨
        call ∈ prune set (ownedChildren set apps)
          (wanted set (renderedByName children) (ownedChildren set apps)).1 := by
  have beside : ∀ {calls : List Call}, (call ∈ calls → call.besideChildren = true) →
      (call ∈ calls ↔ False) := by
    intro calls isBeside
    refine iff_false_intro fun mem => ?_
    rw [isBeside mem] at aboutChild
    cases aboutChild
  simp only [converge, List.mem_append]
  rw [beside convergeServices_beside, beside writeStatus_beside, false_or, or_false]
  rfl

theorem childWrites_due (issued : call ∈ childWrites answers set nodes apps children) :
    ∃ name want, (wanted set (renderedByName children) (ownedChildren set apps)).1[name]? =
      some want ∧ Due (ownedChildren set apps) name want call := by
  obtain ⟨name, want, hit, due, -⟩ :=
    mayIssue_toList_iff.1 (mayIssue_of_mem_convergeChildren issued)
  exact ⟨name, want, hit, due⟩

theorem mem_prune_iff {existing desired : Children} :
    call ∈ prune set existing desired ↔ set.spec.prune = true ∧ ∃ (name : String) (c : Application),
      existing[name]? = some c ∧ name ∉ desired ∧ call = .deleteApplication c.metadata.ns name := by
  unfold prune
  split
  next on =>
    simp only [List.mem_filterMap, Prod.exists, Std.ExtTreeMap.mem_toList_iff_getElem?_eq_some,
      Option.ite_none_left_eq_some, Option.some.injEq, Std.ExtTreeMap.contains_iff_mem, on, true_and]
    simp only [eq_comm (a := call)]
  · simp_all

end

end Horchestra.AppSet
