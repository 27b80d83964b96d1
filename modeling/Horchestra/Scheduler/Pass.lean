import Horchestra.Scheduler.Cycle
import Horchestra.Scheduler.Preference

/-!
# A scheduling pass

A pass lists nodes and applications once and takes the pending applications in turn.  One that is
bound is entered in the snapshot, and the filters judge the next one against that.  The scores, what
the volumes of an application require and the answers of the control plane come with each attempt.

`judged_of_bound`: whatever is bound was let on its node by every filter, against all that was
placed when the pass began and all that was bound before it.  So a pass never overcommits a node,
and never binds one application where another repels it.
-/

namespace Horchestra.Scheduler

open Api

/-! ## The filters -/

def schedulingLabel (n : Node) (key : String) : Option String :=
  n.status.labels[key]?.or n.metadata.labels[key]?

/-- A node that lacks the key is alone. -/
def Snapshot.domain (snap : Snapshot) (node key : String) : List NodeInfo :=
  match snap.find? (·.node.metadata.name == node) with
  | none => []
  | some self =>
    self :: match schedulingLabel self.node key with
      | none => []
      | some want => snap.filter fun n =>
        n.node.metadata.name != node && schedulingLabel n.node key == some want

def domainHasMatch (snap : Snapshot) (node ns : String) (t : WorkloadAffinityTerm) : Bool :=
  (snap.domain node t.topologyKey).any fun n =>
    n.apps.any fun a => a.ns == ns && subsetMatch t.labelSelector a.labels

def nodeInDomain (snap : Snapshot) (node domainOf key : String) : Bool :=
  (snap.domain domainOf key).any (·.node.metadata.name == node)

def attracting (app : Application) : List WorkloadAffinityTerm :=
  (app.spec.placement.affinity.bind (·.workloadAffinity)).elim [] (·.required)

def workloadAffinityFilter (app : Application) (snap : Snapshot) (n : NodeInfo) : Bool :=
  let node := n.node.metadata.name
  (attracting app).all (domainHasMatch snap node app.metadata.ns) &&
    !(placedFromApp app).antiAffinity.any (domainHasMatch snap node app.metadata.ns) &&
    !snap.any fun other => other.apps.any fun placed => placed.ns == app.metadata.ns &&
      placed.antiAffinity.any fun t => subsetMatch t.labelSelector app.metadata.labels &&
        nodeInDomain snap node other.node.metadata.name t.topologyKey

def nodeResourcesFitFilter (app : Application) (n : NodeInfo) : Bool :=
  ((n.requested.add app.spec.resources.effectiveRequests).exceeds (fun _ => "")
    n.node.status.capacity false).isEmpty

def nodeSchedulableFilter (now timeout : Int) (n : Node) : Bool :=
  !n.unschedulable && n.status.ready && n.status.capacity.cpu != 0 && n.status.capacity.memory != 0 &&
    n.status.heartbeat.any fun beat => decide (now - beat ≤ timeout)

def runtimeClassFilter (app : Application) (n : Node) : Bool :=
  app.spec.runtimeClassName == "" || n.status.runtimes.contains app.spec.runtimeClassName

def routedNetworkFilter (app : Application) (n : Node) : Bool :=
  app.spec.hostNetwork != some false || n.status.routedNetwork

def nodeAffinityFilter (app : Application) (n : Node) : Bool :=
  subsetMatch app.spec.placement.nodeSelector n.schedulingLabels &&
    ((app.spec.placement.affinity.bind (·.nodeAffinity)).bind (·.required)).all
      (nodeSelectorMatches · n.schedulingLabels)

/-! ## The pass -/

/-- One attempt.  `required` is the node the volumes force the application onto, empty where they
force none, unless looking at them fails. -/
structure Attempt where
  app : Application
  now : Int
  required : Option String
  scores : List NodeInfo → String → Int
  (preBind bind : String → Bool)

def Attempt.profile (t : Attempt) (timeout : Int) : Framework where
  preFilter _ _ := t.required.isSome
  filter app snap n :=
    nodeSchedulableFilter t.now timeout n.node && runtimeClassFilter app n.node &&
    routedNetworkFilter app n.node && nodeAffinityFilter app n.node &&
    workloadAffinityFilter app snap n && nodeResourcesFitFilter app n &&
    t.required.all fun node => node == "" || node == n.node.metadata.name
  postFilter _ _ := none
  preScore _ _ _ := true
  score _ _ feasible := some (t.scores feasible)
  reserve := [workloadAffinity, nodeResourcesFit]
  permit _ _ _ := true
  preBind _ node _ := t.preBind node
  bind _ node _ := t.bind node

/-- An application and the name of its node. -/
abbrev Placing := Application × String

def requestsOn (placed : List Placing) (node : String) : ResourceAmounts :=
  (placed.filter (·.2 == node)).foldl (fun sum p => sum.add p.1.spec.resources.effectiveRequests) {}

def infoOf (placed : List Placing) (n : Node) : NodeInfo :=
  ⟨n, requestsOn placed n.metadata.name,
    (placed.filter (·.2 == n.metadata.name)).map fun p => placedFromApp p.1⟩

def snapshotOf (nodes : List Node) (placed : List Placing) : Snapshot :=
  (nodes.insertionSort (·.metadata.name ≤ ·.metadata.name)).map (infoOf placed)

def placedIn (apps : List Application) : List Placing :=
  (apps.filter fun app => app.spec.placement.nodeName != "" && !app.finished).map fun app =>
    (app, app.spec.placement.nodeName)

def buildSnapshot (nodes : List Node) (apps : List Application) : Snapshot :=
  snapshotOf nodes (placedIn apps)

def pending (apps : List Application) : List Application :=
  apps.filter (·.spec.placement.nodeName == "")

/-- The loop over the queue: what is bound, in turn, and the snapshot after it. -/
def scheduleAll (timeout : Int) : List Attempt → Snapshot → List Placing × Snapshot
  | [], snap => ([], snap)
  | t :: rest, snap =>
    match scheduleApp (t.profile timeout) t.app snap with
    | (false, after) => scheduleAll timeout rest after
    | (true, after) =>
      let (bound, last) := scheduleAll timeout rest after
      (((t.profile timeout).choose t.app snap).toList.map (t.app, ·) ++ bound, last)

def scheduleOnce (timeout : Int) (nodes : List Node) (apps : List Application)
    (queue : List Attempt) :
    List Placing :=
  (scheduleAll timeout queue (buildSnapshot nodes apps)).1

/-! ## One attempt -/

section

variable {nodes : List Node} {placed : List Placing} {app : Application} {timeout : Int}

theorem mem_snapshotOf {n : NodeInfo} :
    n ∈ snapshotOf nodes placed ↔ ∃ m ∈ nodes, infoOf placed m = n := by
  simp [snapshotOf]

theorem mem_apps_infoOf {n : Node} {x : PlacedApp} : x ∈ (infoOf placed n).apps ↔
    ∃ p ∈ placed, p.2 = n.metadata.name ∧ placedFromApp p.1 = x := by
  simp [infoOf, and_assoc]

theorem update_snapshotOf {node : String} : (snapshotOf nodes placed).update node (held app 1 1) =
    snapshotOf nodes (placed ++ [(app, node)]) := by
  simp only [Snapshot.update, snapshotOf, List.map_map]
  refine List.map_congr_left fun n _ => ?_
  by_cases eq : n.metadata.name = node
  · simp [infoOf, requestsOn, held, eq]
  · simp [infoOf, requestsOn, eq, Ne.symm eq]

def keyOf (app : Application) : String × String := (app.metadata.ns, app.metadata.name)

theorem unplaced_snapshotOf (new : ∀ p ∈ placed, keyOf p.1 ≠ keyOf app) :
    Unplaced app (snapshotOf nodes placed) := by
  intro n mem other hit
  obtain ⟨m, -, rfl⟩ := mem_snapshotOf.1 mem
  obtain ⟨p, listed, -, rfl⟩ := mem_apps_infoOf.1 hit
  have ne := new p listed
  by_contra eq
  simp only [placedFromApp, Bool.not_eq_false, Bool.and_eq_true, beq_iff_eq] at eq
  exact ne (Prod.ext eq.1 eq.2)

theorem exists_mem_pickBest {feasible : List NodeInfo} (nonempty : feasible ≠ [])
    (scores : String → Int) : ∃ n ∈ feasible, n.node.metadata.name = pickBest feasible scores := by
  obtain ⟨n, rest, rfl⟩ := List.exists_cons_of_ne_nil nonempty
  rw [pickBest, List.foldl_cons, if_pos (.inl rfl)]
  refine List.foldlRecOn (motive := fun best : String × Int =>
    ∃ m ∈ n :: rest, m.node.metadata.name = best.1) rest _ ⟨n, .head _,
      rfl⟩ fun best chosen m mem => ?_
  split
  · exact ⟨m, .tail _ mem, rfl⟩
  · exact chosen

/-- The node that is chosen is one that every filter lets the application on. -/
theorem filter_of_choose {t : Attempt} {node : String}
    (chosen : (t.profile timeout).choose app (snapshotOf nodes placed) = some node) :
    ∃ n ∈ nodes, n.metadata.name = node ∧
      (t.profile timeout).filter app (snapshotOf nodes placed) (infoOf placed n) = true := by
  unfold Framework.choose at chosen
  split at chosen
  · split at chosen
    · cases chosen
    next nonempty =>
      simp only [Attempt.profile, if_true, Option.map_some, Option.some.injEq] at chosen
      obtain ⟨n, mem, eq⟩ := exists_mem_pickBest nonempty (t.scores _)
      obtain ⟨listed, passes⟩ := List.mem_filter.1 mem
      obtain ⟨m, known, rfl⟩ := mem_snapshotOf.1 listed
      exact ⟨m, known, eq.trans chosen, passes⟩
  · cases chosen

/-- **One attempt** enters the application with the node it was judged for, or changes nothing. -/
theorem scheduleApp_cases {t : Attempt} (new : ∀ p ∈ placed, keyOf p.1 ≠ keyOf t.app) :
    scheduleApp (t.profile timeout) t.app
    (snapshotOf nodes placed) = (false, snapshotOf nodes placed) ∨
      ∃ node, (t.profile timeout).choose t.app (snapshotOf nodes placed) = some node ∧
        scheduleApp (t.profile timeout) t.app (snapshotOf nodes placed) =
          (true, snapshotOf nodes (placed ++ [(t.app, node)])) := by
  unfold scheduleApp
  cases chosen : (t.profile timeout).choose t.app (snapshotOf nodes placed) with
  | none => exact .inl rfl
  | some node =>
    -- the plugins place and charge in turn; what fails after that gives both back
    have unheld : (snapshotOf nodes placed).update node (held t.app 0 0) =
      snapshotOf nodes placed := by
      simp [Snapshot.update, held]
    have places := @charges_workloadAffinity t.app _ node (@unplaced_snapshotOf nodes _ _ new)
    have charges := @charges_nodeResourcesFit t.app (snapshotOf nodes placed) node
    have undone := (congrArg (nodeResourcesFit.unreserve t.app node) (places.unreserve 1 0)).trans
      (charges.unreserve 0 0)
    have reserved : runReserve t.app node [] (t.profile timeout).reserve (snapshotOf nodes placed) =
        (true, (snapshotOf nodes placed).update node (held t.app 1 1)) := by
      rw [← charges.reserve 0 1, ← places.reserve 0 0, unheld]
      rfl
    simp only [reserved]
    split
    · exact .inr ⟨node, rfl, congrArg (Prod.mk true) update_snapshotOf⟩
    · exact .inl (congrArg (Prod.mk false) (undone.trans unheld))

/-! ## A whole pass -/

/-- **What is bound was judged** against all that was placed before it. -/
theorem judged_of_bound {queue : List Attempt}
    (new : (placed.map (keyOf ·.1) ++ queue.map (keyOf ·.app)).Nodup) {pre post : List Placing}
    {p : Placing} (bound : (scheduleAll timeout queue (snapshotOf nodes placed)).1 = pre ++
    p :: post) :
    ∃ t ∈ queue, t.app = p.1 ∧ ∃ n ∈ nodes, n.metadata.name = p.2 ∧
      (t.profile timeout).filter p.1 (snapshotOf nodes (placed ++ pre))
        (infoOf (placed ++ pre) n) := by
  -- a failed attempt leaves the snapshot as it was, one that binds adds its application to it
  induction queue generalizing placed pre with
  | nil => simp [scheduleAll] at bound
  | cons t rest ih =>
    have unplaced : ∀ q ∈ placed, keyOf q.1 ≠ keyOf t.app := fun q mem =>
      (List.nodup_append.1 new).2.2 _ (List.mem_map_of_mem mem) _ (.head _)
    rw [scheduleAll] at bound
    obtain failed | ⟨node, chosen, done⟩ := @scheduleApp_cases nodes _ timeout _ unplaced
    · rw [failed] at bound
      obtain ⟨u, mem, judged⟩ := ih (new.sublist (by simp)) bound
      exact ⟨u, .tail _ mem, judged⟩
    rw [done] at bound
    simp only [chosen, Option.toList_some, List.map_cons, List.map_nil,
      List.singleton_append] at bound
    cases pre with
    | nil =>
      obtain ⟨rfl, -⟩ := List.cons.inj bound
      obtain ⟨n, known, named, passes⟩ := filter_of_choose chosen
      exact ⟨t, .head _, rfl, n, known, named, by simpa using passes⟩
    | cons q more =>
      obtain ⟨rfl, after⟩ := List.cons.inj bound
      obtain ⟨u, mem, judged⟩ := ih (by simpa using new) after
      rw [List.append_assoc] at judged
      exact ⟨u, .tail _ mem, judged⟩

end

/-- Names tell nodes, and applications of a namespace, apart; and the queue has the pending
applications, in any order. -/
structure Queued (nodes : List Node) (apps : List Application) (queue : List Attempt) : Prop where
  nodesApart : (nodes.map (·.metadata.name)).Nodup
  appsApart : (apps.map keyOf).Nodup
  ordered : (queue.map (·.app)).Perm (pending apps)

section

variable {timeout : Int} {nodes : List Node} {apps : List Application} {queue : List Attempt}

theorem Queued.new (queued : Queued nodes apps queue) :
    ((placedIn apps).map (keyOf ·.1) ++ queue.map (keyOf ·.app)).Nodup := by
  have keys := queued.ordered.map keyOf
  rw [List.map_map] at keys
  refine ((List.Perm.refl _).append keys).nodup_iff.2 ?_
  have split :=
    ((List.filter_append_perm (·.spec.placement.nodeName != "") apps).map keyOf).nodup_iff.2
    queued.appsApart
  rw [List.map_append] at split
  refine split.sublist ?_
  simp only [placedIn, List.map_map, pending, bne, Bool.not_not]
  refine List.Sublist.append ?_ (List.Sublist.refl _)
  exact (List.monotone_filter_right apps fun app live => (Bool.and_eq_true _ _ ▸ live).1).map keyOf

theorem le_of_fits {total capacity : ResourceAmounts} (cpu : capacity.cpu ≠ 0)
    (memory : capacity.memory ≠ 0)
    (fits : (total.exceeds (fun _ => "") capacity false).isEmpty = true) :
    total.cpu ≤ capacity.cpu ∧ total.memory ≤ capacity.memory := by
  simpa [ResourceAmounts.exceeds, overResource, cpu, memory] using fits

/-- **A pass never overcommits a node** that it binds an application to. -/
theorem pass_never_overcommits (queued : Queued nodes apps queue) {n : Node} (known : n ∈ nodes)
    (bound : ∃ p ∈ scheduleOnce timeout nodes apps queue, p.2 = n.metadata.name) :
    let total := requestsOn (placedIn apps ++ scheduleOnce timeout nodes apps queue) n.metadata.name
    total.cpu ≤ n.status.capacity.cpu ∧ total.memory ≤ n.status.capacity.memory := by
  -- the last one that is bound there was judged with all the others in place
  obtain ⟨p, found⟩ :=
    Option.isSome_iff_exists.1 (List.find?_isSome (p := (·.2 == n.metadata.name)).2
    (by simpa using bound : ∃ p ∈ (scheduleOnce timeout nodes apps queue).reverse, _))
  obtain ⟨here, post, pre, split, free⟩ := List.find?_eq_some_iff_append.1 found
  replace split : scheduleOnce timeout nodes apps queue = pre.reverse ++ p :: post.reverse := by
    simpa using congrArg List.reverse split
  obtain ⟨t, -, -, m, mem, named, passes⟩ := judged_of_bound queued.new split
  obtain rfl : m = n :=
    List.inj_on_of_nodup_map queued.nodesApart mem known (named.trans (beq_iff_eq.1 here))
  simp only [Attempt.profile, Bool.and_eq_true, nodeSchedulableFilter, bne_iff_ne] at passes
  obtain ⟨⟨⟨⟨⟨⟨schedulable, -⟩, -⟩, -⟩, -⟩, fits⟩, -⟩ := passes
  obtain ⟨⟨⟨-, cpu⟩, memory⟩, -⟩ := schedulable
  have last : requestsOn (placedIn apps ++ (pre.reverse ++ p :: post.reverse)) m.metadata.name =
      (infoOf (placedIn apps ++
        pre.reverse) m).requested.add p.1.spec.resources.effectiveRequests := by
    have after : post.reverse.filter (·.2 == m.metadata.name) = [] := by simpa using free
    simp [requestsOn, infoOf, here, after]
  rw [split, last]
  exact le_of_fits cpu memory fits

def smallNode (name zone : String) : Node where
  metadata := { name, labels := .ofList [("zone", zone)] }
  status := { capacity := ⟨4, 4⟩, ready := true, heartbeat := some 0 }

def smallApp (name node : String) (cpu : Nat) (affinity : Option Affinity := none) :
    Application where
  metadata := { ns := "team", name, labels := .ofList [("app", name)] }
  spec := { resources := { requests := ⟨cpu, 1⟩ }, placement := { nodeName := node, affinity } }

def attemptOf (app : Application) : Attempt :=
  ⟨app, 0, some "", fun _ _ => 0, fun _ => true, fun _ => true⟩

-- `web` fills the node up, and there is no room for `api` then
theorem pass_never_overcommits_small :
    let nodes := [smallNode "n1" "east"]
    let apps := [smallApp "db" "n1" 1, smallApp "web" "" 3, smallApp "api" "" 3]
    let queue := [attemptOf (smallApp "web" "" 3), attemptOf (smallApp "api" "" 3)]
    scheduleOnce 45 nodes apps queue = [(smallApp "web" "" 3, "n1")] ∧
      (requestsOn (placedIn apps ++ scheduleOnce 45 nodes apps queue) "n1").cpu ≤ 4 :=
  ⟨by decide +kernel, (pass_never_overcommits
    ⟨by decide +kernel, by decide +kernel, .refl _⟩ (.head _) (by decide +kernel)).1⟩

/-! ## Required terms -/

/-- Nodes that are one, or share their value of a key. -/
def Together (key : String) (a b : Node) : Prop :=
  a.metadata.name = b.metadata.name ∨
    ∃ v, schedulingLabel a key = some v ∧ schedulingLabel b key = some v

/-- A term of an application finds another one of its namespace where it looks for it. -/
def Finds (nodes : List Node) (t : WorkloadAffinityTerm) (p q : Placing) : Prop :=
  (q.1.metadata.ns = p.1.metadata.ns ∧ subsetMatch t.labelSelector q.1.metadata.labels = true) ∧
    ∃ a ∈ nodes, ∃ b ∈ nodes, a.metadata.name = p.2 ∧ b.metadata.name = q.2 ∧
      Together t.topologyKey a b

def Repels (nodes : List Node) (p q : Placing) : Prop :=
  ∃ t ∈ (placedFromApp p.1).antiAffinity, Finds nodes t p q

section

variable {placed : List Placing} {n : Node} (apart : (nodes.map (·.metadata.name)).Nodup)
  (known : n ∈ nodes)
include apart known

theorem find?_snapshotOf :
    (snapshotOf nodes placed).find? (·.node.metadata.name == n.metadata.name) =
    some (infoOf placed n) := by
  cases found : (snapshotOf nodes placed).find? (·.node.metadata.name == n.metadata.name) with
  | none =>
    have all := List.find?_eq_none.1 found _ (mem_snapshotOf.2 ⟨n, known, rfl⟩)
    exact absurd (beq_self_eq_true _) all
  | some info =>
    obtain ⟨b, mem, rfl⟩ := mem_snapshotOf.1 (List.mem_of_find?_eq_some found)
    have named := List.find?_some found
    rw [List.inj_on_of_nodup_map apart mem known (beq_iff_eq.1 named)]

theorem mem_domain_iff {key : String} {info : NodeInfo} :
    info ∈ (snapshotOf nodes placed).domain n.metadata.name key ↔
      ∃ b ∈ nodes, Together key n b ∧ infoOf placed b = info := by
  simp only [Snapshot.domain, find?_snapshotOf apart known, List.mem_cons]
  constructor
  · rintro (rfl | rest)
    · exact ⟨n, known, .inl rfl, rfl⟩
    split at rest
    · cases rest
    next want eq =>
      obtain ⟨listed, shares⟩ := List.mem_filter.1 rest
      obtain ⟨b, mem, rfl⟩ := mem_snapshotOf.1 listed
      exact ⟨b, mem, .inr ⟨want, eq, beq_iff_eq.1 (Bool.and_eq_true _ _ ▸ shares).2⟩, rfl⟩
  rintro ⟨b, mem, together, rfl⟩
  by_cases one : b.metadata.name = n.metadata.name
  · rw [List.inj_on_of_nodup_map apart mem known one]
    exact .inl rfl
  obtain ⟨v, here, there⟩ := together.resolve_left (Ne.symm one)
  right
  simp only [infoOf, here]
  exact List.mem_filter.2 ⟨mem_snapshotOf.2 ⟨b, mem, rfl⟩, by simp [one, there]⟩

theorem domainHasMatch_iff {p : Placing} (here : n.metadata.name = p.2) {t : WorkloadAffinityTerm} :
    domainHasMatch (snapshotOf nodes placed) n.metadata.name p.1.metadata.ns t = true ↔
      ∃ q ∈ placed, Finds nodes t p q := by
  simp only [domainHasMatch, List.any_eq_true, mem_domain_iff apart known]
  constructor
  · rintro ⟨_, ⟨b, mem, together, rfl⟩, x, listed, hit⟩
    obtain ⟨q, placed, there, rfl⟩ := mem_apps_infoOf.1 listed
    exact ⟨q, placed, by simpa [placedFromApp] using hit, n, known, b, mem, here, there.symm,
      together⟩
  rintro ⟨q, listed, hit, a, mem, b, mem', at_, there, together⟩
  obtain rfl := List.inj_on_of_nodup_map apart mem known (at_.trans here.symm)
  exact ⟨_, ⟨b, mem', together, rfl⟩, placedFromApp q.1,
    mem_apps_infoOf.2 ⟨q, listed, there.symm, rfl⟩, by simpa [placedFromApp] using hit⟩

theorem apart_of_filter {p : Placing} (here : n.metadata.name = p.2)
    (passes : workloadAffinityFilter p.1 (snapshotOf nodes placed) (infoOf placed n) = true) :
    (∀ t ∈ attracting p.1, ∃ q ∈ placed, Finds nodes t p q) ∧
      ∀ q ∈ placed, ¬ Repels nodes p q ∧ ¬ Repels nodes q p := by
  simp only [workloadAffinityFilter, Bool.and_eq_true, Bool.not_eq_true',
    List.all_eq_true] at passes
  obtain ⟨⟨near, anti⟩, repelled⟩ := passes
  refine ⟨fun t mem => (domainHasMatch_iff apart known here).1 (near t mem),
    fun q listed => ⟨?_, ?_⟩⟩
  · rintro ⟨t, mem, found⟩
    exact List.any_eq_false.1 anti t mem ((domainHasMatch_iff apart known here).2 ⟨q, listed,
      found⟩)
  rintro ⟨t, mem, ⟨sameNs, selects⟩, a, mem', b, mem'', there, at_, together⟩
  have free := List.any_eq_false.1 repelled _ (mem_snapshotOf.2 ⟨a, mem', rfl⟩)
  refine free (List.any_eq_true.2 ⟨_, mem_apps_infoOf.2 ⟨q, listed, there.symm, rfl⟩, ?_⟩)
  simp only [Bool.and_eq_true, beq_iff_eq, List.any_eq_true]
  refine ⟨sameNs.symm, t, mem, selects, ?_⟩
  refine List.any_eq_true.2 ⟨_, (mem_domain_iff apart mem').2 ⟨b, mem'', together, rfl⟩, ?_⟩
  exact beq_iff_eq.2 (at_.trans here.symm)

end

/-- **A pass keeps required terms**: what it binds and what is placed at the end do not repel each
other, and what an application requires beside it was there before it. -/
theorem pass_keeps_required_terms (queued : Queued nodes apps queue) {pre post : List Placing}
    {p : Placing} (bound : scheduleOnce timeout nodes apps queue = pre ++ p :: post) :
    (∀ t ∈ attracting p.1, ∃ q ∈ placedIn apps ++ pre, Finds nodes t p q) ∧
      ∀ q ∈ placedIn apps ++ pre ++ post, ¬ Repels nodes p q ∧ ¬ Repels nodes q p := by
  have judged {pre post : List Placing} {p : Placing}
      (bound : scheduleOnce timeout nodes apps queue = pre ++ p :: post) :
      (∀ t ∈ attracting p.1, ∃ q ∈ placedIn apps ++ pre, Finds nodes t p q) ∧
        ∀ q ∈ placedIn apps ++ pre, ¬ Repels nodes p q ∧ ¬ Repels nodes q p := by
    obtain ⟨t, -, -, n, known, here, passes⟩ := judged_of_bound queued.new bound
    simp only [Attempt.profile, Bool.and_eq_true] at passes
    exact apart_of_filter queued.nodesApart known here passes.1.1.2
  refine ⟨(judged bound).1, fun q listed => ?_⟩
  rcases List.mem_append.1 listed with before | after
  · exact (judged bound).2 q before
  obtain ⟨between, rest, rfl⟩ := List.append_of_mem after
  have later := @judged (pre ++ p :: between) rest q (by simpa using bound)
  exact (later.2 p (by simp)).symm

end

def besideDb : Application :=
  smallApp "web" "" 1 (some { workloadAffinity := some {
    required := [{ labelSelector := .ofList [("app", "db")], topologyKey := "zone" }] } })

def awayFromWeb : Application :=
  smallApp "api" "" 1 (some { workloadAntiAffinity := some {
    required := [{ labelSelector := .ofList [("app", "web")], topologyKey := "zone" }] } })

-- `web` follows `db` to the east, and `api` stays away from it
theorem pass_keeps_required_terms_small :
    let nodes := [smallNode "n1" "east", smallNode "n2" "west"]
    let apps := [smallApp "db" "n1" 1, besideDb, awayFromWeb]
    let bound := scheduleOnce 45 nodes apps [attemptOf besideDb, attemptOf awayFromWeb]
    bound = [(besideDb, "n1"), (awayFromWeb, "n2")] ∧
      (attracting besideDb).length = 1 ∧
      (∀ t ∈ attracting besideDb, ∃ q ∈ placedIn apps ++ [], Finds nodes t (besideDb, "n1") q) ∧
      (placedFromApp awayFromWeb).antiAffinity.length = 1 ∧
      ¬ Repels nodes (awayFromWeb, "n2") (besideDb, "n1") := by
  intro nodes apps bound
  have eq : bound = [(besideDb, "n1"), (awayFromWeb, "n2")] := by decide +kernel
  have kept := @pass_keeps_required_terms 45 nodes apps [attemptOf besideDb, attemptOf awayFromWeb]
    ⟨by decide +kernel, by decide +kernel, .refl _⟩ [] [(awayFromWeb, "n2")] (besideDb, "n1") eq
  exact ⟨eq, rfl, kept.1, rfl, (kept.2 (awayFromWeb, "n2") (by simp)).2⟩

end Horchestra.Scheduler
