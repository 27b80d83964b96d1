import Horchestra.Api.Core

/-!
# The scheduling cycle of one application

`failed_placement_restores`: when an application is not bound, every node of the snapshot is charged
what it was charged before, and a reservation that fails at one plugin has undone the ones before
  it.
-/

namespace Horchestra.Scheduler

open Api

/-! ## The snapshot -/

structure PlacedApp where
  ns : String
  name : String
  labels : StringMap
  antiAffinity : List WorkloadAffinityTerm

def placedFromApp (app : Application) : PlacedApp where
  ns := app.metadata.ns
  name := app.metadata.name
  labels := app.metadata.labels
  antiAffinity := (app.spec.placement.affinity.bind (·.workloadAntiAffinity)).elim [] (·.required)

/-- A candidate node with what is requested and placed on it. -/
structure NodeInfo where
  node : Node
  requested : ResourceAmounts
  apps : List PlacedApp

def NodeInfo.addApp (n : NodeInfo) (app : PlacedApp) : NodeInfo :=
  { n with apps := n.apps ++ [app] }

def NodeInfo.removeApp (n : NodeInfo) (ns name : String) : NodeInfo :=
  { n with apps := n.apps.eraseP fun app => app.ns == ns && app.name == name }

def NodeInfo.reserve (n : NodeInfo) (r : ResourceAmounts) : NodeInfo :=
  { n with requested := n.requested.add r }

def NodeInfo.unreserve (n : NodeInfo) (r : ResourceAmounts) : NodeInfo :=
  { n with requested := ⟨n.requested.cpu - r.cpu, n.requested.memory - r.memory⟩ }

/-- The nodes in name order; no two have one name. -/
abbrev Snapshot := List NodeInfo

def Snapshot.update (snap : Snapshot) (node : String) (f : NodeInfo → NodeInfo) : Snapshot :=
  snap.map fun n => if n.node.metadata.name = node then f n else n

theorem Snapshot.update_update {node : String} {f g h : NodeInfo → NodeInfo} {snap : Snapshot}
    (named : ∀ n, (f n).node = n.node) (composed : ∀ n ∈ snap, g (f n) = h n) :
    (snap.update node f).update node g = snap.update node h := by
  simp only [update, List.map_map]
  refine List.map_congr_left fun n mem => ?_
  by_cases eq : n.node.metadata.name = node
  · simp [eq, named, composed n mem]
  · simp [eq]

/-! ## The plugins -/

structure ReservePlugin where
  reserve : Application → String → Snapshot → Bool × Snapshot
  unreserve : Application → String → Snapshot → Snapshot

def nodeResourcesFit : ReservePlugin where
  reserve app node snap := (true, snap.update node (·.reserve app.spec.resources.effectiveRequests))
  unreserve app node snap := snap.update node (·.unreserve app.spec.resources.effectiveRequests)

def workloadAffinity : ReservePlugin where
  reserve app node snap := (true, snap.update node (·.addApp (placedFromApp app)))
  unreserve app node snap := snap.update node (·.removeApp app.metadata.ns app.metadata.name)

/-- The other points only read the snapshot; what they answer is a parameter. -/
structure Framework where
  preFilter : Application → Snapshot → Bool
  filter : Application → Snapshot → NodeInfo → Bool
  postFilter : Application → Snapshot → Option String
  preScore : Application → Snapshot → List NodeInfo → Bool
  score : Application → Snapshot → List NodeInfo → Option (String → Int)
  reserve : List ReservePlugin
  (permit preBind bind : Application → String → Snapshot → Bool)

def runUnreserve (plugins : List ReservePlugin) (app : Application) (node : String)
    (snap : Snapshot) :
    Snapshot :=
  plugins.foldl (fun snap p => p.unreserve app node snap) snap

/-- The loop over the plugins; `done` are those that have reserved. -/
def runReserve (app : Application) (node : String) (done : List ReservePlugin) :
    List ReservePlugin → Snapshot → Bool × Snapshot
  | [], snap => (true, snap)
  | p :: rest, snap =>
    match p.reserve app node snap with
    | (true, after) => runReserve app node (done ++ [p]) rest after
    | (false, after) => (false, runUnreserve done app node after)

/-- The highest score; the nodes are in name order, and a tie goes to the first. -/
def pickBest (feasible : List NodeInfo) (scores : String → Int) : String :=
  (feasible.foldl (fun best n =>
    if best.1 = "" ∨ best.2 < scores n.node.metadata.name then
      (n.node.metadata.name, scores n.node.metadata.name)
    else best) ("", 0)).1

def Framework.choose (fw : Framework) (app : Application) (snap : Snapshot) : Option String :=
  if fw.preFilter app snap then
    match snap.filter (fw.filter app snap) with
    | [] => fw.postFilter app snap
    | feasible =>
      if fw.preScore app snap feasible then (fw.score app snap feasible).map (pickBest feasible) else none
  else none

/-- Whether the application is bound, and the snapshot after it. -/
def scheduleApp (fw : Framework) (app : Application) (snap : Snapshot) : Bool × Snapshot :=
  match fw.choose app snap with
  | none => (false, snap)
  | some node =>
    match runReserve app node [] fw.reserve snap with
    | (false, after) => (false, after)
    | (true, held) =>
      if fw.permit app node held && fw.preBind app node held && fw.bind app node held then (true,
        held)
      else (false, runUnreserve fw.reserve app node held)

/-! ## Undoing -/

section

variable (app : Application)

/-- A node on which the application is charged `i` times and placed `j` times. -/
def held (i j : Nat) (n : NodeInfo) : NodeInfo :=
  { n with
    requested := (·.add app.spec.resources.effectiveRequests)^[i] n.requested
    apps := n.apps ++ List.replicate j (placedFromApp app) }

/-- The application has no place in the snapshot. -/
def Unplaced (snap : Snapshot) : Prop :=
  ∀ n ∈ snap, ∀ other ∈ n.apps, (other.ns == app.metadata.ns && other.name == app.metadata.name) =
    false

/-- A plugin that charges `i` times and places `j` times, gives both back, and does neither when it
fails. -/
structure Charges (snap : Snapshot) (node : String) (p : ReservePlugin) (i j : Nat) : Prop where
  reserve : ∀ m n, (p.reserve app node (snap.update node (held app m n))).2 =
    snap.update node (held app (m + i) (n + j))
  unreserve : ∀ m n, p.unreserve app node (snap.update node (held app (m + i) (n + j))) =
    snap.update node (held app m n)
  fails : ∀ {s}, (p.reserve app node s).1 = false → i = 0 ∧ j = 0

variable {app} {snap : Snapshot} {node : String}

theorem charges_nodeResourcesFit : Charges app snap node nodeResourcesFit 1 0 where
  reserve m n := Snapshot.update_update (fun _ => rfl) fun e _ => by
    simp [held, NodeInfo.reserve, Function.iterate_succ_apply']
  unreserve m n := Snapshot.update_update (fun _ => rfl) fun e _ => by
    simp [held, NodeInfo.unreserve, Function.iterate_succ_apply', ResourceAmounts.add]
  fails failed := by cases failed

theorem charges_workloadAffinity (unplaced : Unplaced app snap) :
    Charges app snap node workloadAffinity 0 1 where
  reserve m n := Snapshot.update_update (fun _ => rfl) fun e _ => by
    simp [held, NodeInfo.addApp, List.replicate_succ']
  unreserve m n := Snapshot.update_update (fun _ => rfl) fun e mem => by
    have first : (e.apps ++ List.replicate (n + 1) (placedFromApp app)).eraseP
        (fun other => other.ns == app.metadata.ns && other.name == app.metadata.name) =
        e.apps ++ List.replicate n (placedFromApp app) := by
      rw [List.eraseP_append_right _ (by simpa using unplaced e mem), List.replicate_succ,
        List.eraseP_cons_of_pos (by simp [placedFromApp])]
    simp only [held, NodeInfo.removeApp, first, Nat.add_zero]
  fails failed := by cases failed

/-- The invariant of the loop: the plugins so far give back what is held. -/
theorem runReserve_restores {plugins : List ReservePlugin}
    (charging : ∀ p ∈ plugins, ∃ i j, Charges app snap node p i j) {done : List ReservePlugin}
    {I J : Nat}
    (undone : ∀ m n, runUnreserve done app node (snap.update node (held app (m + I) (n + J))) =
      snap.update node (held app m n)) :
    let res := runReserve app node done plugins (snap.update node (held app I J))
    (if res.1 then runUnreserve (done ++ plugins) app node res.2 else res.2) =
      snap.update node (held app 0 0) := by
  induction plugins generalizing done I J with
  | nil => simpa [runReserve] using undone 0 0
  | cons p rest ih =>
    obtain ⟨i, j, charges⟩ := charging p (.head _)
    have after := charges.reserve I J
    unfold runReserve
    split
    next s reserved =>
      rw [reserved] at after
      have undoes : ∀ m n, runUnreserve (done ++ [p]) app node
          (snap.update node (held app (m + (I + i)) (n + (J + j)))) =
            snap.update node (held app m n) := by
        intro m n
        have past := undone (m + i) (n + j)
        rw [Nat.add_right_comm m, Nat.add_right_comm n, Nat.add_assoc m, Nat.add_assoc n] at past
        simp only [runUnreserve, List.foldl_append, List.foldl_cons, List.foldl_nil] at past ⊢
        rw [past, charges.unreserve]
      simpa [← after] using ih (fun q later => charging q (.tail _ later)) undoes
    rename_i s reserved
    obtain ⟨rfl, rfl⟩ := charges.fails (congrArg Prod.fst reserved)
    obtain rfl : s = _ := (congrArg Prod.snd reserved).symm.trans after
    simpa using undone 0 0

theorem runReserve_append {pre rest done : List ReservePlugin} {p : ReservePlugin}
    {s after failed : Snapshot} (reserved : runReserve app node done pre s = (true, after))
    (fails : p.reserve app node after = (false, failed)) :
    runReserve app node done (pre ++ p :: rest) s =
      (false, runUnreserve (done ++ pre) app node failed) := by
  induction pre generalizing done s with
  | nil =>
    cases reserved
    simp [runReserve, fails]
  | cons q others ih =>
    simp only [List.cons_append, runReserve] at reserved ⊢
    split at reserved
    · rw [ih reserved]
      simp
    · cases reserved

end

theorem failed_placement_restores {fw : Framework} {app : Application} {snap after : Snapshot}
    (plugins : ∀ p ∈ fw.reserve, p = nodeResourcesFit ∨ p = workloadAffinity ∨
      ∀ node s, (p.reserve app node s).2 = s ∧ p.unreserve app node s = s)
    (unplaced : Unplaced app snap) (failed : scheduleApp fw app snap = (false, after)) :
    after = snap ∧ ∀ node before p rest held s, runReserve app node [] before snap = (true, held) →
      p.reserve app node held = (false, s) →
      runReserve app node [] (before ++ p :: rest) snap =
        (false, runUnreserve before app node s) := by
  refine ⟨?_, fun node before p rest held s reserved fails => runReserve_append reserved fails⟩
  unfold scheduleApp at failed
  split at failed
  · cases failed
    rfl
  rename_i node _
  have charging : ∀ p ∈ fw.reserve, ∃ i j, Charges app snap node p i j := by
    intro p member
    rcases plugins p member with rfl | rfl | alone
    · exact ⟨1, 0, charges_nodeResourcesFit⟩
    · exact ⟨0, 1, charges_workloadAffinity unplaced⟩
    · exact ⟨0, 0, fun m n => (alone node _).1, fun m n => (alone node _).2, fun _ => ⟨rfl, rfl⟩⟩
  have unheld : snap.update node (held app 0 0) = snap := by simp [Snapshot.update, held]
  have restores := @runReserve_restores _ _ _ _ charging [] 0 0 fun _ _ => rfl
  rw [unheld] at restores
  split at failed
  next reserved =>
    cases failed
    simpa [reserved] using restores
  rename_i reserved
  split at failed
  · cases failed
  cases failed
  simpa [reserved] using restores

def refusing : Framework :=
  ⟨fun _ _ => true, fun _ _ _ => true, fun _ _ => none, fun _ _ _ => true,
    fun _ _ _ => some fun _ => 0,
    [nodeResourcesFit, workloadAffinity], fun _ _ _ => true, fun _ _ _ => true, fun _ _ _ => false⟩

-- the application is charged to a node that has another one, and the bind fails
theorem failed_placement_restores_refused :
    let snap : Snapshot := [⟨{ metadata := { name := "n1" }, status := { capacity := ⟨4, 4⟩ } },
    ⟨1, 1⟩,
      [placedFromApp { metadata := { name := "db" } }]⟩]
    let app : Application :=
      { metadata := { name := "web" }, spec := { resources := { requests := ⟨2, 1⟩ } } }
    (scheduleApp refusing app snap).2 = snap := by
  intro snap app
  exact (@failed_placement_restores refusing app snap _ (by simp [refusing])
    (by simp [Unplaced, snap, app, placedFromApp]) rfl).1

end Horchestra.Scheduler
