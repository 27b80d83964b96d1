import Horchestra.Agent.Storage

/-!
# What the data of a volume is removed for

A directory is to be removed only in a pass whose push lists volumes but not this one, with no
application of the node mounting it, and only if the object last assigned to the node under that
name was not to be retained.

The ledger in memory always agrees with the last push on which volumes are retained, but for the
volumes a pass has yet to provision, and it is settled only after the last of them (`Agrees`).  The
file does not: a write that fails is not tried again, and an agent that starts from the older file
forgets that a volume was to be retained.  In every run in which no agent starts from such a file,
data is removed only when its policy says so (`removed_only_when_released`);
  `stale_ledger_deletes_retained` is a run in which one does.
-/

namespace Horchestra.Agent.Storage

open Std Api
open Foundations.KernelMaps (Shuffle)
open Foundations NameMap Transitions

/-! ## The applications of a node -/

def Push.uids (p : Push) (node : String) : List String :=
  (p.applications.filter (·.spec.placement.nodeName = node)).map (·.metadata.uid)

/-- Every application of the node has a uid of its own. -/
def Push.Identified (p : Push) (node : String) : Prop := "" ∉ p.uids node ∧ (p.uids node).Nodup

instance Push.decidableIdentified (p : Push) (node : String) : Decidable (p.Identified node) :=
  inferInstanceAs (Decidable ("" ∉ p.uids node ∧ (p.uids node).Nodup))

theorem appsForNode_eq_indexBy (apps : List App) (node : String) :
    appsForNode apps node =
      indexBy App.uid id (apps.filter fun app => app.node = node ∧ app.uid ≠ "") := by
  induction apps using List.reverseRecOn with
  | nil => rfl
  | append_singleton rest last ih =>
    rw [appsForNode, List.foldl_append, List.foldl_cons, List.foldl_nil, ← appsForNode,
      List.filter_append]
    by_cases kept : last.node = node ∧ last.uid ≠ ""
    · rw [if_neg (by simpa [not_or] using kept), List.filter_cons_of_pos (by simpa using kept),
        List.filter_nil, indexBy_concat, ih, id]
    rw [if_pos (by simpa [or_iff_not_imp_left] using kept),
      List.filter_cons_of_neg (by simpa using kept), List.filter_nil, List.append_nil,
      ih]

theorem Push.Identified.wanted {p : Push} {node : String} (known : p.Identified node)
    {app : Application} (listed : app ∈ p.applications)
    (placed : app.spec.placement.nodeName = node) :
    (p.want node)[app.metadata.uid]? = some (fromApplication app) := by
  have named : app.metadata.uid ≠ "" := fun unnamed =>
    known.1 (List.mem_map.2 ⟨app, by simp [listed, placed], unnamed⟩)
  have nodup : ((p.applications.map fromApplication).filter
      fun app => app.node = node ∧ app.uid ≠ "").map App.uid |>.Nodup := by
    refine known.2.sublist ?_
    rw [Push.uids, List.filter_map, List.map_map]
    refine List.Sublist.map _ (List.monotone_filter_right _ ?_)
    intro other kept
    exact decide_eq_true (of_decide_eq_true kept).1
  have mem : fromApplication app ∈ (p.applications.map fromApplication).filter
      fun app => app.node = node ∧ app.uid ≠ "" := by
    refine List.mem_filter.2 ⟨List.mem_map_of_mem listed, ?_⟩
    exact decide_eq_true ⟨placed, named⟩
  rw [Push.want, appsForNode_eq_indexBy]
  exact indexBy_of_mem nodup mem

theorem mem_inUse {want : ExtTreeMap String App} {uid : String} {app : App}
    (wanted : want[uid]? = some app) {m : VolumeMount} (mounted : m ∈ app.volumes)
    (persistent : m.isPV = true) : pvID app m ∈ inUse want := by
  refine List.mem_flatMap.2 ⟨(uid, app), ?_, List.mem_map_of_mem (by simp [mounted, persistent])⟩
  exact ExtTreeMap.mem_toList_iff_getElem?_eq_some.2 wanted

/-! ## What a removal needs -/

/-- The data of a volume may be removed. -/
structure Released (node : String) (r : Removal) : Prop where
  listsVolumes : r.push.pvList ≠ []
  unlisted : r.id ∉ r.push.allPVs
  unused : ∀ app ∈ r.push.applications, app.spec.placement.nodeName = node →
    ∀ m ∈ app.spec.volumes, m.isPV = true →
      workloadID app.metadata.ns (m.pvName app.metadata.name) ≠ r.id
  notRetained : ∀ pv, r.last = some pv → pv.spec.reclaimPolicy ≠ "Retain"

theorem reclaimPolicyOf_eq_retain {pv : PersistentVolume} :
    reclaimPolicyOf pv = reclaimRetain ↔ pv.spec.reclaimPolicy = "Retain" := by
  rw [reclaimPolicyOf]
  split <;> simp_all [reclaimRetain, reclaimDelete]

/-- A volume of the ledger that is not to be retained, though the last push says so, is yet to be
provisioned in this pass. -/
def Agrees (s : State) : Prop :=
  ∀ id rec pv, s.provisioned[id]? = some rec → rec.reclaimPolicy ≠ reclaimRetain →
    s.last id = some pv → reclaimPolicyOf pv = reclaimRetain →
      ∃ left, s.phase = .provisioning left ∧ (id, pv) ∈ left

structure Sound (node : String) (s : State) : Prop where
  agrees : Agrees s
  current : ∀ left, s.phase = .provisioning left → ∀ entry ∈ left, s.last entry.1 = some entry.2
  listed : ∀ left, s.phase = .reclaiming left → s.push.allPVs ≠ []
  identified : s.push.Identified node
  released : ∀ r ∈ s.removals, Released node r

/-- What a run has to keep to: the applications of a node have uids of their own, and no agent
starts from a file that would delete what is to be retained. -/
def faithful (node : String) (s : State) : Event → Bool
  | .push p _ => decide (p.Identified node)
  | .restart true => (s.file.getD ∅).toList.all fun entry =>
    decide (entry.2.reclaimPolicy = reclaimRetain) ||
      (s.last entry.1).all fun pv => decide (pv.spec.reclaimPolicy ≠ "Retain")
  | _ => true

/-! ## Runs -/

section

variable {node : String} {s : State}

theorem Sound.fresh (node : String) : Sound node State.fresh where
  agrees := by
    intro id rec pv held
    simp [State.fresh] at held
  current := by exact nofun
  listed := by exact nofun
  identified := by simp [State.fresh, Push.Identified, Push.uids]
  released := by simp [State.fresh]

theorem Sound.receive (sound : Sound node s) (idle : s.phase = .idle) {p : Push}
    (identified : p.Identified node) (order : Shuffle (String × PersistentVolume)) :
    Sound node (s.receive node p order) where
  agrees := by
    intro id rec pv held kept last retained
    cases assigned : (p.myPVs node)[id]? with
    | none =>
      -- Nothing has changed for this volume, and the pass before is over.
      simp only [State.receive, assigned, Option.none_or] at last
      obtain ⟨left, prov, -⟩ := sound.agrees id rec pv held kept last retained
      rw [idle] at prov
      cases prov
    | some found =>
      simp only [State.receive, assigned, Option.some_or, Option.some.injEq] at last
      subst last
      exact ⟨_, rfl, order.mem_arrange.2 (ExtTreeMap.mem_toList_iff_getElem?_eq_some.2 assigned)⟩
  current := by
    intro left prov e mem
    cases prov
    have assigned : (p.myPVs node)[e.1]? = some e.2 :=
      ExtTreeMap.mem_toList_iff_getElem?_eq_some.1 (order.mem_arrange.1 mem)
    simp [State.receive, assigned]
  listed := by exact nofun
  identified := identified
  released := sound.released

theorem getElem?_provision (s : State) (id : String) (pv : PersistentVolume)
    (left : List (String × PersistentVolume)) (made : Bool) (key : String) :
    (s.provision id pv left made).provisioned[key]? =
      if id = key then some ⟨reclaimPolicyOf pv⟩ else s.provisioned[key]? := by
  have mkdir (s : State) : (s.mkdir id made).provisioned = s.provisioned := by
    rw [State.mkdir]
    split <;> rfl
  rw [State.provision]
  simp only [mkdir]
  rw [State.record]
  split
  next recorded =>
    split
    next eq => rw [← eq, recorded]
    · rfl
  · simp [ExtTreeMap.getElem?_insert]

/-- Provisioning a volume changes the ledger and the directories, and takes the volume off the list.
-/
theorem provision_kept (s : State) (id : String) (pv : PersistentVolume)
    (left : List (String × PersistentVolume)) (made : Bool) :
    (s.provision id pv left made).push = s.push ∧ (s.provision id pv left made).last = s.last ∧
      (s.provision id pv left made).backed = s.backed ∧
      (s.provision id pv left made).removals = s.removals ∧
      (s.provision id pv left made).starts = s.starts := by
  simp only [State.provision, State.mkdir, State.record]
  refine ⟨?_, ?_, ?_, ?_, ?_⟩ <;> split <;> split <;> rfl

theorem Sound.provision (sound : Sound node s) {id : String} {pv : PersistentVolume}
    {left : List (String × PersistentVolume)} (next : s.phase = .provisioning ((id, pv) :: left))
    (made : Bool) : Sound node (s.provision id pv left made) := by
  obtain ⟨push, last, -, removals, -⟩ := provision_kept s id pv left made
  have pending := sound.current _ next
  constructor
  case agrees =>
    intro key rec found held kept lastFound retained
    rw [last] at lastFound
    rw [getElem?_provision] at held
    refine ⟨left, rfl, ?_⟩
    by_cases same : id = key
    · -- The volume is now recorded with the policy of the last push.
      subst same
      obtain rfl : pv = found := Option.mem_unique (pending (id, pv) (by simp)) lastFound
      obtain rfl : (⟨reclaimPolicyOf pv⟩ : PvRecord) = rec := by simpa using held
      contradiction
    rw [if_neg same] at held
    obtain ⟨all, prov, mem⟩ := sound.agrees key rec found held kept lastFound retained
    cases next.symm.trans prov
    rcases List.mem_cons.1 mem with first | later
    · exact absurd (congrArg Prod.fst first).symm same
    · exact later
  case current =>
    intro others prov e mem
    cases prov
    rw [last]
    exact pending e (.tail _ mem)
  case listed =>
    exact nofun
  case identified => exact push ▸ sound.identified
  case released => exact removals ▸ sound.released

/-- A step that leaves the ledger and the history alone, and does not go back to provisioning. -/
theorem Sound.moved (sound : Sound node s) {s' : State}
    (done : ∀ e left, s.phase ≠ .provisioning (e :: left))
    (provisioned : ∀ (id : String) (rec : PvRecord), s'.provisioned[id]? = some rec →
      s.provisioned[id]? = some rec)
    (last : s'.last = s.last) (push : s'.push = s.push)
    (phase : ∀ left, s'.phase ≠ .provisioning left)
    (listed : ∀ left, s'.phase = .reclaiming left → s.push.allPVs ≠ [])
    (released : ∀ r ∈ s'.removals, Released node r) : Sound node s' where
  agrees := by
    intro id rec pv held kept lastFound retained
    rw [last] at lastFound
    obtain ⟨left, prov, mem⟩ :=
      sound.agrees id rec pv (provisioned id rec held) kept lastFound retained
    cases left with
    | nil => cases mem
    | cons e rest => exact absurd prov (done e rest)
  current := fun left prov => absurd prov (phase left)
  listed := push ▸ listed
  identified := push ▸ sound.identified
  released := released

theorem Sound.settle (sound : Sound node s) {id : String} {rec : PvRecord} {left : List String}
    (next : s.phase = .reclaiming (id :: left)) (held : s.provisioned[id]? = some rec)
    (res : Removed) : Sound node (s.settle node id rec left res) := by
  have done : ∀ e rest, s.phase ≠ .provisioning (e :: rest) := by simp [next]
  have listed := sound.listed _ next
  have erased : ∀ (key : String) (other : PvRecord), (s.provisioned.erase id)[key]? = some other →
      s.provisioned[key]? = some other := by
    intro key other found
    rw [ExtTreeMap.getElem?_erase] at found
    split at found
    · cases found
    · exact found
  simp only [State.settle]
  split
  · exact sound.moved done (fun _ _ found => found) rfl rfl (by simp) (fun _ _ => listed) sound.released
  rename_i gone
  obtain ⟨unlisted, unused⟩ := not_or.1 gone
  split
  · exact sound.moved done erased rfl rfl (by simp) (fun _ _ => listed) sound.released
  rename_i kept
  have released : Released node ⟨id, s.push, s.last id⟩ := by
    refine ⟨fun empty => listed (by simpa [Push.allPVs] using empty), unlisted, ?_, ?_⟩
    · rintro app mem placed m mounted persistent rfl
      exact unused (mem_inUse (sound.identified.wanted mem placed) mounted persistent)
    intro pv last retained
    obtain ⟨others, prov, -⟩ :=
      sound.agrees id rec pv held kept last (reclaimPolicyOf_eq_retain.2 retained)
    rw [next] at prov
    cases prov
  have all : ∀ r ∈ (⟨id, s.push, s.last id⟩ :: s.removals : List Removal), Released node r :=
    List.forall_mem_cons.2 ⟨released, sound.released⟩
  cases res with
  | all => exact sound.moved done erased rfl rfl (by simp) (fun _ _ => listed) all
  | failed kept =>
    exact sound.moved done (fun _ _ found => found) rfl rfl (by simp) (fun _ _ => listed) all

theorem Sound.restart (sound : Sound node s) {readable : Bool}
    (may : faithful node s (.restart readable) = true) : Sound node (s.restart readable) where
  agrees := by
    intro id rec pv held kept last retained
    cases readable with
    | false => simp [State.restart] at held
    | true =>
      have recorded : (id, rec) ∈ (s.file.getD ∅).toList :=
        ExtTreeMap.mem_toList_iff_getElem?_eq_some.2 held
      have agreed := List.all_eq_true.1 may _ recorded
      have last : s.last id = some pv := last
      simp [kept, last, reclaimPolicyOf_eq_retain.1 retained] at agreed
  current := by exact nofun
  listed := by exact nofun
  identified := by simp [State.restart, Push.Identified, Push.uids]
  released := sound.released

theorem Sound.step (sound : Sound node s) {s' : State} {ev : Event}
    (may : faithful node s ev = true) (moved : step node s ev = some s') :
    Sound node s' := by
  cases moves_of_step moved with
  | push idle => exact sound.receive idle (of_decide_eq_true may) _
  | provision next => exact sound.provision next _
  | saveProvisioned done | saveReclaimed done =>
    exact sound.moved (by simp [done]) (fun _ _ held => held) rfl rfl (by simp [State.save])
      (by simp [State.save]) sound.released
  | start applying =>
    exact sound.moved (by simp [applying]) (fun _ _ held => held) rfl rfl
      (by simp [State.start, applying]) (by simp [State.start, applying]) sound.released
  | suspicious applying =>
    exact sound.moved (by simp [applying]) (fun _ _ held => held) rfl rfl (by simp) (by simp)
      sound.released
  | reclaim applying listed =>
    exact sound.moved (by simp [applying]) (fun _ _ held => held) rfl rfl (by simp)
      (fun _ _ => listed) sound.released
  | settle next held => exact sound.settle next held _
  | write => exact ⟨sound.agrees, sound.current, sound.listed, sound.identified, sound.released⟩
  | restart => exact sound.restart may

end

/-- **Data is removed only when its policy says so.** -/
theorem removed_only_when_released {node : String} {s : State}
    (reached : Reachable (step node) (faithful node) State.fresh s) :
    ∀ r ∈ s.removals, Released node r :=
  (reached.invariant (Sound node) (Sound.fresh node) fun sound permitted happened =>
    sound.step permitted happened).released

/-! ## Runs of one node -/

def dataVolume (uid policy : String) : PersistentVolume where
  metadata := { name := "data", ns := "default", uid }
  spec := { node := "n1", reclaimPolicy := policy }

def otherVolume : PersistentVolume where
  metadata := { name := "other", ns := "default", uid := "u9" }
  spec := { node := "n2" }

/-- A pass in which every file operation but the writing of the ledger works; `volumes` of them are
provisioned and `settled` of them settled. -/
def pass (p : Push) (volumes settled : Nat) (written : Bool) : List Event :=
  [.push p .inOrder] ++ List.replicate volumes (.provision true) ++
    [.save written, .reclaim .inOrder] ++
    List.replicate settled (.settle .all) ++ [.save written]

/-- The volume is provisioned, its object is deleted, and its data is reclaimed. -/
theorem removed_only_when_released_deleted :
    ∃ s, Reachable (step "n1") (faithful "n1") State.fresh s ∧
      s.removals.map Removal.id = ["default_data"] ∧ ∀ r ∈ s.removals, Released "n1" r := by
  obtain ⟨s, reached, removed⟩ : ∃ s, Reachable (step "n1") (faithful "n1") State.fresh s ∧
      s.removals.map Removal.id = ["default_data"] :=
    exists_of_run (pass ⟨[], [dataVolume "u1" "Delete", otherVolume]⟩ 1 1 true ++
      pass ⟨[], [otherVolume]⟩ 0 1 true) (by decide +kernel)
  exact ⟨s, reached, removed, removed_only_when_released reached⟩

/-- The policy is changed from `Delete` to `Retain` while the ledger cannot be written, the agent
starts again, and the object is deleted: the data that was to be retained is removed. -/
theorem stale_ledger_deletes_retained :
    ∃ s, Reachable (step "n1") (fun _ _ => true) State.fresh s ∧
      ∃ r ∈ s.removals, ∃ pv, r.last = some pv ∧ pv.spec.reclaimPolicy = "Retain" := by
  obtain ⟨s, ran, r, member, last⟩ : ∃ s, Reachable (step "n1") (fun _ _ => true) State.fresh s ∧
      ∃ r ∈ s.removals, r.last = some (dataVolume "u1" "Retain") :=
    exists_of_run (pass ⟨[], [dataVolume "u1" "Delete", otherVolume]⟩ 1 1 true ++
      pass ⟨[], [dataVolume "u1" "Retain", otherVolume]⟩ 1 1 false ++ [.restart true] ++
      pass ⟨[], [otherVolume]⟩ 0 1 true) (by decide +kernel)
  exact ⟨s, ran, r, member, _, last, rfl⟩

end Horchestra.Agent.Storage
