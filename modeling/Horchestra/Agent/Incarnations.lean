import Horchestra.Agent.Reclamation

/-!
# The data of an earlier object of the same name

The directory of a volume is named after the namespace and the name of its object, not after its
uid. A workload that starts with a volume must not find in it what was written for another object
that was to be deleted with its data.

The node learns that an object is gone from a push that does not list it.  Where two objects follow
one another between two pushes, where the push that does not list the first lists nothing at all, or
where its data could not be removed, the second is given the directory as it stands
(`new_volume_inherits_data`).  In every run in which an object is assigned to the node only when its
directory is missing, or has backed no other object that was to be deleted with its data since it
was made, no workload finds such data (`start_finds_own_data`).
-/

namespace Horchestra.Agent.Storage

open Api
open Foundations.KernelMaps (Shuffle)
open Foundations NameMap Transitions Collecting

/-- The mark is of this object, or of one whose data is retained. -/
def Mark.Admits (pv : PersistentVolume) (mark : Mark) : Prop :=
  mark.uid = pv.metadata.uid ∨ mark.policy = reclaimRetain

instance Mark.decidableAdmits (pv : PersistentVolume) (mark : Mark) : Decidable (mark.Admits pv) :=
  inferInstanceAs (Decidable (mark.uid = pv.metadata.uid ∨ mark.policy = reclaimRetain))

/-- What a run has to keep to: an object is assigned to the node only when the directory of its name
is missing, or has since it was made backed only this object and objects whose data is retained. -/
def settledFirst (node : String) (s : State) : Event → Bool
  | .push p _ => (p.myPVs node).toList.all fun entry =>
    !s.dirs.contains entry.1 || (s.backed entry.1).all fun mark => decide (mark.Admits entry.2)
  | _ => true

/-- What the history says of the directories. -/
structure Traced (node : String) (s : State) : Prop where
  files : ∀ (id : String) (dir : Directory), s.dirs[id]? = some dir →
    ∀ file ∈ dir.files, file ∈ s.backed id
  backs : ∀ id pv, s.last id = some pv → markOf pv ∈ s.backed id
  own : s.phase ≠ .idle → ∀ (id : String) (pv : PersistentVolume),
    (s.push.myPVs node)[id]? = some pv → ∀ mark ∈ s.backed id, mark.Admits pv
  starts : ∀ start ∈ s.starts, ∀ file ∈ start.files, file.Admits start.volume

section

variable {node : String} {s : State}

theorem Traced.fresh (node : String) : Traced node State.fresh where
  files := by simp [State.fresh]
  backs := by simp [State.fresh]
  own := by simp [State.fresh]
  starts := by simp [State.fresh]

theorem Traced.receive (traced : Traced node s) {p : Push}
    {order : Shuffle (String × PersistentVolume)}
    (may : settledFirst node s (.push p order) = true) : Traced node (s.receive node p order) where
  files := by
    intro id dir found file mem
    have pre := traced.files id dir found file mem
    have hit : s.dirs.contains id = true := by
      rw [Std.ExtTreeMap.contains_eq_isSome_getElem?, show s.dirs[id]? = some dir from found]
      rfl
    simp only [State.receive]
    split
    · rw [if_pos hit]
      exact .tail _ pre
    · exact pre
  backs := by
    intro id pv last
    simp only [State.receive] at last ⊢
    split
    next assigned =>
      obtain rfl : _ = pv := by simpa [assigned] using last
      exact .head _
    next assigned => exact traced.backs id pv (by simpa [assigned] using last)
  own := by
    intro _ id pv assigned mark mem
    have assigned : (p.myPVs node)[id]? = some pv := assigned
    simp only [State.receive, assigned, List.mem_cons] at mem
    rcases mem with rfl | past
    · exact .inl rfl
    have listed : (id, pv) ∈ (p.myPVs node).toList :=
      Std.ExtTreeMap.mem_toList_iff_getElem?_eq_some.2 assigned
    have settled := List.all_eq_true.1 may _ listed
    split at past
    next hit =>
      simp only [hit, Bool.not_true, Bool.false_or] at settled
      exact of_decide_eq_true (List.all_eq_true.1 settled mark past)
    · cases past
  starts := traced.starts

variable {s' : State}

theorem Traced.moved (traced : Traced node s) {s' : State}
    (files : ∀ (id : String) (dir : Directory), s'.dirs[id]? = some dir →
      ∀ file ∈ dir.files, file ∈ s.backed id)
    (last : s'.last = s.last) (backed : s'.backed = s.backed) (push : s'.push = s.push)
    (phase : s.phase = .idle → s'.phase = .idle)
    (starts : ∀ start ∈ s'.starts, ∀ file ∈ start.files, file.Admits start.volume) :
    Traced node s' where
  files := backed ▸ files
  backs := by
    rw [last, backed]
    exact traced.backs
  own := by
    intro active
    rw [push, backed]
    exact traced.own fun idle => active (phase idle)
  starts := starts

variable {id : String} {pv : PersistentVolume}

/-- Provisioning makes empty directories only. -/
theorem Traced.provision (traced : Traced node s) {left : List (String × PersistentVolume)}
    (next : s.phase = .provisioning ((id, pv) :: left)) (made : Bool) :
    Traced node (s.provision id pv left made) := by
  obtain ⟨push, last, backed, -, starts⟩ := provision_kept s id pv left made
  refine traced.moved ?_ last backed push (by simp [next]) (starts ▸ traced.starts)
  intro key dir found file mem
  have record : (s.record id pv).dirs = s.dirs := by
    rw [State.record]
    split <;> rfl
  simp only [State.provision, State.mkdir, record] at found
  split at found
  · exact traced.files key dir (record ▸ found) file mem
  simp only [Std.ExtTreeMap.getElem?_insert] at found
  split at found
  · cases found
    cases mem
  · exact traced.files key dir found file mem

variable {app : App} {found : List (Mount × List Mark)}

/-- What a workload is started with are directories of its volumes, as they are. -/
theorem mem_of_resolve (resolved : s.resolve node app = some found) {e : Mount × List Mark}
    (mem : e ∈ found) :
    (s.push.myPVs node)[e.1.id]? = some e.1.volume ∧
      ∃ dir, s.dirs[e.1.id]? = some dir ∧ e.2 = dir.files := by
  obtain ⟨m, -, mounted⟩ := exists_of_mem_mapM resolved mem
  obtain ⟨pv, assigned, bound⟩ := Option.bind_eq_some_iff.1 mounted
  obtain ⟨dir, hit, rfl⟩ := Option.map_eq_some_iff.1 bound
  exact ⟨assigned, dir, hit, rfl⟩

theorem Traced.start (traced : Traced node s) (applying : s.phase = .applying)
    (resolved : s.resolve node app = some found) : Traced node (s.start found) := by
  refine traced.moved traced.files rfl rfl rfl (by simp [applying]) ?_
  intro start mem
  rcases List.mem_append.1 mem with new | past
  · obtain ⟨e, listed, rfl⟩ := List.mem_map.1 new
    obtain ⟨assigned, dir, hit, eq⟩ := mem_of_resolve resolved listed
    intro file held
    refine traced.own (by simp [applying]) _ _ assigned file (traced.files _ dir hit file ?_)
    exact eq ▸ held
  · exact traced.starts start past

theorem Traced.settle (traced : Traced node s) {rec : PvRecord} {left : List String}
    (next : s.phase = .reclaiming (id :: left)) (res : Removed) :
    Traced node (s.settle node id rec left res) := by
  simp only [State.settle]
  split
  · exact traced.moved traced.files rfl rfl rfl (by simp [next]) traced.starts
  split
  · exact traced.moved traced.files rfl rfl rfl (by simp [next]) traced.starts
  cases res with
  | all =>
    refine traced.moved ?_ rfl rfl rfl (by simp [next]) traced.starts
    intro key dir found
    simp only [Std.ExtTreeMap.getElem?_erase] at found
    split at found
    · cases found
    · exact traced.files key dir found
  | failed kept =>
    refine traced.moved ?_ rfl rfl rfl (by simp [next]) traced.starts
    intro key dir found file mem
    simp only [Std.ExtTreeMap.getElem?_alter] at found
    split at found
    next eq =>
      obtain rfl := Std.LawfulEqCmp.eq_of_compare eq
      obtain ⟨whole, hit, rfl⟩ := Option.map_eq_some_iff.1 found
      exact traced.files id whole hit file (List.mem_filter.1 mem).1
    · exact traced.files key dir found file mem

theorem Traced.write (traced : Traced node s) {mount : Mount} {dir : Directory}
    (found : s.dirs[mount.id]? = some dir) (backs : s.last mount.id = some pv) :
    Traced node (s.write mount dir pv) := by
  refine traced.moved ?_ rfl rfl rfl (fun idle => idle) traced.starts
  intro key other held file mem
  simp only [State.write, Std.ExtTreeMap.getElem?_insert] at held
  split at held
  next eq =>
    obtain rfl := Std.LawfulEqCmp.eq_of_compare eq
    cases held
    rcases List.mem_cons.1 mem with rfl | past
    · exact traced.backs _ pv backs
    · exact traced.files _ dir found file past
  · exact traced.files key other held file mem

theorem Traced.step (traced : Traced node s) {ev : Event}
    (may : settledFirst node s ev = true) (moved : step node s ev = some s') :
    Traced node s' := by
  cases moves_of_step moved with
  | push => exact traced.receive may
  | provision next => exact traced.provision next _
  | saveProvisioned done | saveReclaimed done =>
    exact traced.moved traced.files rfl rfl rfl (by simp [done]) traced.starts
  | start applying _ resolved => exact traced.start applying resolved
  | suspicious => exact traced.moved traced.files rfl rfl rfl (fun _ => rfl) traced.starts
  | reclaim applying =>
    exact traced.moved traced.files rfl rfl rfl (by simp [applying]) traced.starts
  | settle next => exact traced.settle next _
  | write found backs => exact traced.write found backs
  | restart => exact ⟨traced.files, traced.backs, fun active => absurd rfl active, traced.starts⟩

end

theorem start_finds_own_data {node : String} {s : State}
    (reached : Reachable (step node) (settledFirst node) State.fresh s) :
    ∀ start ∈ s.starts, ∀ file ∈ start.files,
      ¬ (file.uid ≠ start.volume.metadata.uid ∧ file.policy = reclaimDelete) := by
  have traced :=
    reached.invariant (Traced node) (Traced.fresh node) fun traced permitted happened =>
    traced.step permitted happened
  rintro start member file held ⟨other, deleted⟩
  rcases traced.starts start member file held with same | retained
  · exact other same
  rw [deleted] at retained
  exact absurd retained (by decide)

/-! ## Runs of one node -/

/-- An application of the node `n1` that mounts the volume `data`. -/
def dataApplication : Application where
  metadata := { name := "web", ns := "default", uid := "a1" }
  spec := {
    placement := { nodeName := "n1" }
    volumes := [{ mountPath := "/data", volume := { type := volumeTypePV, name := "data" } }] }

def startAndWrite (uid : String) : List Event :=
  [.push ⟨[dataApplication], [dataVolume uid "Delete", otherVolume]⟩ .inOrder, .provision true,
    .save true, .start "a1", .write ⟨"default_data", dataVolume uid "Delete", 0⟩,
    .reclaim .inOrder, .settle .all, .save true]

/-- The first object is seen to be gone before the second one arrives: the second starts empty. -/
theorem start_finds_own_data_settled :
    ∃ s, Reachable (step "n1") (settledFirst "n1") State.fresh s ∧
      s.starts.map Start.files = [[], []] ∧ ∀ start ∈ s.starts, ∀ file ∈ start.files,
        ¬ (file.uid ≠ start.volume.metadata.uid ∧ file.policy = reclaimDelete) := by
  obtain ⟨s, reached, started⟩ : ∃ s, Reachable (step "n1") (settledFirst "n1") State.fresh s ∧
      s.starts.map Start.files = [[], []] :=
    exists_of_run (startAndWrite "u1" ++ pass ⟨[], [otherVolume]⟩ 0 1 true ++
      (startAndWrite "u2").take 4) (by decide +kernel)
  exact ⟨s, reached, started, start_finds_own_data reached⟩

/-- The object is deleted and created again while no push reaches the node: the workload that starts
with the new one finds the file that was written for the old one. -/
theorem new_volume_inherits_data :
    ∃ s, Reachable (step "n1") (fun _ _ => true) State.fresh s ∧
      ∃ start ∈ s.starts, ∃ file ∈ start.files,
        file.uid ≠ start.volume.metadata.uid ∧ file.policy = reclaimDelete :=
  exists_of_run (startAndWrite "u1" ++ (startAndWrite "u2").take 4) (by decide +kernel)

end Horchestra.Agent.Storage
