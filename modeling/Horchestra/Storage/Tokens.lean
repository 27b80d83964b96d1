import Horchestra.Storage.History

/-!
# What versions and generations stand for

A version is what a client sends back to show which core state it read, and a generation is how a
reader sees that the desired state moved.

* `conditional_update_finds_what_was_read`: a version names one core state of one object;
* `generation_counts_changes`: the generation counts the changes of the desired state;
* `rollback_restores`: a version in the history can be brought back.
-/

namespace Horchestra.Storage

open Api
open Foundations.Transitions (run exists_of_run Reachable)

variable {s s' : Store}

/-! ## Optimistic concurrency -/

section

variable {past : Store} {k : Kind}

variable {key : String} {o stored : Obj k}

theorem Represented.newest (repr : Represented s) (hit : s.db.find k key = some o) :
    ∃ newest ∈ s.commits k, newest.uid = (metaOf o).uid ∧ SameCore newest.object o ∧
      ∀ rev ∈ s.commits k, rev.uid = (metaOf o).uid → rev.version ≤ newest.version := by
  obtain ⟨-, newest, isNewest, core⟩ := repr.head k key o hit
  obtain ⟨mem, uid⟩ := List.mem_filter.1 (List.mem_of_getLast? isNewest)
  refine ⟨newest, mem, of_decide_eq_true uid, core, fun rev inCommits uidEq => ?_⟩
  obtain ⟨pre, split⟩ := List.getLast?_eq_some_iff.1 isNewest
  have sorted := (repr.increasing k).filter (·.uid = (metaOf o).uid)
  have listed : rev ∈ s.revisionsOf k (metaOf o).uid :=
    List.mem_filter.2 ⟨inCommits, decide_eq_true uidEq⟩
  rw [Store.revisionsOf] at split listed
  rw [split] at sorted listed
  rcases List.mem_append.1 listed with earlier | isLast
  · exact ((List.pairwise_append.1 sorted).2.2 rev earlier newest (by simp)).le
  · rw [List.mem_singleton.1 isLast]

theorem Represented.revision_unique (repr : Represented s) {first second : Revision k}
    (inCommits : first ∈ s.commits k) (inCommits' : second ∈ s.commits k)
    (eq : (metaOf first.object).resourceVersion = (metaOf second.object).resourceVersion) :
    first = second := by
  have nodup : ((s.commits k).map (·.version)).Nodup :=
    List.pairwise_map.2 ((repr.increasing k).imp fun less => less.ne)
  refine List.inj_on_of_nodup_map nodup inCommits inCommits' ?_
  rw [(repr.known k first inCommits).2.1, (repr.known k second inCommits').2.1] at eq
  exact DB.formatVersion_inj eq

theorem Change.commits_prefix {operation : Operation} (change : Change s operation s') (k : Kind) :
    s.commits k <+: s'.commits k := by
  have committed : ∀ {k' : Kind} {db' : DB} {uid : String} {out : Obj k'},
      s.commits k <+: (s.commit db' uid out).commits k := by
    intro k' db' uid out
    by_cases same : k = k'
    · subst same
      simp [Store.commit]
    · simp [Store.commit, Function.update_of_ne same]
  cases change with
  | created | replaced => exact committed
  | status | erased => exact List.prefix_rfl

theorem Represented.of_later (repr : Represented past)
    (later : Reachable Store.step anyOperation past s) :
    Represented s ∧ ∀ k, past.commits k <+: s.commits k := by
  refine later.invariant (fun s => Represented s ∧ ∀ k, past.commits k <+: s.commits k)
    ⟨repr, fun _ => List.prefix_rfl⟩ ?_
  intro s s' operation ⟨kept, grown⟩ _ moved
  have change := change_of_perform kept (perform_of_step moved)
  exact ⟨kept.of_change change, fun k => (grown k).trans (change.commits_prefix k)⟩

/-- A version read at some time and found later stands for one core state of one object. -/
theorem Represented.same_of_version (repr : Represented past)
    (later : Reachable Store.step anyOperation past s) {key' : String} {read : Obj k}
    (seen : past.db.find k key = some read) (hit : s.db.find k key' = some stored)
    (eq : (metaOf stored).resourceVersion = (metaOf read).resourceVersion) :
    (metaOf stored).uid = (metaOf read).uid ∧ SameCore read stored := by
  obtain ⟨repr', grown⟩ := repr.of_later later
  obtain ⟨first, inPast, -, core, -⟩ := repr.newest seen
  obtain ⟨second, inCommits, -, core', -⟩ := repr'.newest hit
  have verEq : (metaOf first.object).resourceVersion =
      (metaOf second.object).resourceVersion := by
    rw [← core.metaOf_eq, ← core'.metaOf_eq, eq]
  obtain rfl := repr'.revision_unique ((grown k).subset inPast) inCommits verEq
  have sameCore := core.symm.trans core'
  exact ⟨by rw [sameCore.metaOf_eq], sameCore⟩

theorem Represented.version_ne_empty (repr : Represented s)
    (hit : s.db.find k key = some o) : (metaOf o).resourceVersion ≠ "" := by
  obtain ⟨n, -, isVersion⟩ := repr.issued.version k key o hit
  exact isVersion ▸ DB.formatVersion_ne_empty n

theorem update_conditional (conditional : (metaOf o).resourceVersion ≠ "")
    (done : s.update o = .ok s') :
    ∃ stored out, s.db.find k (keyOf o) = some stored ∧
      (metaOf o).resourceVersion = (metaOf stored).resourceVersion ∧
      s'.db.find k (keyOf o) = some out ∧ (metaOf out).uid = (metaOf stored).uid ∧
      (metaOf out).resourceVersion = DB.formatVersion (s.db.versions k + 1) ∧
      SameStatus out stored := by
  obtain ⟨⟨out, db'⟩, updated, rfl⟩ := map_eq_ok_iff.1 done
  obtain ⟨stored, hit, checked, isOut, filed, -⟩ := DB.update_spec updated
  have cur : (metaOf o).resourceVersion = (metaOf stored).resourceVersion := by
    simpa [DB.checkResourceVersion, conditional] using checked
  refine ⟨stored, out, hit, cur, filed.here, ?_, ?_, ?_⟩
  · simp [isOut, DB.mergeCore]
  · simp [isOut, DB.mergeCore]
  · rw [isOut]
    exact sameStatus_merged _

theorem updateStatus_keeps {k' : Kind} {w : Obj k'} (done : s.updateStatus w = .ok s')
    (hit : s.db.find k key = some stored) :
    ∃ stored', s'.db.find k key = some stored' ∧ metaOf stored' = metaOf stored := by
  obtain ⟨⟨out, db'⟩, wrote, rfl⟩ := map_eq_ok_iff.1 done
  obtain ⟨pre, found, -, rfl, filed, -⟩ := DB.updateStatus_spec wrote
  by_cases kindEq : k = k'
  · subst kindEq
    by_cases keyEq : key = keyOf w
    · subst keyEq
      cases hit.symm.trans found
      exact ⟨_, filed.here, metaOf_withStatusOf _ _⟩
    · exact ⟨stored, (filed.elsewhere _ keyEq).trans hit, rfl⟩
  · exact ⟨stored, (filed.otherKinds _ _ kindEq).trans hit, rfl⟩

/-- **A conditional update that succeeds finds what its caller read.**  The version it carried is
spent, and a status that is written first stays. -/
theorem conditional_update_finds_what_was_read {read o : Obj k}
    (reached : Reachable Store.step anyOperation {} past)
    (later : Reachable Store.step anyOperation past s)
    (seen : past.db.find k (keyOf o) = some read)
    (version : (metaOf o).resourceVersion = (metaOf read).resourceVersion)
    (done : s.update o = .ok s') :
    (∃ stored out, s.db.find k (keyOf o) = some stored ∧ (metaOf stored).uid = (metaOf read).uid ∧
      SameCore read stored ∧ s'.db.find k (keyOf o) = some out ∧ SameStatus out stored) ∧
    (∀ t t' (o' : Obj k), Reachable Store.step anyOperation s' t → keyOf o' = keyOf o →
      (metaOf o').resourceVersion = (metaOf read).resourceVersion → t.update o' ≠ .ok t') ∧
    ∀ (k' : Kind) (w : Obj k') (s₁ : Store), s.updateStatus w = .ok s₁ →
      ∃ s₂ stored out, s₁.update o = .ok s₂ ∧ s₁.db.find k (keyOf o) = some stored ∧
        s₂.db.find k (keyOf o) = some out ∧ SameStatus out stored := by
  have represented := represented_of_run reached
  obtain ⟨represented', grown⟩ := represented.of_later later
  have conditional : (metaOf o).resourceVersion ≠ "" := version ▸ represented.version_ne_empty seen
  obtain ⟨stored, out, present, current, written, outUid, outVersion, status⟩ :=
    update_conditional conditional done
  obtain ⟨uid, core⟩ := represented.same_of_version later seen present (current.symm.trans version)
  refine ⟨⟨stored, out, present, uid, core, written, status⟩, ?_, ?_⟩
  · intro t t' o' after sameKey version' done'
    have change : Change s (.update k o) s' := change_of_perform represented' done
    have updated := represented'.of_change change
    obtain ⟨representedT, grown'⟩ := updated.of_later after
    have conditional' : (metaOf o').resourceVersion ≠ "" :=
      version'.trans version.symm ▸ conditional
    obtain ⟨storedT, -, presentT, currentT, -⟩ := update_conditional conditional' done'
    -- the write that was read is still the newest of its uid, and yet this update wrote a newer one
    obtain ⟨first, inPast, firstUid, firstCore, -⟩ := represented.newest seen
    obtain ⟨newest, inT, -, coreT, newestT⟩ := representedT.newest presentT
    obtain ⟨second, inUpdated, secondUid, secondCore, -⟩ := updated.newest written
    have inNow := (grown k).subset inPast
    have sameVersion : (metaOf first.object).resourceVersion =
        (metaOf newest.object).resourceVersion := by
      rw [← firstCore.metaOf_eq, ← coreT.metaOf_eq, ← currentT, version']
    obtain rfl := representedT.revision_unique
      ((grown' k).subset ((change.commits_prefix k).subset inNow)) inT sameVersion
    have sameUid : second.uid = (metaOf storedT).uid := by
      rw [secondUid, outUid, uid, firstCore.metaOf_eq, coreT.metaOf_eq]
    have bound := newestT second ((grown' k).subset inUpdated) sameUid
    have drawn : second.version = s.db.versions k + 1 := by
      refine DB.formatVersion_inj ?_
      rw [← (updated.known k second inUpdated).2.1, ← secondCore.metaOf_eq, outVersion]
    have old := (represented'.known k first inNow).1
    omega
  intro k' w s₁ statusDone
  obtain ⟨stored₁, present₁, sameMeta⟩ := updateStatus_keeps statusDone present
  have current₁ : (metaOf o).resourceVersion = (metaOf stored₁).resourceVersion :=
    sameMeta ▸ current
  obtain ⟨db', updated⟩ := DB.update_of_present present₁ current₁
  obtain ⟨found, out₁, isFound, -, written₁, -, -, status₁⟩ :=
    update_conditional conditional (map_eq_ok_iff.2 ⟨_, updated, rfl⟩)
  exact ⟨_, found, out₁, map_eq_ok_iff.2 ⟨_, updated, rfl⟩, isFound, written₁, status₁⟩

/-- Two clients read one version; the first to write spends it. -/
theorem conditional_update_spends_version : ∃ past s s' : Store, ∃ read : Service,
    Reachable Store.step anyOperation {} past ∧
    past.db.find .service "team/web" = some read ∧ s.update (k := .service)
      (serviceNamed "web" 82 "1") = .ok s' ∧
    ∀ t', s'.update (k := .service) (serviceNamed "web" 83 "1") ≠ .ok t' := by
  obtain ⟨s, reached, stored, accepted⟩ : ∃ s, Reachable Store.step anyOperation {} s ∧
      (s.db.find .service "team/web").map (·.metadata.resourceVersion) = some "1" ∧
      (s.update (k := .service) (serviceNamed "web" 82 "1")).toOption.isSome = true :=
    exists_of_run [.create .service 0 (serviceNamed "web" 80 "")] (by decide +kernel)
  obtain ⟨read, present, version⟩ := Option.map_eq_some_iff.1 stored
  obtain ⟨s', updated⟩ := Option.isSome_iff_exists.1 accepted
  have step : s.step (.update .service (serviceNamed "web" 82 "1")) = some s' := updated
  have done := perform_of_step step
  have seen : s.db.find .service (keyOf (k := .service) (serviceNamed "web" 82 "1")) = some read :=
    present
  have spent := (conditional_update_finds_what_was_read reached .start seen version.symm done).2.1
  exact ⟨s, s, s', read, reached, present, done, fun t' => spent s' t' _ .start rfl version.symm⟩

end

/-! ## Generations -/

section

/-- What an operation does to an object that is there before and after it. -/
structure Counted {k : Kind} (operation : Operation) (old new : Obj k) : Prop where
  generation : (metaOf new).generation =
    (metaOf old).generation + if sameDesired new old then 0 else 1
  replaces : sameDesired new old = false → operation.replaces = true
  status : operation.replaces = true → SameStatus new old
  core : (∃ k' o, operation = .updateStatus k' o) → SameCore old new

theorem Counted.refl {k : Kind} (operation : Operation) (o : Obj k) : Counted operation o o := by
  have eq : sameDesired o o = true := sameDesired_of_sameCore (.refl o)
  exact ⟨by simp [eq], by simp [eq], fun _ => SameCore.refl o, fun _ => .refl o⟩

variable {operation : Operation}

theorem Change.written (change : Change s operation s') :
    ∃ (k : Kind) (key : String) (wrote : Option (Obj k)), DB.Write s.db s'.db k key wrote ∧
      ∀ new ∈ wrote, (s.db.find k key = none → (metaOf new).generation = 1) ∧
        ∀ old, s.db.find k key = some old → Counted operation old new := by
  cases change with
  | created _ write gone _ _ gen =>
    refine ⟨_, _, _, write, fun new isNew => ?_⟩
    cases isNew
    exact ⟨fun _ => gen, fun old pre => nomatch gone.symm.trans pre⟩
  | replaced replaces _ write hit _ _ _ gen status _ =>
    refine ⟨_, _, _, write, fun new isNew => ?_⟩
    cases isNew
    refine ⟨fun gone => absurd (gone.symm.trans hit) (by simp), fun old pre => ?_⟩
    cases hit.symm.trans pre
    refine ⟨gen, fun _ => replaces, fun _ => status, ?_⟩
    rintro ⟨k', o, rfl⟩
    cases replaces
  | @status k o stored db' write hit =>
    refine ⟨_, _, _, write, fun new isNew => ?_⟩
    cases isNew
    refine ⟨fun gone => absurd (gone.symm.trans hit) (by simp), fun old pre => ?_⟩
    cases hit.symm.trans pre
    have core := sameCore_withStatusOf stored o
    have eq := sameDesired_of_sameCore core.symm
    exact ⟨by simp [eq], by simp [eq], by simp [Operation.replaces], fun _ => core⟩
  | erased write _ => exact ⟨_, _, _, write, by simp⟩

theorem Change.counted (change : Change s operation s') :
    ∀ (k : Kind) (key : String) (new : Obj k), s'.db.find k key = some new →
      (s.db.find k key = none → (metaOf new).generation = 1) ∧
        ∀ old, s.db.find k key = some old → Counted operation old new := by
  obtain ⟨k, key, wrote, write, counted⟩ := change.written
  refine write.filed.forall_find _ ?_ counted
  intro k key new found
  refine ⟨fun gone => absurd (gone.symm.trans found) (by simp), fun old pre => ?_⟩
  cases pre.symm.trans found
  exact .refl _ _

/-- What an object's generation can be after an earlier state, with the uids drawn since. -/
structure Ahead (past s : Store) : Prop where
  represented : Represented s
  issued : past.db.issued ≤ s.db.issued
  generation : ∀ (k : Kind) (key' : String) (new : Obj k), s.db.find k key' = some new →
    ∀ key old, past.db.find k key = some old → (metaOf new).uid = (metaOf old).uid →
      (metaOf old).generation ≤ (metaOf new).generation

theorem Ahead.of_change {past : Store} (born : past.db.Issued) (ahead : Ahead past s)
    (change : Change s operation s') : Ahead past s' := by
  obtain ⟨k, key, wrote, write, counted⟩ := change.written
  refine ⟨ahead.represented.of_change change, ahead.issued.trans write.issued, ?_⟩
  refine write.filed.forall_find _ ahead.generation ?_
  intro new isNew key' old seen eq
  rcases write.uid new isNew with ⟨stored, hit, uidEq⟩ | ⟨isFresh, -⟩
  · have pre := ahead.generation k key stored hit key' old seen (uidEq.symm.trans eq)
    have grown := ((counted new isNew).2 stored hit).generation
    split at grown <;> omega
  obtain ⟨n, drawn, isUid⟩ := born.uid k key' old seen
  have equal := DB.uid_inj (isFresh.symm.trans (eq.trans isUid))
  have counters := ahead.issued
  omega

theorem generation_counts_changes (reached : Reachable Store.step anyOperation {} s) :
    (∀ operation s', s.perform operation = .ok s' → ∀ (k : Kind) (key : String) (new : Obj k),
      s'.db.find k key = some new → (s.db.find k key = none → (metaOf new).generation = 1) ∧
        ∀ old, s.db.find k key = some old → Counted operation old new) ∧
    ∀ t, Reachable Store.step anyOperation s t → ∀ (k : Kind) (key key' : String) (old new : Obj k),
      s.db.find k key = some old → t.db.find k key' = some new →
        (metaOf new).uid = (metaOf old).uid →
          (metaOf old).generation ≤ (metaOf new).generation := by
  have represented := represented_of_run reached
  refine ⟨fun operation s' done => (change_of_perform represented done).counted, ?_⟩
  intro t later k key key' old new seen present same
  have start : Ahead s s := by
    refine ⟨represented, le_rfl, fun k key' new found key old seen sameUid => ?_⟩
    obtain rfl := represented.issued.unique k key' key new old found seen sameUid
    cases found.symm.trans seen
    exact le_rfl
  have ahead := later.invariant (Ahead s) start fun ahead _ happened =>
    ahead.of_change represented.issued (change_of_perform ahead.represented (perform_of_step happened))
  exact ahead.generation k key' new present key old seen same

theorem generation_counts_changes_edited : ∃ s s' : Store, ∃ old new : Service,
    Reachable Store.step anyOperation {} s ∧ s.perform (.rollback .service "uid-1" 2) = .ok s' ∧
    s.db.find .service "team/web" = some old ∧ s'.db.find .service "team/web" = some new ∧
    old.metadata.generation = 2 ∧ new.metadata.generation = 3 ∧
    Counted (k := .service) (.rollback .service "uid-1" 2) old new := by
  obtain ⟨s, ran, view⟩ := Option.map_eq_some_iff.1 (show (run Store.step anyOperation {}
    serviceEdited.dropLast).map (fun s => (s.db.find .service "team/web").map
      (·.metadata.generation)) = some (some 2) by decide +kernel)
  obtain ⟨s', step, view'⟩ := Option.map_eq_some_iff.1 (show ((run Store.step anyOperation {}
    serviceEdited.dropLast).bind fun s => s.step (.rollback .service "uid-1" 2)).map (fun s =>
      (s.db.find .service "team/web").map (·.metadata.generation)) =
        some (some 3) by decide +kernel)
  obtain ⟨old, present, before⟩ := Option.map_eq_some_iff.1 view
  obtain ⟨new, written, after⟩ := Option.map_eq_some_iff.1 view'
  rw [ran, Option.bind_some] at step
  have reached := Reachable.start.run ran
  have done := perform_of_step step
  have counted :=
    ((generation_counts_changes reached).1 _ s' done .service _ new written).2 old present
  exact ⟨s, s', old, new, reached, done, present, written, before, after, counted⟩

end

/-! ## Rolling back -/

section

variable {k : Kind} {key : String} {head : Obj k}

theorem Represented.lookup_history (repr : Represented s) (hit : s.db.find k key = some head)
    (keeps : noHistory k = false) {version : Nat} {snap : Obj k} :
    (s.history k (metaOf head).uid).lookup version = some snap ↔
      (version, snap) ∈ lastRevisions (s.revisionsOf k (metaOf head).uid) := by
  rw [← repr.kept k key head hit keeps]
  have versions : ((s.history k (metaOf head).uid).map Prod.fst).Nodup := by
    rw [repr.kept k key head hit keeps, lastRevisions, List.rtake, List.map_drop, List.map_map]
    exact (List.drop_sublist _ _).nodup
      (List.pairwise_map.2 (((repr.increasing k).filter _).imp fun less => less.ne))
  rw [List.lookup_eq_some_iff]
  constructor
  · rintro ⟨pre, post, split, -⟩
    simp [split]
  · intro mem
    obtain ⟨pre, post, split⟩ := List.append_of_mem mem
    refine ⟨pre, post, split, fun e before => ?_⟩
    rw [split, List.map_append, List.map_cons, List.nodup_append] at versions
    simpa using (versions.2.2 _ (List.mem_map_of_mem before) _ (.head _)).symm

/-- **A rollback restores what it names**: it succeeds for the last ten core writes of a stored
object and for nothing else, and then the desired state and the labels are those of that write, the
status is the present one, and no other object is touched. -/
theorem rollback_restores (reached : Reachable Store.step anyOperation {} s)
    (hit : s.db.find k key = some head) (keeps : noHistory k = false) {version : Nat}
    (positive : 0 < version) :
    ((∃ s', s.rollback k (metaOf head).uid version = .ok s') ↔
      ∃ snap, (version, snap) ∈ lastRevisions (s.revisionsOf k (metaOf head).uid)) ∧
    ∀ s' snap, s.rollback k (metaOf head).uid version = .ok s' →
      (version, snap) ∈ lastRevisions (s.revisionsOf k (metaOf head).uid) →
      (∃ out, s'.db.find k key = some out ∧ sameDesired out snap = true ∧ SameStatus out head ∧
        (metaOf out).labels = (metaOf snap).labels ∧ (metaOf out).uid = (metaOf head).uid) ∧
      ∀ k' key', (k' = k → key' ≠ key) → s'.db.find k' key' = s.db.find k' key' := by
  have repr := represented_of_run reached
  have restores {snap : Obj k} (mem : (version,
    snap) ∈ lastRevisions (s.revisionsOf k (metaOf head).uid)) :
      (metaOf snap).uid = (metaOf head).uid ∧ s.rollback k (metaOf head).uid version =
        .ok (s.commit ((s.db.nextRV k).putHead key (s.restored snap head)) (metaOf head).uid
          (s.restored snap head)) := by
    have found := (repr.lookup_history hit keeps).2 mem
    obtain ⟨rev, among, eq⟩ := List.mem_map.1 (List.mem_of_mem_drop mem)
    cases eq
    have keyEq := (repr.head k key head hit).1 rev among
    obtain ⟨inCommits, uidEq⟩ := List.mem_filter.1 among
    obtain ⟨-, -, own, n, -, uid⟩ := repr.known k rev inCommits
    rw [← of_decide_eq_true uidEq] at found ⊢
    have named : rev.uid ≠ "" := by simp [uid]
    exact ⟨own, by simp [Store.rollback, named, positive.ne', keeps, found, keyEq, hit]⟩
  refine ⟨⟨fun ⟨s', done⟩ => ?_, fun ⟨snap, mem⟩ => ⟨_, (restores mem).2⟩⟩,
    fun s' snap done mem => ?_⟩
  · cases found : (s.history k (metaOf head).uid).lookup version with
    | none =>
      simp only [Store.rollback, keeps, found, Int.toNat_natCast] at done
      split_ifs at done
    | some snap => exact ⟨snap, (repr.lookup_history hit keeps).1 found⟩
  obtain ⟨own, restored⟩ := restores mem
  cases restored.symm.trans done
  have filed := DB.filed_putHead (s.db.nextRV k) key (s.restored snap head)
  refine ⟨⟨_, filed.here, ?_, sameStatus_merged _, by simp [Store.restored],
    by simp [Store.restored, own]⟩,
    fun k' key' apart => ?_⟩
  · exact decide_eq_true (by cases k <;> rfl)
  by_cases kindEq : k' = k
  · subst kindEq
    exact filed.elsewhere key' (apart rfl)
  · exact filed.otherKinds k' key' kindEq

end

theorem rollback_restores_edited : ∃ s s' : Store, ∃ head out : Service,
    s.rollback .service head.metadata.uid 2 = .ok s' ∧ s.db.find .service "team/web" = some head ∧
    s'.db.find .service "team/web" = some out ∧ SameStatus (k := .service) out head := by
  obtain ⟨s, reached, present, kept⟩ : ∃ s, Reachable Store.step anyOperation {} s ∧
      (s.db.find .service "team/web").map (·.metadata.uid) = some "uid-1" ∧
      ((s.history .service "uid-1").lookup 2).isSome = true :=
    exists_of_run serviceEdited.dropLast (by decide +kernel)
  obtain ⟨head, hit, uid⟩ := Option.map_eq_some_iff.1 present
  obtain ⟨snap, found⟩ := Option.isSome_iff_exists.1 kept
  have mem := ((represented_of_run reached).lookup_history hit rfl).1 (uid ▸ found)
  obtain ⟨succeeds, restores⟩ := rollback_restores reached hit rfl (Nat.succ_pos 1)
  obtain ⟨s', done⟩ := succeeds.2 ⟨snap, mem⟩
  obtain ⟨⟨out, written, -, status, -⟩, -⟩ := restores s' snap done mem
  exact ⟨s, s', head, out, done, hit, written, status⟩

end Horchestra.Storage
