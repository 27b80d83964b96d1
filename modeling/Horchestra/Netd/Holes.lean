import Horchestra.Netd.SockLB

/-!
# Counts and the backends they promise

The kernel's program picks an index below the count of a service and looks the backend up, so the
tables are sound when every index below a count has its entry.  Another process sees the tables
after every single operation of an update.

An operation that fails is reported and the update carries on, and that is where soundness can be
lost: the count is written although a backend of it could not be, and backends are reclaimed
although the count over them could not be lowered or removed.  `sound_throughout_iff` says exactly
which failures an update survives: those under which no count is written over a missing backend
and none is left standing over a reclaimed one.
-/

namespace Horchestra.Netd

open Foundations ByteOrder KernelMaps

/-- The backend with a given index, which is kept in sixteen bits. -/
def Maps.HasBackend (m : Maps) (svc : SvcKey) (i : Nat) : Prop :=
  i < 65536 ∧ backendKey svc (UInt16.ofNat i) ∈ m.backends

/-- Every index below a count has its entry. -/
def Maps.Sound (m : Maps) : Prop :=
  ∀ svc val, m.services.lookup svc = some val → ∀ i < (ofLe32 val).toNat, m.HasBackend svc i

/-- The operations of an update that fail, each with its error. -/
abbrev Faults := Op → Option String

/-- A service whose count an update cannot change. -/
def Stuck (faults : Faults) (want : Wanted) (svc : SvcKey) : Prop :=
  (∀ bes, (svc, bes) ∈ want → faults (.writeService svc bes.length) ≠ none) ∧
    (svc ∉ want.map Prod.fst → faults (.deleteService svc) ≠ none)

/-- Failures that do no harm: a count that is written finds its backends, there already or just
written, and the backends under a count that stays are not reclaimed. -/
structure Harmless (faults : Faults) (want : Wanted) (m : Maps) : Prop where
  named : ∀ svc bes, (svc, bes) ∈ want → faults (.writeService svc bes.length) = none →
    ∀ i < (UInt32.ofNat bes.length).toNat, m.HasBackend svc i ∨
      i < 65536 ∧ ∃ j be, bes[j]? = some be ∧ UInt16.ofNat j = UInt16.ofNat i ∧
        faults (.writeBackend svc j be) = none
  kept : faults .readServices = none → faults .readBackends = none →
    ∀ svc val, m.services.lookup svc = some val → Stuck faults want svc →
      ∀ i < (ofLe32 val).toNat, uncovered want (backendKey svc (UInt16.ofNat i)) = true →
        faults (.deleteBackend (backendKey svc (UInt16.ofNat i))) ≠ none

/-- More than the tables may hold. -/
def Oversized (want : Wanted) : Prop :=
  maxServices < (UInt32.ofNat want.length).toNat ∨
    maxBackends < (UInt32.ofNat (totalBackends want)).toNat

/-! ## What writes leave behind -/

section

variable {faults : Faults} {ops : List Op} {m : Maps}

def Op.Writes : Op → Prop
  | .writeBackend .. => True
  | .writeService .. => True
  | _ => False

/-- The operations that succeed, out of a list. -/
abbrev after (faults : Faults) (ops : List Op) (m : Maps) : Maps :=
  Progress.performed faults Op.change ops m

theorem after_cons (op : Op) :
    after faults (op :: ops) m = after faults ops (if faults op = none then op.change m else m) := by
  cases res : faults op <;> simp [after, Progress.performed, res]

/-- The entry a write puts into the table of backends. -/
def Op.backendEntry : Op → Option (BackendKey × BackendVal)
  | .writeBackend svc j be => some (backendKey svc (UInt16.ofNat j), be)
  | _ => none

/-- The entry a write puts into the table of services. -/
def Op.serviceEntry : Op → Option (SvcKey × SvcVal)
  | .writeService svc n => some (svc, serviceValue n)
  | _ => none

abbrev succeeding (faults : Faults) (ops : List Op) : List Op :=
  ops.filter fun op => (faults op).isNone

theorem after_of_writes (writes : ∀ op ∈ ops, op.Writes) :
    after faults ops m =
      ⟨writeAll ((succeeding faults ops).filterMap Op.serviceEntry) m.services,
        writeAll ((succeeding faults ops).filterMap Op.backendEntry) m.backends⟩ := by
  induction ops generalizing m with
  | nil => rfl
  | cons op rest ih =>
    rw [after_cons, ih fun op mem => writes op (by simp [mem])]
    cases res : faults op with
    | some err => simp [succeeding, res]
    | none =>
      have kept : succeeding faults (op :: rest) = op :: succeeding faults rest :=
        List.filter_cons_of_pos (by simp [res])
      rw [if_pos rfl, kept]
      cases op with
      | writeBackend svc j be | writeService svc n => rfl
      | _ => exact absurd (writes _ (.head _)) id

theorem mem_backendEntries {bk : BackendKey} {v : BackendVal} :
    (bk, v) ∈ (succeeding faults ops).filterMap Op.backendEntry ↔
      ∃ svc j, Op.writeBackend svc j v ∈ ops ∧ faults (.writeBackend svc j v) = none ∧
        bk = backendKey svc (UInt16.ofNat j) := by
  simp only [List.mem_filterMap, List.mem_filter, Option.isNone_iff_eq_none]
  constructor
  · rintro ⟨op, ⟨mem, ok⟩, e⟩
    cases op <;> cases e
    exact ⟨_, _, mem, ok, rfl⟩
  rintro ⟨svc, j, mem, ok, rfl⟩
  exact ⟨_, ⟨mem, ok⟩, rfl⟩

variable {svc : SvcKey}

theorem mem_serviceEntries {val : SvcVal} :
    (svc, val) ∈ (succeeding faults ops).filterMap Op.serviceEntry ↔
      ∃ n, Op.writeService svc n ∈ ops ∧ faults (.writeService svc n) = none ∧
        val = serviceValue n := by
  simp only [List.mem_filterMap, List.mem_filter, Option.isNone_iff_eq_none]
  constructor
  · rintro ⟨op, ⟨mem, ok⟩, e⟩
    cases op <;> cases e
    exact ⟨_, mem, ok, rfl⟩
  rintro ⟨n, mem, ok, rfl⟩
  exact ⟨_, ⟨mem, ok⟩, rfl⟩

variable (writes : ∀ op ∈ ops, op.Writes)

include writes

theorem mem_backends_after (bk : BackendKey) :
    bk ∈ (after faults ops m).backends ↔ bk ∈ m.backends ∨
      ∃ svc j be, Op.writeBackend svc j be ∈ ops ∧ faults (.writeBackend svc j be) = none ∧
        bk = backendKey svc (UInt16.ofNat j) := by
  rw [after_of_writes writes, mem_writeAll, List.mem_map]
  refine or_congr Iff.rfl ⟨?_, ?_⟩
  · rintro ⟨⟨_, be⟩, e, rfl⟩
    obtain ⟨svc, j, wrote⟩ := mem_backendEntries.1 e
    exact ⟨svc, j, be, wrote⟩
  rintro ⟨svc, j, be, wrote⟩
  exact ⟨(bk, be), mem_backendEntries.2 ⟨svc, j, wrote⟩, rfl⟩

theorem lookup_backends_after_of_written {svc : SvcKey} {j : Nat}
    {be : BackendVal} (mem : Op.writeBackend svc j be ∈ ops)
    (ok : faults (.writeBackend svc j be) = none)
    (only : ∀ svc' j' be', Op.writeBackend svc' j' be' ∈ ops →
      backendKey svc (UInt16.ofNat j) = backendKey svc' (UInt16.ofNat j') → be' = be) :
    (after faults ops m).backends.lookup (backendKey svc (UInt16.ofNat j)) = some be := by
  rw [after_of_writes writes]
  refine lookup_writeAll_of_mem (mem_backendEntries.2 ⟨svc, j, mem, ok, rfl⟩) ?_ _
  intro other e
  obtain ⟨svc', j', member', -, eq⟩ := mem_backendEntries.1 e
  exact only svc' j' other member' eq

theorem lookup_services_after_of_unwritten
    (unwritten : ∀ n, Op.writeService svc n ∈ ops → faults (.writeService svc n) ≠ none) :
    (after faults ops m).services.lookup svc = m.services.lookup svc := by
  rw [after_of_writes writes]
  refine lookup_writeAll_of_notMem ?_ _
  rintro mem
  obtain ⟨⟨_, val⟩, e, rfl⟩ := List.mem_map.1 mem
  obtain ⟨n, inOps, ok, -⟩ := mem_serviceEntries.1 e
  exact unwritten n inOps ok

theorem lookup_services_after_of_written {n : Nat}
    (mem : Op.writeService svc n ∈ ops) (ok : faults (.writeService svc n) = none)
    (only : ∀ n', Op.writeService svc n' ∈ ops → n' = n) :
    (after faults ops m).services.lookup svc = some (serviceValue n) := by
  rw [after_of_writes writes]
  refine lookup_writeAll_of_mem (mem_serviceEntries.2 ⟨n, mem, ok, rfl⟩) ?_ _
  intro other e
  obtain ⟨n', inOps, -, rfl⟩ := mem_serviceEntries.1 e
  rw [only n' inOps]

end

/-! ## The writes of an update -/

section

variable {want : Wanted}

theorem mem_serviceOps {e : SvcKey × List BackendVal} {op : Op} :
    op ∈ serviceOps e ↔
      (∃ j be, e.2[j]? = some be ∧ op = .writeBackend e.1 j be) ∨
        op = .writeService e.1 e.2.length := by
  simp only [serviceOps, List.mem_append, List.mem_map, List.mem_singleton]
  refine or_congr ⟨?_, ?_⟩ Iff.rfl
  · rintro ⟨⟨be, j⟩, mem, rfl⟩
    exact ⟨j, be, List.mk_mem_zipIdx_iff_getElem?.1 mem, rfl⟩
  rintro ⟨j, be, found, rfl⟩
  exact ⟨(be, j), List.mk_mem_zipIdx_iff_getElem?.2 found, rfl⟩

theorem writes_flatMap_serviceOps : ∀ op ∈ want.flatMap serviceOps, op.Writes := by
  intro op mem
  obtain ⟨e, -, inBlock⟩ := List.mem_flatMap.1 mem
  rcases mem_serviceOps.1 inBlock with ⟨j, be, -, rfl⟩ | rfl <;> trivial

variable {svc : SvcKey}

theorem writeBackend_mem_flatMap {j : Nat} {be : BackendVal} :
    Op.writeBackend svc j be ∈ want.flatMap serviceOps ↔
      ∃ bes, (svc, bes) ∈ want ∧ bes[j]? = some be := by
  rw [List.mem_flatMap]
  constructor
  · rintro ⟨⟨key, bes⟩, mem, inBlock⟩
    rcases mem_serviceOps.1 inBlock with ⟨i, v, found, eq⟩ | eq <;> cases eq
    exact ⟨bes, mem, found⟩
  rintro ⟨bes, mem, found⟩
  exact ⟨(svc, bes), mem, mem_serviceOps.2 (.inl ⟨j, be, found, rfl⟩)⟩

variable {n : Nat}

theorem writeService_mem_flatMap :
    Op.writeService svc n ∈ want.flatMap serviceOps ↔
      ∃ bes, (svc, bes) ∈ want ∧ n = bes.length := by
  rw [List.mem_flatMap]
  constructor
  · rintro ⟨⟨key, bes⟩, mem, inBlock⟩
    rcases mem_serviceOps.1 inBlock with ⟨i, v, found, eq⟩ | eq <;> cases eq
    exact ⟨bes, mem, rfl⟩
  rintro ⟨bes, mem, rfl⟩
  exact ⟨(svc, bes), mem, mem_serviceOps.2 (.inr rfl)⟩

/-- Wherever an update is interrupted, a count comes after all the backends it names. -/
theorem backends_before_count {ops : List Op} (start : ops <+: want.flatMap serviceOps)
    (mem : Op.writeService svc n ∈ ops) :
    ∃ bes, (svc, bes) ∈ want ∧ n = bes.length ∧
      ∀ j be, bes[j]? = some be → Op.writeBackend svc j be ∈ ops := by
  induction want generalizing ops with
  | nil =>
    rw [List.flatMap_nil, List.prefix_nil] at start
    subst start
    cases mem
  | cons entry rest ih =>
    obtain ⟨left, whole⟩ := start
    rw [List.flatMap_cons] at whole
    rcases List.append_eq_append_iff.1 whole with ⟨more, block, -⟩ | ⟨later, rfl, others⟩
    · -- Inside the block of one service, whose last operation is the count.
      rcases more.eq_nil_or_concat with rfl | ⟨shorter, last, rfl⟩
      · rw [List.append_nil] at block
        rw [← block] at mem ⊢
        rcases mem_serviceOps.1 mem with ⟨i, v, found, same⟩ | same <;> cases same
        exact ⟨entry.2, by simp, rfl, fun j be found => mem_serviceOps.2 (.inl ⟨j, be, found, rfl⟩)⟩
      rw [List.concat_eq_append, ← List.append_assoc, serviceOps] at block
      have early : Op.writeService svc n ∈ entry.2.zipIdx.map fun be =>
          Op.writeBackend entry.1 be.2 be.1 := by
        rw [(List.append_inj' block rfl).1]
        exact List.mem_append_left _ mem
      obtain ⟨_, -, same⟩ := List.mem_map.1 early
      cases same
    rcases List.mem_append.1 mem with eq | after
    · rcases mem_serviceOps.1 eq with ⟨i, v, found, same⟩ | same <;> cases same
      exact ⟨entry.2, by simp, rfl, fun j be found =>
        List.mem_append_left _ (mem_serviceOps.2 (.inl ⟨j, be, found, rfl⟩))⟩
    obtain ⟨bes, listed, count, wrote⟩ := ih ⟨left, others.symm⟩ after
    exact ⟨bes, by simp [listed], count, fun j be found =>
      List.mem_append_right _ (wrote j be found)⟩

end

/-! ## The states of an update -/

section

variable {faults : Faults} {orders : Orders} {want : Wanted} {m : Maps}

/-- A state after one of the operations that succeed. -/
def Passed (faults : Faults) (ops : List Op) (m s : Maps) : Prop :=
  ∃ before op rest, ops = before ++ op :: rest ∧ faults op = none ∧ s = after faults (before ++ [op]) m

/-- The writes of an update, in the order it makes them. -/
abbrev writes (orders : Orders) (want : Wanted) : List Op :=
  (orders.wanted.arrange want).flatMap serviceOps

/-- The tables once everything wanted is written. -/
abbrev written (faults : Faults) (orders : Orders) (want : Wanted) (m : Maps) : Maps :=
  after faults (writes orders want) m

abbrev removals (faults : Faults) (orders : Orders) (want : Wanted) (m : Maps) : List Op :=
  (staleServices orders want (written faults orders want m)).map .deleteService

/-- The tables once the services that are gone are removed. -/
abbrev removed (faults : Faults) (orders : Orders) (want : Wanted) (m : Maps) : Maps :=
  after faults (removals faults orders want m) (written faults orders want m)

/-- The removals of backends at the end. -/
abbrev reclaims (faults : Faults) (orders : Orders) (want : Wanted) (m : Maps) : List Op :=
  (staleBackends orders want (removed faults orders want m)).map .deleteBackend

variable {s : Maps}

theorem mem_seen_replaceServices :
    s ∈ (replaceServices (fun _ => faults) orders want m).seen ↔
      Passed faults (writes orders want) m s ∨ faults .readServices = none ∧
        (Passed faults (removals faults orders want m) (written faults orders want m) s ∨
          faults .readBackends = none ∧
            Passed faults (reclaims faults orders want m) (removed faults orders want m) s) := by
  have first : ∀ {s}, s ∈ (perform (fun _ => faults) (writes orders want) { state := m }).seen ↔
      Passed faults (writes orders want) m s := by
    intro s
    exact Progress.mem_seen_each.trans (or_iff_right List.not_mem_nil)
  have state : (perform (fun _ => faults) (writes orders want) { state := m }).state =
      written faults orders want m := Progress.state_each _ _
  rw [replaceServices, state]
  cases faults .readServices with
  | some err => simp [first]
  | none =>
    have second : ∀ {s}, s ∈ (perform (fun _ => faults) (removals faults orders want m)
        (perform (fun _ => faults) (writes orders want) { state := m })).seen ↔
        Passed faults (writes orders want) m s ∨
          Passed faults (removals faults orders want m) (written faults orders want m) s := by
      intro s
      rw [Progress.mem_seen_each, first, state]
      rfl
    have after : (perform (fun _ => faults) (removals faults orders want m)
        (perform (fun _ => faults) (writes orders want) { state := m })).state =
        removed faults orders want m := by
      rw [Progress.state_each, state]
    dsimp only
    rw [reclaimBackends, after]
    cases faults .readBackends with
    | some err => simp [second]
    | none =>
      dsimp only
      rw [Progress.mem_seen_each, second, after]
      simp [Passed, or_assoc]

/-! ## Failures that do no harm -/

variable {svc : SvcKey} {bes : List BackendVal}

theorem bes_eq (distinct : (want.map Prod.fst).Nodup) {bes' : List BackendVal}
    (mem : (svc, bes) ∈ want) (member' : (svc, bes') ∈ want) : bes = bes' :=
  (Prod.mk.inj (List.inj_on_of_nodup_map distinct mem member' rfl)).2

theorem ofLe32_serviceValue (n : Nat) : ofLe32 (serviceValue n) = UInt32.ofNat n := ofLe32_le32 _

/-- Wherever the writes of an update are interrupted, the tables are sound. -/
theorem sound_writing (distinct : (want.map Prod.fst).Nodup) (sound : m.Sound)
    (harmless : Harmless faults want m) {ops : List Op} (start : ops <+: writes orders want) :
    (after faults ops m).Sound := by
  have allWrite : ∀ op ∈ ops, op.Writes := fun op mem =>
    writes_flatMap_serviceOps op (start.subset mem)
  have listed {svc : SvcKey} {bes : List BackendVal} :
      (svc, bes) ∈ orders.wanted.arrange want ↔ (svc, bes) ∈ want := orders.wanted.mem_arrange
  have stays {svc : SvcKey} {i : Nat} (has : m.HasBackend svc i) :
      (after faults ops m).HasBackend svc i :=
    ⟨has.1, (mem_backends_after allWrite _).2 (.inl has.2)⟩
  intro svc val found i below
  by_cases counted : ∃ n, Op.writeService svc n ∈ ops ∧ faults (.writeService svc n) = none
  · obtain ⟨n, mem, ok⟩ := counted
    obtain ⟨bes, inWant, rfl, past⟩ := backends_before_count start mem
    rw [listed] at inWant
    have v := lookup_services_after_of_written (m := m) allWrite mem ok (by
      intro n' member'
      obtain ⟨bes', inWant', rfl, -⟩ := backends_before_count start member'
      rw [bes_eq distinct inWant (listed.1 inWant')])
    obtain rfl : serviceValue bes.length = val := Option.mem_unique v found
    rw [ofLe32_serviceValue] at below
    rcases harmless.named svc bes inWant ok i below with has | ⟨small, j, be, place, eq, done⟩
    · exact stays has
    refine ⟨small, (mem_backends_after allWrite _).2 (.inr ⟨svc, j, be, past j be place, done, ?_⟩)⟩
    rw [eq]
  rw [lookup_services_after_of_unwritten allWrite
    fun n mem ok => counted ⟨n, mem, ok⟩] at found
  exact stays (sound svc val found i below)

theorem after_removing (ops : List SvcKey) (m : Maps) :
    after faults (ops.map .deleteService) m =
      ⟨dropAll (ops.filter fun svc => (faults (.deleteService svc)).isNone) m.services,
        m.backends⟩ := by
  induction ops generalizing m with
  | nil => rfl
  | cons svc rest ih =>
    rw [List.map_cons, after_cons, ih]
    cases res : faults (.deleteService svc) <;> simp [res, Op.change, dropAll]

theorem lookup_services_removing (ops : List SvcKey) (svc : SvcKey) :
    (after faults (ops.map .deleteService) m).services.lookup svc =
      if svc ∈ ops ∧ faults (.deleteService svc) = none then none else m.services.lookup svc := by
  rw [after_removing, lookup_dropAll]
  simp

theorem sound_removing (ops : List SvcKey) (sound : m.Sound) :
    (after faults (ops.map .deleteService) m).Sound := by
  intro svc val found i below
  rw [lookup_services_removing] at found
  split at found
  · cases found
  obtain ⟨small, hit⟩ := sound svc val found i below
  exact ⟨small, by rw [after_removing]; exact hit⟩

theorem after_reclaiming (ops : List BackendKey) (m : Maps) :
    after faults (ops.map .deleteBackend) m =
      ⟨m.services,
        dropAll (ops.filter fun bk => (faults (.deleteBackend bk)).isNone) m.backends⟩ := by
  induction ops generalizing m with
  | nil => rfl
  | cons bk rest ih =>
    rw [List.map_cons, after_cons, ih]
    cases res : faults (.deleteBackend bk) <;> simp [res, Op.change, dropAll]

theorem mem_backends_reclaiming (ops : List BackendKey) (bk : BackendKey) :
    bk ∈ (after faults (ops.map .deleteBackend) m).backends ↔
      bk ∈ m.backends ∧ ¬ (bk ∈ ops ∧ faults (.deleteBackend bk) = none) := by
  rw [after_reclaiming, ← AList.lookup_isSome, lookup_dropAll, ← AList.lookup_isSome]
  split <;> simp_all

theorem passed_map_iff {κ : Type} {keys : List κ} {op : κ → Op} :
    Passed faults (keys.map op) m s ↔ ∃ pre key rest, keys = pre ++ key :: rest ∧
      faults (op key) = none ∧ s = after faults ((pre ++ [key]).map op) m := by
  constructor
  · rintro ⟨pre, first, rest, whole, ok, rfl⟩
    obtain ⟨front, back, rfl, rfl, others⟩ := List.map_eq_append_iff.1 whole
    obtain ⟨key, tail, rfl, rfl, rfl⟩ := List.map_eq_cons_iff.1 others
    exact ⟨front, key, tail, rfl, ok, by rw [List.map_append, List.map_singleton]⟩
  rintro ⟨pre, key, rest, rfl, ok, rfl⟩
  exact ⟨pre.map op, op key, rest.map op, by simp, ok, by
    rw [List.map_append, List.map_singleton]⟩

theorem uncovered_backendKey (distinct : (want.map Prod.fst).Nodup) (mem : (svc, bes) ∈ want)
    (index : UInt16) :
    uncovered want (backendKey svc index) = decide (bes.length ≤ index.toNat) := by
  rw [uncovered, serviceOf_backendKey, indexOf_backendKey]
  cases found : want.find? fun e => e.1 == svc with
  | none => exact absurd (List.find?_eq_none.1 found _ mem) (by simp)
  | some e =>
    obtain ⟨key, bes'⟩ := e
    obtain rfl : key = svc := by simpa using List.find?_some found
    rw [bes_eq distinct mem (List.mem_of_find?_eq_some found)]

theorem lookup_written_of_mem (distinct : (want.map Prod.fst).Nodup) (mem : (svc, bes) ∈ want) :
    (written faults orders want m).services.lookup svc =
      if faults (.writeService svc bes.length) = none then some (serviceValue bes.length)
      else m.services.lookup svc := by
  have only : ∀ n, Op.writeService svc n ∈ writes orders want → n = bes.length := by
    intro n inWrites
    obtain ⟨bes', member', rfl⟩ := writeService_mem_flatMap.1 inWrites
    rw [bes_eq distinct mem (orders.wanted.mem_arrange.1 member')]
  split
  next ok =>
    exact lookup_services_after_of_written writes_flatMap_serviceOps
      (writeService_mem_flatMap.2 ⟨bes, orders.wanted.mem_arrange.2 mem, rfl⟩) ok only
  rename_i fails
  refine lookup_services_after_of_unwritten writes_flatMap_serviceOps fun n inWrites => ?_
  rw [only n inWrites]
  exact fails

theorem lookup_written_of_notMem (gone : svc ∉ want.map Prod.fst) :
    (written faults orders want m).services.lookup svc = m.services.lookup svc := by
  refine lookup_services_after_of_unwritten writes_flatMap_serviceOps fun n inWrites => ?_
  obtain ⟨bes, mem, -⟩ := writeService_mem_flatMap.1 inWrites
  exact absurd (List.mem_map_of_mem (orders.wanted.mem_arrange.1 mem)) gone

theorem mem_staleServices :
    svc ∈ staleServices orders want m ↔ svc ∈ m.services ∧ svc ∉ want.map Prod.fst := by
  rw [staleServices, List.mem_filter, decide_eq_true_eq, Shuffle.mem_arrange, ← AList.mem_keys]

theorem mem_staleBackends {bk : BackendKey} :
    bk ∈ staleBackends orders want m ↔ bk ∈ m.backends ∧ uncovered want bk = true := by
  rw [staleBackends, List.mem_filter, Shuffle.mem_arrange, ← AList.mem_keys]

variable {val : SvcVal}

variable (distinct : (want.map Prod.fst).Nodup)

include distinct

theorem lookup_removed_iff : (removed faults orders want m).services.lookup svc = some val ↔
      (∃ bes, (svc, bes) ∈ want ∧ faults (.writeService svc bes.length) = none ∧
        val = serviceValue bes.length) ∨
      m.services.lookup svc = some val ∧ Stuck faults want svc := by
  rw [removed, lookup_services_removing]
  by_cases wanted : svc ∈ want.map Prod.fst
  · obtain ⟨⟨_, bes⟩, mem, rfl⟩ := List.mem_map.1 wanted
    rw [if_neg (fun stale => (mem_staleServices.1 stale.1).2 wanted),
      lookup_written_of_mem distinct mem]
    split
    next ok =>
      rw [Option.some.injEq, eq_comm]
      constructor
      · rintro rfl
        exact .inl ⟨bes, mem, ok, rfl⟩
      rintro (⟨bes', member', -, rfl⟩ | ⟨-, stuck⟩)
      · rw [bes_eq distinct mem member']
      · exact absurd ok (stuck.1 bes mem)
    rename_i fails
    constructor
    · intro found
      refine .inr ⟨found, fun bes' member' => ?_, fun gone => absurd wanted gone⟩
      rw [← bes_eq distinct mem member']
      exact fails
    rintro (⟨bes', member', ok, -⟩ | ⟨found, -⟩)
    · rw [← bes_eq distinct mem member'] at ok
      contradiction
    · exact found
  have none {bes : List BackendVal} (mem : (svc, bes) ∈ want) : False :=
    wanted (List.mem_map_of_mem mem)
  rw [lookup_written_of_notMem wanted]
  constructor
  · intro found
    split at found
    · cases found
    rename_i kept
    have hit : svc ∈ (written faults orders want m).services := by
      rw [← AList.lookup_isSome, lookup_written_of_notMem wanted, found]
      rfl
    exact .inr ⟨found, fun bes mem => (none mem).elim,
      fun _ ok => kept ⟨mem_staleServices.2 ⟨hit, wanted⟩, ok⟩⟩
  rintro (⟨bes, mem, -⟩ | ⟨found, stuck⟩)
  · exact (none mem).elim
  · rw [if_neg fun stale => stuck.2 wanted stale.2]
    exact found

/-- Reclaiming backends leaves the tables sound when no count stands over them. -/
theorem sound_reclaiming
    (sound : (removed faults orders want m).Sound) (harmless : Harmless faults want m)
    (readServices : faults .readServices = none) (readBackends : faults .readBackends = none)
    {ops : List BackendKey} (stale : ∀ bk ∈ ops, uncovered want bk = true) :
    (after faults (ops.map .deleteBackend) (removed faults orders want m)).Sound := by
  intro svc val found i below
  rw [after_reclaiming] at found
  obtain ⟨small, hit⟩ := sound svc val found i below
  refine ⟨small, (mem_backends_reclaiming ops _).2 ⟨hit, ?_⟩⟩
  rintro ⟨mem, gone⟩
  have free := stale _ mem
  rcases (lookup_removed_iff distinct).1 found with ⟨bes, wanted, -, rfl⟩ | ⟨pre, stuck⟩
  · rw [uncovered_backendKey distinct wanted, decide_eq_true_eq, UInt16.toNat_ofNat',
      Nat.mod_eq_of_lt small] at free
    rw [ofLe32_serviceValue, UInt32.toNat_ofNat'] at below
    omega
  · exact harmless.kept readServices readBackends svc val pre stuck i below free gone

theorem sound_of_harmless (sound : m.Sound) (harmless : Harmless faults want m)
    (seen : s ∈ (replaceServices (fun _ => faults) orders want m).seen) : s.Sound := by
  have whole : (after faults (writes orders want) m).Sound :=
    sound_writing distinct sound harmless List.prefix_rfl
  rcases mem_seen_replaceServices.1 seen with ⟨pre, op, rest, split, ok, rfl⟩ |
    ⟨readServices, passed | ⟨readBackends, passed⟩⟩
  · have start : pre ++ [op] <+: writes orders want :=
      ⟨rest, by rw [split, List.append_assoc, List.singleton_append]⟩
    exact sound_writing distinct sound harmless start
  · obtain ⟨pre, svc, rest, -, -, rfl⟩ := passed_map_iff.1 passed
    exact sound_removing _ whole
  · obtain ⟨pre, bk, rest, split, -, rfl⟩ := passed_map_iff.1 passed
    refine sound_reclaiming distinct (sound_removing _ whole) harmless readServices readBackends ?_
    intro key mem
    have inStale : key ∈ staleBackends orders want (removed faults orders want m) := by
      rw [split, List.append_cons]
      exact List.mem_append_left _ mem
    exact (mem_staleBackends.1 inStale).2

variable {i : Nat}

theorem named_of_sound (all : ∀ s ∈ (replaceServices (fun _ => faults) orders want m).seen, s.Sound)
    (wanted : (svc, bes) ∈ want) (ok : faults (.writeService svc bes.length) = none)
    (below : i < (UInt32.ofNat bes.length).toNat) :
    m.HasBackend svc i ∨ i < 65536 ∧ ∃ j be, bes[j]? = some be ∧
      UInt16.ofNat j = UInt16.ofNat i ∧ faults (.writeBackend svc j be) = none := by
  obtain ⟨front, back, order⟩ := List.append_of_mem (orders.wanted.mem_arrange.2 wanted)
  -- The writes up to and including this count.
  let pre : List Op := front.flatMap serviceOps ++
    bes.zipIdx.map fun be => Op.writeBackend svc be.2 be.1
  have split : writes orders want =
      pre ++ Op.writeService svc bes.length :: back.flatMap serviceOps := by
    simp [writes, order, serviceOps, pre]
  have inWrites : ∀ op ∈ pre, op ∈ writes orders want := fun op mem => by
    rw [split]
    exact List.mem_append_left _ mem
  have sound := all _ (mem_seen_replaceServices.2 (.inl ⟨pre, _, _, split, ok, rfl⟩))
  have state : after faults (pre ++ [.writeService svc bes.length]) m =
      (Op.writeService svc bes.length).change (after faults pre m) :=
    Progress.performed_concat ok _ _
  have counted : (after faults (pre ++ [.writeService svc bes.length]) m).services.lookup svc =
      some (serviceValue bes.length) := by
    rw [state]
    exact AList.lookup_insert _
  obtain ⟨small, hit⟩ := sound svc _ counted i (by rw [ofLe32_serviceValue]; exact below)
  rw [state] at hit
  rcases (mem_backends_after (fun op mem => writes_flatMap_serviceOps op (inWrites op mem)) _).1
    hit with old | ⟨svc', j, be, mem, done, eq⟩
  · exact .inl ⟨small, old⟩
  obtain ⟨rfl, index⟩ := backendKey_inj.1 eq
  obtain ⟨bes', wanted', place⟩ := writeBackend_mem_flatMap.1 (inWrites _ mem)
  rw [← bes_eq distinct wanted (orders.wanted.mem_arrange.1 wanted')] at place
  exact .inr ⟨small, j, be, place, index.symm, done⟩

/-- A backend under a count that stays is not reclaimed. -/
theorem kept_of_sound (sound : m.Sound)
    (all : ∀ s ∈ (replaceServices (fun _ => faults) orders want m).seen, s.Sound)
    (readServices : faults .readServices = none) (readBackends : faults .readBackends = none)
    (found : m.services.lookup svc = some val) (stuck : Stuck faults want svc)
    (below : i < (ofLe32 val).toNat)
    (free : uncovered want (backendKey svc (UInt16.ofNat i)) = true) :
    faults (.deleteBackend (backendKey svc (UInt16.ofNat i))) ≠ none := by
  intro gone
  have stays : (removed faults orders want m).services.lookup svc = some val :=
    (lookup_removed_iff distinct).2 (.inr ⟨found, stuck⟩)
  have hit : backendKey svc (UInt16.ofNat i) ∈ (removed faults orders want m).backends := by
    rw [removed, after_removing, mem_backends_after writes_flatMap_serviceOps]
    exact .inl (sound svc val found i below).2
  have stale : backendKey svc (UInt16.ofNat i) ∈
      staleBackends orders want (removed faults orders want m) := mem_staleBackends.2 ⟨hit, free⟩
  obtain ⟨pre, rest, split⟩ := List.append_of_mem stale
  have passed : Passed faults ((staleBackends orders want (removed faults orders want m)).map
      Op.deleteBackend) (removed faults orders want m) _ :=
    passed_map_iff.2 ⟨pre, _, rest, split, gone, rfl⟩
  have broken := all _ (mem_seen_replaceServices.2 (.inr ⟨readServices, .inr ⟨readBackends, passed⟩⟩))
  obtain ⟨-, still⟩ := broken svc val (by rw [after_reclaiming]; exact stays) i below
  exact ((mem_backends_reclaiming _ _).1 still).2 ⟨by simp, gone⟩

end

/-- **The counts hold throughout an update exactly under failures that do no harm.** -/
theorem sound_throughout_iff (faults : Faults) (orders : Orders) {m : Maps} (sound : m.Sound)
    {rules : List ServiceRule} {want : Wanted} (accepted : serviceTable rules = .ok want) :
    (∀ s ∈ (services (fun _ => faults) orders rules m).seen, s.Sound) ↔
      Oversized want ∨ Harmless faults want m := by
  have distinct := (serviceTable_eq_ok_iff.1 accepted).2
  rw [services, accepted]
  dsimp only
  split
  next many => exact iff_of_true (by simp) (.inl (.inl many))
  rename_i few
  split
  next many => exact iff_of_true (by simp) (.inl (.inr many))
  rename_i fits
  have within : ¬ Oversized want := not_or.2 ⟨few, fits⟩
  rw [or_iff_right within]
  constructor
  · intro all
    exact ⟨fun svc bes wanted succeeds i below => named_of_sound distinct all wanted succeeds below,
      fun readServices readBackends svc val found stuck i below free =>
        kept_of_sound distinct sound all readServices readBackends found stuck below free⟩
  intro harmless s seen
  exact sound_of_harmless distinct sound harmless seen

/-! ## One service with one backend -/

def emptyMaps : Maps := ⟨∅, ∅⟩

def plainOrders : Orders := ⟨.inOrder, .inOrder, .inOrder⟩

def webRule : ServiceRule :=
  { clusterIp := "10.243.0.1", port := 80, backends := [{ address := "10.244.0.7", port := 8080 }] }

def webKey : SvcKey := serviceKey (bytes [10, 243, 0, 1]) 80 ipprotoTCP

def webBackend : BackendVal := backendValue (bytes [10, 244, 0, 7]) 8080

theorem sound_emptyMaps : emptyMaps.Sound := by exact nofun

theorem serviceTable_webRule : serviceTable [webRule] = .ok [(webKey, [webBackend])] := by
  decide +kernel

/-- An update all of whose operations succeed. -/
theorem sound_throughout_web :
    emptyMaps.Sound ∧ serviceTable [webRule] = .ok [(webKey, [webBackend])] ∧
      ∀ s ∈ (services (fun _ _ => none) plainOrders [webRule] emptyMaps).seen, s.Sound := by
  refine ⟨sound_emptyMaps, serviceTable_webRule, (sound_throughout_iff (fun _ => none) plainOrders
    sound_emptyMaps serviceTable_webRule).2 (.inr ⟨?_, ?_⟩)⟩
  · intro svc bes wanted _ i below
    cases List.mem_singleton.1 wanted
    obtain rfl : i = 0 := by
      have single : i < 1 := below
      omega
    exact .inr ⟨by decide, 0, webBackend, rfl, rfl, rfl⟩
  · exact nofun

def backendsFull : Faults
  | .writeBackend .. => some "argument list too long"
  | _ => none

theorem count_over_missing_backend :
    ∃ s ∈ (services (fun _ => backendsFull) plainOrders [webRule] emptyMaps).seen, ¬ s.Sound := by
  have seen : (services (fun _ => backendsFull) plainOrders [webRule] emptyMaps).seen.map
      (fun s => (s.services.lookup webKey, s.backends.keys)) = [(some (serviceValue 1), [])] := by
    decide +kernel
  obtain ⟨s, rest, member, view, -⟩ := List.map_eq_cons_iff.1 seen
  refine ⟨s, by rw [member]; exact .head _, fun sound => ?_⟩
  obtain ⟨counted, none⟩ := Prod.mk.inj view
  obtain ⟨-, there⟩ := sound webKey _ counted 0 (by decide)
  rw [AList.mem_keys, none] at there
  cases there

end Horchestra.Netd
