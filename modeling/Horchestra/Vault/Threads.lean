import Horchestra.Vault.Client

/-!
# The two threads of the vault client

The thread that converges the applications adds entries to the cache, and the one that refreshes them
changes and drops them.  `Flight` is what keeps them from getting in each other's way: a value that is
being read for the first time is not in the cache, and a value that is being refreshed is, with the
lease and the specification it was found with, and in one task only.  `Flight.step` shows it of every
step, whatever the server answers.
-/

namespace Horchestra.Vault

open Api
open Foundations.KernelMaps (Shuffle)

/-! ## Lookups in the cache -/

section

variable {cache : Cache} {ck : String}

theorem lookup_modify (cache : Cache) (key ck : String) (change : Entry → Entry) :
    (modify cache key change).lookup ck =
      if ck = key then (cache.lookup key).map change else cache.lookup ck := by
  rw [modify]
  by_cases same : ck = key
  · subst same
    cases found : cache.lookup ck <;> simp [found]
  · cases found : cache.lookup key <;> simp [same, AList.lookup_insert_ne]

theorem lookup_insert_cases {key : String} {e old : Entry}
    (hit : (cache.insert ck e).lookup key = some old) :
    (key = ck ∧ old = e) ∨ cache.lookup key = some old := by
  by_cases eq : key = ck
  · subst eq
    exact .inl ⟨rfl, (Option.mem_unique (AList.lookup_insert _) hit).symm⟩
  · exact .inr ((AList.lookup_insert_ne eq).symm.trans hit)

theorem lookup_eraseAll (keys : List String) (cache : Cache) (ck : String) :
    (keys.foldl (fun cache ck => cache.erase ck) cache).lookup ck =
      if ck ∈ keys then none else cache.lookup ck :=
  Foundations.KernelMaps.lookup_dropAll keys ck cache

theorem lookup_dropIdle (now : Instant) (cache : Cache) (ck : String) :
    (dropIdle now cache).lookup ck = (cache.lookup ck).filter fun e => !idle now e := by
  rw [dropIdle, lookup_eraseAll]
  cases found : cache.lookup ck with
  | none => simp
  | some e =>
    have listed : ck ∈ cache.keys := AList.mem_keys.1 (AList.lookup_isSome.1 (by simp [found]))
    cases old : idle now e <;> simp [found, listed, old, Option.filter]

theorem mem_pick {order : Shuffle String} {sort : Entry → Bool} {d : Due} :
    d ∈ pick order cache sort ↔ ∃ e, cache.lookup d.ck = some e ∧ sort e = true ∧
      d = ⟨d.ck, e.spec, e.token, e.leaseID, e.renewable⟩ := by
  simp only [pick, List.mem_filterMap, Option.map_eq_some_iff, Option.filter_eq_some_iff]
  constructor
  · rintro ⟨ck, -, e, ⟨found, sorted⟩, rfl⟩
    exact ⟨e, found, sorted, rfl⟩
  rintro ⟨e, found, sorted, eq⟩
  have listed : d.ck ∈ cache.keys := AList.mem_keys.1 (AList.lookup_isSome.1 (by simp [found]))
  exact ⟨d.ck, order.mem_arrange.2 listed, e, ⟨found, sorted⟩, eq.symm⟩

theorem nodup_pick (order : Shuffle String) (cache : Cache) (sort : Entry → Bool) :
    ((pick order cache sort).map Due.ck).Nodup := by
  rw [pick, List.map_filterMap]
  refine (order.nodup_arrange (AList.keys_nodup cache)).filterMap ?_
  simp only [Option.mem_def, Option.map_eq_some_iff]
  rintro ck ck' _ ⟨_, ⟨_, -, rfl⟩, rfl⟩ ⟨_, ⟨_, -, rfl⟩, eq⟩
  exact eq.symm

end

/-! ## The steps -/

/-- The state after a fetch has found the value in the cache. -/
def State.hit (s : State) (app ck : String) (spec : FetchSpec) (e : Entry) (token : String)
    (now : Instant) : State :=
  { s with
    users := ⟨ck, app, decide (spec.dynamicRole ≠ "")⟩ :: s.users
    cache := s.cache.insert ck (e.use token now)
    served := .ofEntry app ck e spec.store :: s.served }

/-- The state after a fetch has found nothing there. -/
def State.miss (s : State) (app ck : String) (spec : FetchSpec) (token : String) : State :=
  { s with
    users := ⟨ck, app, decide (spec.dynamicRole ≠ "")⟩ :: s.users
    pending := some { app, spec, ck, token } }

/-- Everything a step can be, with what it needs. -/
inductive Moves (client : Client) (s : State) : Event → State → Prop
  | push {p : Pushed} (idle : s.pending = none) : Moves client s (.push p) { s with pushed := p }
  | refused {app : String} {secret : Secret} {token : String} {now : Instant} :
      Moves client s (.fetch app secret token now) s
  | hit {app : String} {secret : Secret} {token : String} {now : Instant} {spec : FetchSpec}
      {ck : String} {e : Entry} (idle : s.pending = none)
      (resolved : resolveFetch secret s.pushed.stores = .ok (spec, ck))
      (found : s.cache.lookup ck = some e) :
      Moves client s (.fetch app secret token now) (s.hit app ck spec e token now)
  | miss {app : String} {secret : Secret} {token : String} {now : Instant} {spec : FetchSpec}
      {ck : String} (idle : s.pending = none)
      (resolved : resolveFetch secret s.pushed.stores = .ok (spec, ck))
      (missing : s.cache.lookup ck = none) :
      Moves client s (.fetch app secret token now) (s.miss app ck spec token)
  | answer {server : Server} {p : Pending} (pending : s.pending = some p) (open_ : p.result = none) :
      Moves client s (.answer server) (s.answer client p server)
  | store {now now' : Instant} {p : Pending} {res : ReadResult} (pending : s.pending = some p)
      (answered : p.result = some res) : Moves client s (.store now now') (s.store p res now now')
  | refresh {now : Instant} {order : Shuffle String} (done : s.todo = []) :
      Moves client s (.refresh now order) (s.refresh now order)
  | work {server : Server} {now : Instant} {task : Task} {rest : List Task}
      (todo : s.todo = task :: rest) :
      Moves client s (.work server now) (s.work client task rest server now)

theorem moves_of_step {client : Client} {s s' : State} {event : Event}
    (moved : step client s event = some s') : Moves client s event s' := by
  cases event with
  | push p =>
    simp only [Vault.step, Option.ite_none_right_eq_some, Option.some.injEq,
      Option.isNone_iff_eq_none] at moved
    obtain ⟨idle, rfl⟩ := moved
    exact .push idle
  | fetch app sec token now =>
    simp only [Vault.step, Option.ite_none_right_eq_some, Option.some.injEq,
      Option.isNone_iff_eq_none] at moved
    obtain ⟨idle, rfl⟩ := moved
    rw [State.fetch]
    cases resolved : resolveFetch sec s.pushed.stores with
    | error e => exact .refused
    | ok pair =>
      obtain ⟨spec, ck⟩ := pair
      cases found : s.cache.lookup ck with
      | some e =>
        simp only [found]
        exact .hit idle resolved found
      | none =>
        simp only [found]
        exact .miss idle resolved found
  | answer server =>
    simp only [Vault.step] at moved
    split at moved
    next p pending =>
      simp only [Option.ite_none_right_eq_some, Option.some.injEq,
        Option.isNone_iff_eq_none] at moved
      obtain ⟨open_, rfl⟩ := moved
      exact .answer pending open_
    · cases moved
  | store now now' =>
    simp only [Vault.step] at moved
    split at moved
    next p pending =>
      obtain ⟨res, answered, rfl⟩ := Option.map_eq_some_iff.1 moved
      exact .store pending answered
    · cases moved
  | refresh now order =>
    simp only [Vault.step, Option.ite_none_right_eq_some, Option.some.injEq,
      List.isEmpty_iff] at moved
    obtain ⟨done, rfl⟩ := moved
    exact .refresh done
  | work server now =>
    simp only [Vault.step] at moved
    split at moved
    next task rest todo =>
      cases moved
      exact .work todo
    · cases moved

/-! ## What is under way -/

/-- The entry a task is about, as long as the task may change it. -/
def Task.unsettled : Task → Option Due
  | .attend d | .reread d | .record d _ _ | .giveUp d => some d
  | .release _ | .releaseOld _ => none

def State.refreshing (s : State) : List Due := s.todo.filterMap Task.unsettled

structure Flight (s : State) : Prop where
  absent : ∀ p, s.pending = some p → s.cache.lookup p.ck = none
  held : ∀ d ∈ s.refreshing, ∃ e, s.cache.lookup d.ck = some e ∧ e.leaseID = d.lease ∧ e.spec = d.spec
  once : (s.refreshing.map Due.ck).Nodup

variable {client : Client} {s s' : State}

theorem Flight.initial (p : Pushed) : Flight (.initial p) where
  absent := by simp [State.initial]
  held := by simp [State.initial, State.refreshing]
  once := by simp [State.initial, State.refreshing]

theorem Flight.hit (flight : Flight s) (idle : s.pending = none) {ck : String} {e : Entry}
    (found : s.cache.lookup ck = some e) (app : String) (spec : FetchSpec) (token : String)
    (now : Instant) : Flight (s.hit app ck spec e token now) := by
  refine ⟨?_, ?_, flight.once⟩
  · intro p pending
    cases idle.symm.trans pending
  intro d refreshed
  obtain ⟨e', found', lease, same⟩ := flight.held d refreshed
  by_cases eq : d.ck = ck
  · subst eq
    obtain rfl : e = e' := Option.mem_unique found found'
    exact ⟨_, AList.lookup_insert _, lease, same⟩
  · exact ⟨e', (AList.lookup_insert_ne eq).trans found', lease, same⟩

theorem Flight.miss (flight : Flight s) {ck : String} (missing : s.cache.lookup ck = none)
    (app : String) (spec : FetchSpec) (token : String) : Flight (s.miss app ck spec token) := by
  refine ⟨?_, flight.held, flight.once⟩
  rintro p ⟨⟩
  exact missing

theorem Flight.answer (flight : Flight s) {p : Pending} (pending : s.pending = some p)
    (server : Server) : Flight (s.answer client p server) := by
  refine ⟨?_, flight.held, flight.once⟩
  intro q still
  rw [State.answer] at still
  split at still
  · cases still
    exact flight.absent p pending
  · cases still

theorem Flight.store (flight : Flight s) {p : Pending} (pending : s.pending = some p)
    (res : ReadResult) (now now' : Instant) : Flight (s.store p res now now') := by
  refine ⟨?_, ?_, flight.once⟩
  · exact nofun
  intro d refreshed
  obtain ⟨e, found, same⟩ := flight.held d refreshed
  have other : d.ck ≠ p.ck := by
    intro eq
    rw [eq, flight.absent p pending] at found
    cases found
  exact ⟨e, (AList.lookup_insert_ne other).trans found, same⟩

theorem refreshing_refresh (s : State) (now : Instant) (order : Shuffle String) :
    (s.refresh now order).refreshing = overdue now order s.cache := by
  simp only [State.refresh, State.refreshing, List.filterMap_append, List.filterMap_map]
  have none_ : (Task.unsettled ∘ Task.release) = fun _ => none := rfl
  have some_ : (Task.unsettled ∘ Task.attend) = some := rfl
  rw [none_, some_]
  simp

theorem Flight.refresh (flight : Flight s) (now : Instant) (order : Shuffle String) :
    Flight (s.refresh now order) := by
  refine ⟨?_, ?_, ?_⟩
  · intro p pending
    rw [State.refresh, lookup_dropIdle, flight.absent p pending]
    rfl
  · intro d refreshed
    rw [refreshing_refresh] at refreshed
    obtain ⟨e, found, sorted, eq⟩ := mem_pick.1 refreshed
    rw [Bool.and_eq_true, Bool.not_eq_true'] at sorted
    refine ⟨e, ?_, ?_, ?_⟩
    · rw [State.refresh, lookup_dropIdle, found]
      simp [Option.filter, sorted.1]
    · rw [eq]
    · rw [eq]
  · rw [refreshing_refresh]
    exact nodup_pick _ _ _

/-- A task that is done, or that goes on to another of the same entry, without a change to the
cache. -/
theorem Flight.of_todo (flight : Flight s) {s' : State} (cache : s'.cache = s.cache)
    (pending : s'.pending = s.pending) (todo : s'.refreshing.Sublist s.refreshing) : Flight s' where
  absent := by rw [cache, pending]; exact flight.absent
  held := by
    intro d refreshed
    rw [cache]
    exact flight.held d (todo.subset refreshed)
  once := flight.once.sublist (todo.map _)

/-- A task that ends by changing the entry it is about. -/
theorem Flight.of_modify (flight : Flight s) {s' : State} {d : Due} {later : List Due}
    {change : Entry → Entry} (eq : s.refreshing = d :: later)
    (cache : s'.cache = modify s.cache d.ck change) (pending : s'.pending = s.pending)
    (todo : s'.refreshing = later) : Flight s' := by
  have nodup := flight.once
  rw [eq, List.map_cons, List.nodup_cons] at nodup
  refine ⟨?_, ?_, ?_⟩
  · intro p waiting
    rw [pending] at waiting
    have missing := flight.absent p waiting
    rw [cache, lookup_modify]
    split
    next same =>
      rw [← same, missing]
      rfl
    · exact missing
  · intro other refreshed
    rw [todo] at refreshed
    obtain ⟨e, found, same⟩ := flight.held other (by rw [eq]; exact .tail _ refreshed)
    have ne : other.ck ≠ d.ck := by
      intro same
      exact nodup.1 (same ▸ List.mem_map_of_mem refreshed)
    exact ⟨e, by rw [cache, lookup_modify, if_neg ne, found], same⟩
  · rw [todo]
    exact nodup.2

theorem refreshing_of_todo {task : Task} {rest : List Task} (todo : s.todo = task :: rest) :
    s.refreshing = task.unsettled.toList ++ rest.filterMap Task.unsettled := by
  rw [State.refreshing, todo, List.filterMap_cons]
  cases task.unsettled <;> rfl

theorem Flight.work (flight : Flight s) {task : Task} {rest : List Task}
    (todo : s.todo = task :: rest) (server : Server) (now : Instant) :
    Flight (s.work client task rest server now) := by
  have eq := refreshing_of_todo todo
  cases task with
  | release d | releaseOld d => exact flight.of_todo rfl rfl (by rw [eq]; exact .refl _)
  | attend d =>
    have same : (s.work client (.attend d) rest server now).refreshing = s.refreshing := by
      rw [eq, State.work]
      split
      · split <;> rfl
      · rfl
    refine flight.of_todo ?_ ?_ (same ▸ .refl _)
    · rw [State.work]
      split
      · split <;> rfl
      · rfl
    rw [State.work]
    split
    · split <;> rfl
    · rfl
  | reread d =>
    have same : (s.work client (.reread d) rest server now).refreshing = s.refreshing := by
      rw [eq]
      simp only [State.work, State.refreshing]
      split <;> rfl
    exact flight.of_todo rfl rfl (same ▸ .refl _)
  | record d res newValue =>
    refine flight.of_modify eq rfl rfl ?_
    simp only [State.work, State.refreshing]
    split <;> rfl
  | giveUp d => exact flight.of_modify eq rfl rfl rfl

theorem Flight.step {ev : Event} (flight : Flight s) (moved : step client s ev = some s') :
    Flight s' := by
  cases moves_of_step moved with
  | push idle => exact ⟨flight.absent, flight.held, flight.once⟩
  | refused => exact flight
  | hit idle resolved found => exact flight.hit idle found _ _ _ _
  | miss idle resolved missing => exact flight.miss missing _ _ _
  | answer pending open_ => exact flight.answer pending _
  | store pending answered => exact flight.store pending _ _ _
  | refresh done => exact flight.refresh _ _
  | work todo => exact flight.work todo _ _

end Horchestra.Vault
