import Horchestra.Vault.Leases

/-!
# Who is served a dynamic credential

A dynamic role makes a database user for each request, so that every consumer is an identity of its
own and revoking one touches nobody else.  The client keeps what it reads under the store and the
annotations of the secret, whoever asked.

`dynamic_credential_has_one_consumer` holds of the runs in which no key of a dynamic credential is
used by two applications: a lease is served to one application only, and what the refreshing thread
does to an entry is not seen by an application other than the one that uses it.
`one_credential_for_two_applications` is the run of two applications that mount the same secret.

The server is taken to issue each lease once and to tell it to the client.  Under that, every lease
the client has was issued for the key it is under (`Told`), and the applications behind a key are
the ones that asked for it (`Asked`).
-/

namespace Horchestra.Vault

open Api Admission Foundations.Transitions
open Foundations.KernelMaps (Shuffle)

/-! ## The condition, and what the server keeps to -/

/-- The key of a dynamic credential is used by one application. -/
def separateUse (s : State) : Event → Bool
  | .fetch app secret _ _ =>
    match resolveFetch secret s.pushed.stores with
    | .ok (spec, ck) => s.users.all fun u =>
      u.ck != ck || u.app == app || (!u.dynamic && spec.dynamicRole == "")
    | .error _ => true
  | _ => true

/-- In a read the server issues a lease it has not issued before, and it is the one it tells. -/
def genuineRead (client : Client) (server : Server) (s : State) (spec : FetchSpec)
    (token : String) : Bool :=
  match credsRequest client server spec.store spec.dynamicRole token with
  | .ok (_, request) =>
    let answer := server.creds request
    (match answer.reply with
      | .ok creds => creds.leaseID == "" || answer.issued == some creds.leaseID
      | .error _ => true) &&
    answer.issued.all fun lease => s.issued.all fun pair => pair.1 != lease
  | .error _ => true

def genuine (client : Client) (s : State) : Event → Bool
  | .answer server => s.pending.all fun p => genuineRead client server s p.spec p.token
  | .work server _ =>
    match s.todo with
    | .reread d :: _ => genuineRead client server s d.spec d.token
    | _ => true
  | _ => true

section

variable {client : Client} {server : Server} {s : State} {spec : FetchSpec} {token : String}

variable {res : ReadResult}

theorem leaseID_of_projected {keys : String} {shown : ReadResult}
    (projects : projected keys res = .ok shown) : shown.leaseID = res.leaseID := by
  rw [projected] at projects
  cases filtered : filterKeys res.data keys with
  | error e =>
    rw [filtered] at projects
    cases projects
  | ok data =>
    rw [filtered] at projects
    cases projects
    rfl

theorem leaseID_of_credential {path : String} {reply : Except String Creds}
    (read : credential path reply = .ok res) :
    ∃ creds, reply = .ok creds ∧ res.leaseID = creds.leaseID := by
  cases reply with
  | error e => cases read
  | ok creds =>
    refine ⟨creds, rfl, ?_⟩
    simp only [credential, Agent.located, Except.mapError, bind, Except.bind, pure,
      Except.pure] at read
    split at read
    · cases read
    split at read
    · cases read
    cases read
    rfl

variable {lease : String}

theorem dynamic_of_issued (issued : (readSpec client server spec token).issued = some lease) :
    spec.dynamicRole ≠ "" := by
  intro static
  rw [readSpec, if_neg (not_not.2 static)] at issued
  split at issued <;> cases issued

theorem issued_of_leaseID (fine : genuineRead client server s spec token = true)
    (read : (readSpec client server spec token).result = .ok res) (leased : res.leaseID ≠ "") :
    (readSpec client server spec token).issued = some res.leaseID := by
  rw [readSpec] at read ⊢
  split at read
  next dynamic =>
    rw [if_pos dynamic]
    rw [genuineRead] at fine
    simp only [readDynamicRole] at read ⊢
    cases opened : credsRequest client server spec.store spec.dynamicRole token with
    | error e =>
      rw [opened] at read
      cases read
    | ok pair =>
      obtain ⟨path, req⟩ := pair
      rw [opened] at fine read
      simp only at fine read ⊢
      obtain ⟨whole, credited, shown⟩ := Foundations.Checks.bind_eq_ok_iff.1 read
      have eq := leaseID_of_projected shown
      obtain ⟨creds, reply, told⟩ := leaseID_of_credential credited
      rw [reply, Bool.and_eq_true, Bool.or_eq_true, beq_iff_eq, beq_iff_eq] at fine
      rcases fine.1 with none_ | issued
      · exact absurd (eq.trans (told.trans none_)) leased
      · rw [issued, eq, told]
  split at read
  all_goals
    obtain ⟨_, -, shown⟩ := Foundations.Checks.bind_eq_ok_iff.1 read
    exact absurd (leaseID_of_projected shown) leased

theorem fresh_of_genuine (fine : genuineRead client server s spec token = true)
    (issued : (readSpec client server spec token).issued = some lease) :
    ∀ pair ∈ s.issued, pair.1 ≠ lease := by
  have dynamic := dynamic_of_issued issued
  rw [readSpec, if_pos dynamic] at issued
  rw [genuineRead] at fine
  simp only [readDynamicRole] at issued
  cases opened : credsRequest client server spec.store spec.dynamicRole token with
  | error e =>
    rw [opened] at issued
    cases issued
  | ok pair =>
    rw [opened] at fine issued
    simp only at fine issued
    rw [Bool.and_eq_true, issued, Option.all_some, List.all_eq_true] at fine
    intro pair mem
    simpa using fine.2 pair mem

end

/-! ## Leases are where they were issued for -/

/-- A lease, if there is one, was issued for the key. -/
def State.told (s : State) (lease ck : String) : Prop := lease ≠ "" → (lease, ck) ∈ s.issued

structure Told (s : State) : Prop where
  cached : ∀ ck e, s.cache.lookup ck = some e → s.told e.leaseID ck
  answered : ∀ p res, s.pending = some p → p.result = some res → s.told res.leaseID p.ck
  recorded : ∀ d res newValue, Task.record d res newValue ∈ s.todo → s.told res.leaseID d.ck
  served : ∀ x ∈ s.served, s.told x.leaseID x.ck
  once : ∀ pair ∈ s.issued, ∀ other ∈ s.issued, pair.1 = other.1 → pair.2 = other.2

variable {client : Client} {s s' : State}

theorem Told.initial (p : Pushed) : Told (.initial p) where
  cached := by
    intro ck e found
    cases found
  answered := by simp [State.initial]
  recorded := by simp [State.initial]
  served := by simp [State.initial]
  once := by simp [State.initial]

variable {ck token key app : String} {e : Entry}

theorem Told.hit (told : Told s) (idle : s.pending = none) (found : s.cache.lookup ck = some e)
    (app : String) (spec : FetchSpec) (token : String) (now : Instant) :
    Told (s.hit app ck spec e token now) where
  cached := by
    intro key old hit
    rcases lookup_insert_cases hit with ⟨rfl, rfl⟩ | pre
    · exact told.cached key e found
    · exact told.cached key old pre
  answered := by
    intro p res pending
    cases idle.symm.trans pending
  recorded := told.recorded
  served := by
    intro x mem
    rcases List.mem_cons.1 mem with rfl | pre
    · exact told.cached ck e found
    · exact told.served x pre
  once := told.once

variable {p : Pending} {res : ReadResult}

theorem Told.store (told : Told s) (pending : s.pending = some p) (answered : p.result = some res)
    (now now' : Instant) : Told (s.store p res now now') where
  cached := by
    intro key old hit
    rcases lookup_insert_cases hit with ⟨rfl, rfl⟩ | pre
    · exact told.answered p res pending answered
    · exact told.cached key old pre
  answered := by rintro _ _ ⟨⟩
  recorded := told.recorded
  served := by
    intro x mem
    rcases List.mem_cons.1 mem with rfl | pre
    · exact told.answered p res pending answered
    · exact told.served x pre
  once := told.once

variable {server : Server} {spec : FetchSpec}

/-- A read adds the lease it brings, for the key it is made for. -/
theorem State.told_of_read {lease : String}
    (issued : s'.issued = (readSpec client server spec token).issued.toList.map (·, ck) ++ s.issued)
    (pre : s.told lease key) : s'.told lease key := by
  intro leased
  rw [issued, mem_issued]
  exact .inr (pre leased)

theorem State.told_of_result (fine : genuineRead client server s spec token = true)
    (issued : s'.issued = (readSpec client server spec token).issued.toList.map (·, ck) ++ s.issued)
    (read : (readSpec client server spec token).result = .ok res) : s'.told res.leaseID ck := by
  intro leased
  rw [issued, mem_issued]
  exact .inl ⟨issued_of_leaseID fine read leased, rfl⟩

theorem Told.once_of_read (told : Told s) (fine : genuineRead client server s spec token = true)
    (issued : s'.issued = (readSpec client server spec token).issued.toList.map (·, ck) ++
    s.issued) :
    ∀ pair ∈ s'.issued, ∀ other ∈ s'.issued, pair.1 = other.1 → pair.2 = other.2 := by
  intro pair mem other member' eq
  rw [issued, mem_issued] at mem member'
  rcases mem with ⟨new, rfl⟩ | pre <;> rcases member' with ⟨new', hit⟩ | pre'
  · exact hit.symm
  · exact absurd eq.symm (fresh_of_genuine fine new other pre')
  · exact absurd eq (fresh_of_genuine fine new' pair pre)
  · exact told.once pair pre other pre' eq

theorem Told.answer (told : Told s) (fine : genuineRead client server s p.spec p.token = true) :
    Told (s.answer client p server) where
  cached := fun ck e found => State.told_of_read rfl (told.cached ck e found)
  answered := by
    intro q res pending answered
    rw [State.answer] at pending
    split at pending
    next result read =>
      cases pending
      cases answered
      exact State.told_of_result fine rfl read
    · cases pending
  recorded := fun d res newValue eq => State.told_of_read rfl (told.recorded d res newValue eq)
  served := fun x mem => State.told_of_read rfl (told.served x mem)
  once := told.once_of_read fine rfl

theorem Told.refresh (told : Told s) (now : Instant) (order : Shuffle String) :
    Told (s.refresh now order) where
  cached := by
    intro ck e found
    rw [State.refresh, lookup_dropIdle, Option.filter_eq_some_iff] at found
    exact told.cached ck e found.1
  answered := told.answered
  recorded := by
    intro d res newValue eq
    rcases List.mem_append.1 eq with release | attend
    · obtain ⟨_, -, other⟩ := List.mem_map.1 release
      cases other
    obtain ⟨_, -, other⟩ := List.mem_map.1 attend
    cases other
  served := told.served
  once := told.once

/-- A step of the refreshing thread that changes no more than the tasks and the list of revocations.
-/
theorem Told.of_tasks (told : Told s) {todo : List Task} {revoked : List (String × Bool)}
    (recorded : ∀ d res newValue, Task.record d res newValue ∈ todo → s.told res.leaseID d.ck) :
    Told { s with todo, revoked } :=
  ⟨told.cached, told.answered, recorded, told.served, told.once⟩

variable {task : Task} {rest : List Task}

theorem Told.work (told : Told s) (flight : Flight s) (todo : s.todo = task :: rest)
    (now : Instant)
    (fine : ∀ d, task = .reread d → genuineRead client server s d.spec d.token = true) :
    Told (s.work client task rest server now) := by
  have later : ∀ d res newValue, Task.record d res newValue ∈ rest → s.told res.leaseID d.ck := by
    intro d res newValue eq
    exact told.recorded d res newValue (by rw [todo]; exact .tail _ eq)
  have behind {next : Task} (new : ∀ d res newValue, next = .record d res newValue →
      s.told res.leaseID d.ck) : ∀ d res newValue, Task.record d res newValue ∈ next :: rest →
      s.told res.leaseID d.ck := by
    intro d res newValue eq
    rcases List.mem_cons.1 eq with same | hit
    · exact new d res newValue same.symm
    · exact later d res newValue hit
  cases task with
  | release d | releaseOld d => exact told.of_tasks later
  | attend d =>
    have held : s.told d.lease d.ck := by
      obtain ⟨e, found, lease, -⟩ := flight.held d (by rw [refreshing_of_todo todo]; exact .head _)
      exact lease ▸ told.cached d.ck e found
    rw [State.work]
    split
    · split
      · refine told.of_tasks (behind ?_)
        rintro d' res newValue ⟨⟩
        exact held
      · exact told.of_tasks (behind fun _ _ _ other => by cases other)
    · exact told.of_tasks (behind fun _ _ _ other => by cases other)
  | reread d =>
    have sound := fine d rfl
    refine ⟨fun ck e found => State.told_of_read rfl (told.cached ck e found),
      fun p res pending answered =>
        State.told_of_read rfl (told.answered p res pending answered), ?_,
      fun x mem => State.told_of_read rfl (told.served x mem), told.once_of_read sound rfl⟩
    intro d' res newValue eq
    simp only [State.work] at eq
    split at eq
    next result read =>
      rcases List.mem_cons.1 eq with same | hit
      · cases same
        exact State.told_of_result sound rfl read
      · exact State.told_of_read rfl (later d' res newValue hit)
    rcases List.mem_cons.1 eq with other | hit
    · cases other
    · exact State.told_of_read rfl (later d' res newValue hit)
  | record d res newValue =>
    refine ⟨?_, told.answered, ?_, told.served, told.once⟩
    · intro ck e found
      rw [State.work, lookup_modify] at found
      split at found
      next eq =>
        subst eq
        obtain ⟨old, -, rfl⟩ := Option.map_eq_some_iff.1 found
        exact told.recorded d res newValue (by rw [todo]; exact .head _)
      · exact told.cached ck e found
    intro d' res' newValue' eq
    simp only [State.work] at eq
    split at eq
    · exact behind (fun _ _ _ other => by cases other) d' res' newValue' eq
    · exact later d' res' newValue' eq
  | giveUp d =>
    refine ⟨?_, told.answered, later, told.served, told.once⟩
    intro ck e found
    rw [State.work, lookup_modify] at found
    split at found
    next eq =>
      subst eq
      obtain ⟨old, hit, rfl⟩ := Option.map_eq_some_iff.1 found
      exact told.cached d.ck old hit
    · exact told.cached ck e found

variable {event : Event}

theorem Told.step (told : Told s) (flight : Flight s) (fine : genuine client s event = true)
    (moved : step client s event = some s') : Told s' := by
  cases moves_of_step moved with
  | push idle => exact ⟨told.cached, told.answered, told.recorded, told.served, told.once⟩
  | refused => exact told
  | hit idle resolved found => exact told.hit idle found _ _ _ _
  | miss idle resolved missing =>
    refine ⟨told.cached, ?_, told.recorded, told.served, told.once⟩
    rintro p res ⟨⟩ answered
    cases answered
  | answer pending unanswered =>
    rw [genuine, pending, Option.all_some] at fine
    exact told.answer fine
  | store pending answered => exact told.store pending answered _ _
  | refresh done => exact told.refresh _ _
  | work todo =>
    rw [genuine, todo] at fine
    refine told.work flight todo _ ?_
    rintro d rfl
    exact fine

/-! ## Who asked -/

structure Asked (s : State) : Prop where
  served : ∀ x ∈ s.served, ∃ u ∈ s.users, u.ck = x.ck ∧ u.app = x.app
  pending : ∀ p, s.pending = some p → ⟨p.ck, p.app, decide (p.spec.dynamicRole ≠ "")⟩ ∈ s.users
  cached : ∀ ck e, s.cache.lookup ck = some e → ∃ u ∈ s.users, u.ck = ck ∧
    u.dynamic = decide (e.spec.dynamicRole ≠ "")
  issued : ∀ pair ∈ s.issued, ∃ u ∈ s.users, u.ck = pair.2 ∧ u.dynamic = true
  alone : ∀ u ∈ s.users, ∀ v ∈ s.users, u.ck = v.ck → u.dynamic = true → u.app = v.app

theorem Asked.initial (p : Pushed) : Asked (.initial p) where
  served := by simp [State.initial]
  pending := by simp [State.initial]
  cached := by
    intro ck e found
    cases found
  issued := by simp [State.initial]
  alone := by simp [State.initial]

variable {secret : Secret} {now : Instant}

/-- One more application asks for a key, alone if the credential is dynamic. -/
theorem alone_of_separateUse
    (alone : ∀ u ∈ s.users, ∀ v ∈ s.users, u.ck = v.ck → u.dynamic = true → u.app = v.app)
    (resolved : resolveFetch secret s.pushed.stores = .ok (spec, ck))
    (separate : separateUse s (.fetch app secret token now) = true) :
    ∀ u ∈ (⟨ck, app, decide (spec.dynamicRole ≠ "")⟩ : User) :: s.users,
      ∀ v ∈ (⟨ck, app, decide (spec.dynamicRole ≠ "")⟩ : User) :: s.users,
      u.ck = v.ck → u.dynamic = true → u.app = v.app := by
  rw [separateUse, resolved, List.all_eq_true] at separate
  simp only [Bool.or_eq_true, bne_iff_ne, beq_iff_eq, Bool.and_eq_true,
    Bool.not_eq_true'] at separate
  have ne : ∀ u ∈ s.users, u.ck = ck → u.dynamic = true ∨ spec.dynamicRole ≠ "" → u.app = app := by
    intro u mem eq dynamic
    rcases separate u mem with (other | known) | ⟨plain, static⟩
    · contradiction
    · exact known
    · rcases dynamic with yes | yes
      · rw [plain] at yes
        cases yes
      · contradiction
  intro u mem v member' eq dynamic
  rcases List.mem_cons.1 mem with rfl | pre <;> rcases List.mem_cons.1 member' with rfl | pre'
  · rfl
  · exact (ne v pre' eq.symm (.inr (of_decide_eq_true dynamic))).symm
  · exact ne u pre eq (.inl dynamic)
  · exact alone u pre v pre' eq dynamic

theorem Asked.hit (asked : Asked s) (idle : s.pending = none)
    (resolved : resolveFetch secret s.pushed.stores = .ok (spec, ck))
    (found : s.cache.lookup ck = some e)
    (separate : separateUse s (.fetch app secret token now) = true) :
    Asked (s.hit app ck spec e token now) where
  served := by
    intro x mem
    rcases List.mem_cons.1 mem with rfl | pre
    · exact ⟨_, .head _, rfl, rfl⟩
    obtain ⟨u, hit, eq⟩ := asked.served x pre
    exact ⟨u, .tail _ hit, eq⟩
  pending := by
    intro p pending
    cases idle.symm.trans pending
  cached := by
    intro key old hit
    rcases lookup_insert_cases hit with ⟨rfl, rfl⟩ | pre
    · obtain ⟨u, mem, eq⟩ := asked.cached key e found
      exact ⟨u, .tail _ mem, eq⟩
    obtain ⟨u, mem, eq⟩ := asked.cached key old pre
    exact ⟨u, .tail _ mem, eq⟩
  issued := by
    intro pair mem
    obtain ⟨u, hit, eq⟩ := asked.issued pair mem
    exact ⟨u, .tail _ hit, eq⟩
  alone := alone_of_separateUse asked.alone resolved separate

theorem Asked.miss (asked : Asked s)
    (resolved : resolveFetch secret s.pushed.stores = .ok (spec, ck))
    (separate : separateUse s (.fetch app secret token now) = true) :
    Asked (s.miss app ck spec token) where
  served := by
    intro x mem
    obtain ⟨u, hit, eq⟩ := asked.served x mem
    exact ⟨u, .tail _ hit, eq⟩
  pending := by
    rintro p ⟨⟩
    exact .head _
  cached := by
    intro key old hit
    obtain ⟨u, mem, eq⟩ := asked.cached key old hit
    exact ⟨u, .tail _ mem, eq⟩
  issued := by
    intro pair mem
    obtain ⟨u, hit, eq⟩ := asked.issued pair mem
    exact ⟨u, .tail _ hit, eq⟩
  alone := alone_of_separateUse asked.alone resolved separate

theorem Asked.issued_of_read (asked : Asked s)
    (wanted : ∃ u ∈ s.users, u.ck = ck ∧ u.dynamic = decide (spec.dynamicRole ≠ "")) :
    ∀ pair ∈ (readSpec client server spec token).issued.toList.map (·, ck) ++ s.issued,
      ∃ u ∈ s.users, u.ck = pair.2 ∧ u.dynamic = true := by
  intro pair mem
  rcases mem_issued.1 mem with ⟨new, eq⟩ | pre
  · obtain ⟨u, hit, key, dynamic⟩ := wanted
    exact ⟨u, hit, key.trans eq.symm, dynamic.trans (decide_eq_true (dynamic_of_issued new))⟩
  · exact asked.issued pair pre

theorem Asked.answer (asked : Asked s) (pending : s.pending = some p) (server : Server) :
    Asked (s.answer client p server) where
  served := asked.served
  pending := by
    intro q still
    rw [State.answer] at still
    split at still
    · cases still
      exact asked.pending p pending
    · cases still
  cached := asked.cached
  issued := asked.issued_of_read ⟨_, asked.pending p pending, rfl, rfl⟩
  alone := asked.alone

theorem Asked.store (asked : Asked s) (pending : s.pending = some p) (res : ReadResult)
    (now now' : Instant) : Asked (s.store p res now now') where
  served := by
    intro x mem
    rcases List.mem_cons.1 mem with rfl | pre
    · exact ⟨_, asked.pending p pending, rfl, rfl⟩
    · exact asked.served x pre
  pending := by rintro _ ⟨⟩
  cached := by
    intro key old hit
    rcases lookup_insert_cases hit with ⟨rfl, rfl⟩ | pre
    · exact ⟨_, asked.pending p pending, rfl, rfl⟩
    · exact asked.cached key old pre
  issued := asked.issued
  alone := asked.alone

theorem Asked.modify (asked : Asked s) (change : Entry → Entry)
    (same : ∀ e, (change e).spec = e.spec)
    (found : (modify s.cache key change).lookup ck = some e) :
    ∃ u ∈ s.users, u.ck = ck ∧ u.dynamic = decide (e.spec.dynamicRole ≠ "") := by
  rw [lookup_modify] at found
  split at found
  next eq =>
    subst eq
    obtain ⟨old, hit, rfl⟩ := Option.map_eq_some_iff.1 found
    rw [same]
    exact asked.cached ck old hit
  · exact asked.cached ck e found

theorem Asked.work (asked : Asked s) (flight : Flight s) (todo : s.todo = task :: rest)
    (server : Server) (now : Instant) : Asked (s.work client task rest server now) := by
  cases task with
  | release d => exact ⟨asked.served, asked.pending, asked.cached, asked.issued, asked.alone⟩
  | releaseOld d => exact ⟨asked.served, asked.pending, asked.cached, asked.issued, asked.alone⟩
  | attend d =>
    rw [State.work]
    split
    · split <;> exact ⟨asked.served, asked.pending, asked.cached, asked.issued, asked.alone⟩
    · exact ⟨asked.served, asked.pending, asked.cached, asked.issued, asked.alone⟩
  | reread d =>
    obtain ⟨e, found, -, eq⟩ := flight.held d (by rw [refreshing_of_todo todo]; exact .head _)
    have wanted := asked.cached d.ck e found
    rw [eq] at wanted
    exact ⟨asked.served, asked.pending, asked.cached, asked.issued_of_read wanted, asked.alone⟩
  | record d res newValue =>
    exact ⟨asked.served, asked.pending, fun ck e found =>
      asked.modify (·.settle res newValue d.spec.store now) (fun _ => rfl) found, asked.issued,
      asked.alone⟩
  | giveUp d =>
    exact ⟨asked.served, asked.pending, fun ck e found =>
      asked.modify (·.fail now) (fun _ => rfl) found, asked.issued, asked.alone⟩

theorem Asked.step (asked : Asked s) (flight : Flight s) (separate : separateUse s event = true)
    (moved : step client s event = some s') : Asked s' := by
  cases moves_of_step moved with
  | push idle => exact ⟨asked.served, asked.pending, asked.cached, asked.issued, asked.alone⟩
  | refused => exact asked
  | hit idle resolved found => exact asked.hit idle resolved found separate
  | miss idle resolved missing => exact asked.miss resolved separate
  | answer pending unanswered => exact asked.answer pending _
  | store pending answered => exact asked.store pending _ _ _
  | refresh done =>
    refine ⟨asked.served, asked.pending, ?_, asked.issued, asked.alone⟩
    intro ck e found
    rw [State.refresh, lookup_dropIdle, Option.filter_eq_some_iff] at found
    exact asked.cached ck e found.1
  | work todo => exact asked.work flight todo _ _

/-! ## One consumer -/

/-- The keys whose entries a step of the refreshing thread attends to: those it finds idle, or the
one of its task. -/
def touches (s : State) : Event → String → Prop
  | .refresh now _, ck => ∃ e, s.cache.lookup ck = some e ∧ idle now e = true
  | .work _ _, ck => ∃ task rest d, s.todo = task :: rest ∧ task.unsettled = some d ∧ d.ck = ck
  | _, _ => False

def Event.refreshes : Event → Bool
  | .refresh _ _ | .work _ _ => true
  | _ => false

theorem lookup_of_untouched (refreshes : event.refreshes = true)
    (moved : step client s event = some s') (untouched : ¬ touches s event ck) :
    s'.cache.lookup ck = s.cache.lookup ck := by
  cases moves_of_step moved with
  | push | refused | hit | miss | answer | store => cases refreshes
  | refresh done =>
    rw [State.refresh, lookup_dropIdle]
    cases found : s.cache.lookup ck with
    | none => rfl
    | some e =>
      have fresh : idle _ e ≠ true := fun old => untouched ⟨e, found, old⟩
      simp [Option.filter, fresh]
  | @work server now task rest todo =>
    have ne {d : Due} (eq : task.unsettled = some d) (change : Entry → Entry) :
        (modify s.cache d.ck change).lookup ck = s.cache.lookup ck := by
      rw [lookup_modify, if_neg]
      rintro rfl
      exact untouched ⟨task, rest, d, todo, eq, rfl⟩
    cases task with
    | release d | releaseOld d | reread d => rfl
    | attend d =>
      rw [State.work]
      split
      · split <;> rfl
      · rfl
    | record d res newValue | giveUp d => exact ne rfl _

theorem dynamic_credential_has_one_consumer (client : Client) (pushed : Pushed) {s : State}
    (reached : Reachable (step client) (fun s event => separateUse s event && genuine client s event)
      (.initial pushed) s) :
    (∀ x ∈ s.served, ∀ y ∈ s.served, x.leaseID ≠ "" → x.leaseID = y.leaseID → x.app = y.app) ∧
      ∀ event s', event.refreshes = true → step client s event = some s' →
        (∀ ck, ¬ touches s event ck → s'.cache.lookup ck = s.cache.lookup ck) ∧
          ∀ u ∈ s.users, u.dynamic = true → touches s event u.ck →
            ∀ v ∈ s.users, v.app ≠ u.app → v.ck ≠ u.ck := by
  have invariant : Flight s ∧ Told s ∧ Asked s := by
    refine reached.invariant (fun s => Flight s ∧ Told s ∧ Asked s)
      ⟨.initial pushed, .initial pushed, .initial pushed⟩ ?_
    rintro s s' event ⟨flight, told, asked⟩ fine happened
    rw [Bool.and_eq_true] at fine
    exact ⟨flight.step happened, told.step flight fine.2 happened,
      asked.step flight fine.1 happened⟩
  obtain ⟨-, told, asked⟩ := invariant
  refine ⟨?_, ?_⟩
  · intro x served y served' leased same
    have issued := told.served x served leased
    have issued' := told.served y served' (same ▸ leased)
    have key : x.ck = y.ck := told.once _ issued _ issued' same
    obtain ⟨u, asker, atKey, dynamic⟩ := asked.issued _ issued
    obtain ⟨v, asker', atX, isX⟩ := asked.served x served
    obtain ⟨w, asker'', atY, isY⟩ := asked.served y served'
    have first := asked.alone u asker v asker' (atKey.trans atX.symm) dynamic
    have second := asked.alone u asker w asker'' (atKey.trans (key.trans atY.symm)) dynamic
    rw [← isX, ← isY, ← first, ← second]
  intro event s' refreshes happened
  refine ⟨fun ck untouched => lookup_of_untouched refreshes happened untouched, ?_⟩
  intro u member dynamic _ v member' other same
  exact other (asked.alone u member v member' same.symm dynamic).symm

/-- A secret that asks for a credential of another role. -/
def reportsSecret : Secret :=
  { databaseSecret "username" with
    metadata :=
      { (databaseSecret "username").metadata with
        name := "reports"
        annotations := (databaseSecret "username").metadata.annotations.insert
          annExternalSecretDynamicRole "database/reports" } }

/-- Two applications with a credential each, one of which is served again. -/
def twoConsumers : List Event :=
  firstFetch ++ [.fetch "api" reportsSecret "" 0, .answer (issuing "lease-2"), .store 0 0,
    .fetch "web" (databaseSecret "username") "" 0]

/-- The condition is met by applications that have a secret to themselves. -/
theorem dynamic_credential_has_one_consumer_web :
    ∃ s, run (step plainClient) (fun s event => separateUse s event && genuine plainClient s event)
        (.initial teamPush) twoConsumers = some s ∧
      s.served.map (fun x => (x.app, x.leaseID)) =
        [("web", "lease-1"), ("api", "lease-2"), ("web", "lease-1")] ∧
      ∀ x ∈ s.served, ∀ y ∈ s.served, x.leaseID ≠ "" → x.leaseID = y.leaseID → x.app = y.app := by
  obtain ⟨s, ran, seen⟩ := Option.map_eq_some_iff.1
    (show (run (step plainClient) (fun s event => separateUse s event && genuine plainClient s event)
        (.initial teamPush) twoConsumers).map (fun s => s.served.map fun x => (x.app, x.leaseID)) =
      some [("web", "lease-1"), ("api", "lease-2"), ("web", "lease-1")] by decide +kernel)
  exact ⟨s, ran, seen,
    (dynamic_credential_has_one_consumer plainClient teamPush (.run .start ran)).1⟩

/-- Two applications mount the secret: the second is served the lease, the name and the password
that were issued for the first. -/
theorem one_credential_for_two_applications :
    ∃ s, run (step plainClient) (genuine plainClient) (.initial teamPush)
        (firstFetch ++ [.fetch "api" (databaseSecret "username") "" 0]) = some s ∧
      s.served.map (fun x => (x.app, x.leaseID)) = [("api", "lease-1"), ("web", "lease-1")] :=
  exists_run (by decide +kernel)

end Horchestra.Vault
