import Horchestra.Vault.Threads

/-!
# The leases of dynamic credentials

A lease lives at the server from the moment it is issued, and the client lets go of it only by
having it revoked.  `no_lease_is_lost` says that in every run in which an issued credential arrives
whole and has the keys the secret lists, whenever neither thread is in a call, each lease that was
issued is the lease of an entry of the cache or was passed to the server to be revoked.

The invariant is `Kept`: the leases that are neither are in a task or in the answer of a first read.
`unknown_key_loses_lease` shows what the condition leaves out: the keys are looked up when the lease
is already there, and where one is missing the read fails and nobody knows the lease any more.
-/

namespace Horchestra.Vault

open Api Admission Foundations Checks Transitions
open Foundations.KernelMaps (Shuffle)

/-! ## When a credential is kept -/

def credentialKeys (csv : String) : Bool :=
  (csv.toList.splitOn ',').all fun item =>
    let key := trimSpace (String.ofList item)
    key == "" || key == credentialUsername || key == credentialPassword

/-- An answer with a lease reaches the client, tells it the lease, and has both values in it. -/
def whole (answer : Issue) : Bool :=
  match answer.issued with
  | none => true
  | some lease =>
    match answer.reply with
    | .ok creds =>
      lease != "" && creds.leaseID == lease && creds.username != "" && creds.password != ""
    | .error _ => false

/-- What the server issues in a read can be used for it. -/
def usable (client : Client) (server : Server) (spec : FetchSpec) (token : String) : Bool :=
  match credsRequest client server spec.store spec.dynamicRole token with
  | .ok (_, request) =>
    (server.creds request).issued.isNone || whole (server.creds request) && credentialKeys spec.keys
  | .error _ => true

def issuesUsable (client : Client) (s : State) : Event → Bool
  | .answer server => s.pending.all fun p => usable client server p.spec p.token
  | .work server _ =>
    match s.todo with
    | .reread d :: _ => usable client server d.spec d.token
    | _ => true
  | _ => true

theorem getElem?_credentialData (username password key : String) :
    (credentialData username password)[key]? =
      if key = credentialPassword then some password.toUTF8.toList
      else if key = credentialUsername then some username.toUTF8.toList else none := by
  rw [credentialData, Std.ExtTreeMap.getElem?_insert, Std.ExtTreeMap.getElem?_insert,
    Std.ExtTreeMap.getElem?_empty]
  simp only [Std.compare_eq_iff_eq, @eq_comm String key]

theorem filterKeys_credentialData (username password : String) {csv : String}
    (known : credentialKeys csv = true) :
    ∃ data, filterKeys (credentialData username password) csv = .ok data := by
  rw [filterKeys]
  split
  · exact ⟨_, rfl⟩
  rw [credentialKeys, List.all_eq_true] at known
  generalize csv.toList.splitOn ',' = items at known
  generalize (∅ : Agent.SecretData) = out
  induction items generalizing out with
  | nil => exact ⟨out, rfl⟩
  | cons item rest ih =>
    have first := known item (.head _)
    have others := ih fun later mem =>
      known later (.tail _ mem)
    simp only [Bool.or_eq_true, beq_iff_eq] at first
    rw [List.foldlM_cons]
    rcases first with (empty | eq) | eq
    · rw [if_pos empty]
      exact others out
    · rw [if_neg (by rw [eq]; decide), getElem?_credentialData, if_neg (by rw [eq]; decide),
        if_pos eq]
      exact others _
    · rw [if_neg (by rw [eq]; decide), getElem?_credentialData, if_pos eq]
      exact others _

theorem exists_credential (path : String) {keys : String} {creds : Creds}
    (username : creds.username ≠ "") (password : creds.password ≠ "") (lease : creds.leaseID ≠ "")
    (known : credentialKeys keys = true) :
    ∃ res, (credential path (.ok creds)).bind (projected keys) = .ok res ∧
      res.leaseID = creds.leaseID := by
  have complete : credential path (.ok creds) = .ok
      { data := credentialData creds.username creds.password
        wait := renewAfter (Foundations.Text.wrap64 (creds.leaseDuration * second))
        leaseID := creds.leaseID
        renewable := creds.renewable } := by
    simp [credential, Agent.located, Except.mapError, require, username, password, lease, bind,
      Except.bind, pure, Except.pure]
  obtain ⟨data, filtered⟩ := filterKeys_credentialData creds.username creds.password known
  refine ⟨⟨data, renewAfter (Foundations.Text.wrap64 (creds.leaseDuration * second)), creds.leaseID,
    creds.renewable⟩, ?_, rfl⟩
  rw [complete]
  show projected keys _ = _
  rw [projected, filtered]
  rfl

variable {server : Server} {spec : FetchSpec} {token ck : String}

theorem leaseID_of_usable {client : Client} {lease : String}
    (fine : usable client server spec token = true)
    (issued : (readSpec client server spec token).issued = some lease) :
    lease ≠ "" ∧ ∃ res, (readSpec client server spec token).result = .ok res ∧
    res.leaseID = lease := by
  rw [readSpec] at issued ⊢
  split at issued
  next dynamic =>
    rw [if_pos dynamic]
    rw [usable] at fine
    simp only [readDynamicRole] at issued ⊢
    cases opened : credsRequest client server spec.store spec.dynamicRole token with
    | error e =>
      rw [opened] at issued
      cases issued
    | ok pair =>
      obtain ⟨path, req⟩ := pair
      rw [opened] at fine issued
      simp only at fine issued ⊢
      rw [issued, Option.isNone_some, Bool.false_or, Bool.and_eq_true, whole, issued] at fine
      obtain ⟨complete, known⟩ := fine
      cases reply : (server.creds req).reply with
      | error e =>
        rw [reply] at complete
        cases complete
      | ok creds =>
        rw [reply] at complete
        simp only [Bool.and_eq_true, bne_iff_ne, beq_iff_eq] at complete
        obtain ⟨⟨⟨real, eq⟩, username⟩, password⟩ := complete
        obtain ⟨res, read, kept⟩ := exists_credential path username password (eq ▸ real) known
        exact ⟨real, res, read, kept.trans eq⟩
  · split at issued <;> cases issued

/-! ## Where the leases are -/

def State.caches (s : State) (lease : String) : Prop :=
  ∃ ck e, s.cache.lookup ck = some e ∧ e.leaseID = lease

/-- The lease of an entry of the cache, or one that was passed to the server to be revoked. -/
def State.accounts (s : State) (lease : String) : Prop :=
  s.caches lease ∨ ∃ done, (lease, done) ∈ s.revoked

def Task.lease : Task → Option String
  | .release d | .releaseOld d => some d.lease
  | .record _ res _ => some res.leaseID
  | .attend _ | .reread _ | .giveUp _ => none

/-- The lease is in the answer to a first read, or a task will see to it. -/
def State.carries (s : State) (lease : String) : Prop :=
  (∃ p res, s.pending = some p ∧ p.result = some res ∧ res.leaseID = lease) ∨
    ∃ task ∈ s.todo, task.lease = some lease

/-- The client still has the lease, or has let go of it. -/
def State.knows (s : State) (lease : String) : Prop := s.accounts lease ∨ s.carries lease

structure Kept (s : State) : Prop where
  real : ∀ pair ∈ s.issued, pair.1 ≠ ""
  known : ∀ pair ∈ s.issued, s.knows pair.1
  renewed : ∀ d res, Task.record d res false ∈ s.todo → res.leaseID = d.lease

section

variable {s s' : State} {lease : String}

theorem State.caches.knows (cached : s.caches lease) : s.knows lease := .inl (.inl cached)

theorem State.knows_of_task {task : Task} (eq : task ∈ s.todo) (owed : task.lease = some lease) :
    s.knows lease := .inr (.inr ⟨task, eq, owed⟩)

theorem State.knows_of_answer {p : Pending} {res : ReadResult} (pending : s.pending = some p)
    (answered : p.result = some res) :
    s.knows res.leaseID := .inr (.inl ⟨p, res, pending, answered, rfl⟩)

/-- What is known stays known when the cache, the list of revocations, the answer and the tasks each
pass on what they have. -/
theorem State.knows.mono (known : s.knows lease) (cached : s.caches lease → s'.knows lease)
    (revoked : s.revoked ⊆ s'.revoked)
    (answered : ∀ p res, s.pending = some p → p.result = some res → s'.knows res.leaseID)
    (tasks : ∀ task ∈ s.todo, task.lease = some lease → s'.knows lease) : s'.knows lease := by
  rcases known with (inCache | ⟨done, passed⟩) | (⟨p, res, pending, hit, rfl⟩ | ⟨task, eq, owed⟩)
  · exact cached inCache
  · exact .inl (.inr ⟨done, revoked passed⟩)
  · exact answered p res pending hit
  · exact tasks task eq owed

theorem State.caches.insert {ck : String} {e : Entry} (cached : s.caches lease)
    (cache : s'.cache = s.cache.insert ck e)
    (same : ∀ old, s.cache.lookup ck = some old → old.leaseID = e.leaseID) : s'.caches lease := by
  obtain ⟨key, old, found, rfl⟩ := cached
  by_cases eq : key = ck
  · subst eq
    exact ⟨key, e, by rw [cache, AList.lookup_insert], (same old found).symm⟩
  · exact ⟨key, old, by rw [cache, AList.lookup_insert_ne eq, found], rfl⟩

end

/-! ## Steps -/

variable {client : Client} {s s' : State}

theorem Kept.initial (p : Pushed) : Kept (.initial p) where
  real := by simp [State.initial]
  known := by simp [State.initial]
  renewed := by simp [State.initial]

variable {e : Entry}

theorem Kept.hit (kept : Kept s) (found : s.cache.lookup ck = some e) (app : String)
    (spec : FetchSpec) (token : String) (now : Instant) : Kept (s.hit app ck spec e token now) := by
  refine ⟨kept.real, ?_, kept.renewed⟩
  intro pair issued
  refine (kept.known pair issued).mono ?_ (List.Subset.refl _) ?_ ?_
  · intro cached
    refine (cached.insert rfl ?_).knows
    intro old hit
    rw [Option.mem_unique hit found]
    rfl
  · intro p res pending answered
    exact State.knows_of_answer pending answered
  · intro task eq owed
    exact State.knows_of_task eq owed

theorem Kept.miss (kept : Kept s) (idle : s.pending = none) (app ck : String) (spec : FetchSpec)
    (token : String) : Kept (s.miss app ck spec token) := by
  refine ⟨kept.real, ?_, kept.renewed⟩
  intro pair issued
  refine (kept.known pair issued).mono (fun cached => .inl (.inl cached)) (List.Subset.refl _) ?_ ?_
  · intro p res pending
    cases idle.symm.trans pending
  intro task eq owed
  exact State.knows_of_task eq owed

variable {pair : String × String}

theorem mem_issued {issued : Option String} {before : List (String × String)} :
    pair ∈ issued.toList.map (·, ck) ++ before ↔
      issued = some pair.1 ∧ pair.2 = ck ∨ pair ∈ before := by
  rw [List.mem_append, List.mem_map]
  refine or_congr_left ⟨?_, ?_⟩
  · rintro ⟨lease, hit, rfl⟩
    exact ⟨Option.mem_toList.1 hit, rfl⟩
  rintro ⟨hit, rfl⟩
  exact ⟨pair.1, Option.mem_toList.2 hit, rfl⟩

theorem Kept.known_of_read (kept : Kept s) (fine : usable client server spec token = true)
    (issued : s'.issued = (readSpec client server spec token).issued.toList.map (·, ck) ++ s.issued)
    (old : ∀ pair ∈ s.issued, s'.knows pair.1)
    (new : ∀ res, (readSpec client server spec token).result = .ok res → s'.knows res.leaseID) :
    ∀ pair ∈ s'.issued, pair.1 ≠ "" ∧ s'.knows pair.1 := by
  intro pair hit
  rw [issued, mem_issued] at hit
  rcases hit with ⟨now, -⟩ | pre
  · obtain ⟨real, res, read, eq⟩ := leaseID_of_usable fine now
    exact ⟨real, eq ▸ new res read⟩
  · exact ⟨kept.real pair pre, old pair pre⟩

variable {p : Pending}

theorem Kept.answer (kept : Kept s) (pending : s.pending = some p) (unanswered : p.result = none)
    (fine : usable client server p.spec p.token = true) : Kept (s.answer client p server) := by
  have all : ∀ pair ∈ (s.answer client p server).issued,
      pair.1 ≠ "" ∧ (s.answer client p server).knows pair.1 := by
    refine kept.known_of_read fine rfl ?_ ?_
    · intro pair pre
      refine (kept.known pair pre).mono (fun cached => .inl (.inl cached)) (List.Subset.refl _) ?_ ?_
      · intro q res asked answered
        cases pending.symm.trans asked
        cases unanswered.symm.trans answered
      intro task eq owed
      exact State.knows_of_task eq owed
    intro res read
    have arrived : (s.answer client p server).pending = some { p with result := some res } := by
      rw [State.answer, read]
    exact State.knows_of_answer arrived rfl
  exact ⟨fun pair hit => (all pair hit).1, fun pair hit => (all pair hit).2, kept.renewed⟩

variable {res : ReadResult}

theorem Kept.store (kept : Kept s) (flight : Flight s) (pending : s.pending = some p)
    (answered : p.result = some res) (now now' : Instant) : Kept (s.store p res now now') := by
  refine ⟨kept.real, ?_, kept.renewed⟩
  intro pair issued
  refine (kept.known pair issued).mono ?_ (List.Subset.refl _) ?_ ?_
  · intro cached
    refine (cached.insert rfl ?_).knows
    intro old hit
    rw [flight.absent p pending] at hit
    cases hit
  · intro q res' asked hit
    cases pending.symm.trans asked
    cases answered.symm.trans hit
    exact State.caches.knows ⟨p.ck, newEntry p res now now', AList.lookup_insert _, rfl⟩
  · intro task eq owed
    exact State.knows_of_task eq owed

theorem mem_evicted_of_idle (order : Shuffle String) {cache : Cache} {now : Instant}
    (found : cache.lookup ck = some e) (old : idle now e = true) (leased : e.leaseID ≠ "") :
    ∃ d ∈ evicted now order cache, d.lease = e.leaseID := by
  have picked : (⟨ck, e.spec, e.token, e.leaseID, e.renewable⟩ : Due) ∈
      pick order cache fun e => idle now e && decide (e.leaseID ≠ "") :=
    mem_pick.2 ⟨e, found, by simp [old, leased], rfl⟩
  exact ⟨_, List.mem_map_of_mem picked, rfl⟩

theorem Kept.refresh (kept : Kept s) (done : s.todo = []) (now : Instant) (order : Shuffle String) :
    Kept (s.refresh now order) := by
  refine ⟨kept.real, ?_, ?_⟩
  · intro pair issued
    refine (kept.known pair issued).mono ?_ (List.Subset.refl _) ?_ ?_
    · rintro ⟨ck, e, found, same⟩
      cases old : idle now e with
      | true =>
        obtain ⟨d, dropped, lease⟩ :=
          mem_evicted_of_idle order found old (same ▸ kept.real pair issued)
        have task : Task.release d ∈ (s.refresh now order).todo :=
          List.mem_append_left _ (List.mem_map_of_mem dropped)
        exact State.knows_of_task task (congrArg some (lease.trans same))
      | false =>
        have stays : (s.refresh now order).cache.lookup ck = some e := by
          rw [State.refresh, lookup_dropIdle, found]
          simp [Option.filter, old]
        exact State.caches.knows ⟨ck, e, stays, same⟩
    · intro p res pending answered
      exact State.knows_of_answer pending answered
    · intro task eq
      rw [done] at eq
      cases eq
  intro d res eq
  rcases List.mem_append.1 eq with release | attend
  · obtain ⟨_, -, other⟩ := List.mem_map.1 release
    cases other
  obtain ⟨_, -, other⟩ := List.mem_map.1 attend
  cases other

variable {task : Task} {rest : List Task}

/-- A step of the refreshing thread that changes neither the cache nor the first read: what its task
owes has to be passed on. -/
theorem Kept.known_of_task (kept : Kept s) (s' : State) (todo : s.todo = task :: rest)
    (cache : s'.cache = s.cache) (pending : s'.pending = s.pending)
    (revoked : s.revoked ⊆ s'.revoked) (later : rest ⊆ s'.todo)
    (owed : ∀ lease, task.lease = some lease → s'.knows lease) (issued : pair ∈ s.issued) :
    s'.knows pair.1 := by
  refine (kept.known pair issued).mono ?_ revoked ?_ ?_
  · rintro ⟨ck, e, found, same⟩
    exact State.caches.knows ⟨ck, e, by rw [cache, found], same⟩
  · intro p res asked answered
    exact State.knows_of_answer (pending.trans asked) answered
  · intro other eq debt
    rw [todo] at eq
    rcases List.mem_cons.1 eq with rfl | hit
    · exact owed pair.1 debt
    · exact State.knows_of_task (later hit) debt

variable {d : Due}

theorem Kept.released (kept : Kept s) (todo : s.todo = task :: rest)
    (debt : task.lease = some d.lease) (done : Bool) :
    Kept { s with todo := rest, revoked := (d.lease, done) :: s.revoked } := by
  have tail {other : Task} (eq : other ∈ rest) : other ∈ s.todo := by
    rw [todo]
    exact .tail _ eq
  refine ⟨kept.real, ?_, fun d res eq => kept.renewed d res (tail eq)⟩
  intro pair issued
  refine kept.known_of_task { s with todo := rest, revoked := (d.lease,
    done) :: s.revoked } todo rfl rfl
    (List.subset_cons_self _ _) (List.Subset.refl _) ?_ issued
  intro lease owed
  cases debt.symm.trans owed
  exact .inl (.inr ⟨done, .head _⟩)

theorem Kept.passed (kept : Kept s) {next : Task} (todo : s.todo = task :: rest)
    (nothing : task.lease = none)
    (renewed : ∀ d res, next = .record d res false → res.leaseID = d.lease) :
    Kept { s with todo := next :: rest } := by
  refine ⟨kept.real, ?_, ?_⟩
  · intro pair issued
    refine kept.known_of_task { s with todo := next :: rest } todo rfl rfl (List.Subset.refl _)
      (List.subset_cons_self _ _) ?_ issued
    intro lease owed
    rw [nothing] at owed
    cases owed
  intro d res eq
  rcases List.mem_cons.1 eq with same | later
  · exact renewed d res same.symm
  · exact kept.renewed d res (by rw [todo]; exact .tail _ later)

theorem Kept.attend (kept : Kept s) (todo : s.todo = .attend d :: rest) (server : Server)
    (now : Instant) : Kept (s.work client (.attend d) rest server now) := by
  have reread : Kept { s with todo := .reread d :: rest } :=
    kept.passed todo rfl (fun d res other => by cases other)
  rw [State.work]
  split
  · split
    · refine kept.passed todo rfl ?_
      rintro d' res ⟨⟩
      rfl
    · exact reread
  · exact reread

theorem Kept.reread (kept : Kept s) (todo : s.todo = .reread d :: rest)
    (fine : usable client server d.spec d.token = true) (now : Instant) :
    Kept (s.work client (.reread d) rest server now) := by
  generalize after : s.work client (.reread d) rest server now = s'
  simp only [State.work] at after
  have later : rest ⊆ s'.todo := by
    rw [← after]
    intro task eq
    split <;> exact .tail _ eq
  have all : ∀ pair ∈ s'.issued, pair.1 ≠ "" ∧ s'.knows pair.1 := by
    refine kept.known_of_read fine (by rw [← after]) ?_ ?_
    · intro pair pre
      refine kept.known_of_task s' todo (by rw [← after]) (by rw [← after]) (by rw [← after]; simp) later
        ?_ pre
      rintro _ ⟨⟩
    intro res read
    have task : Task.record d res true ∈ s'.todo := by
      rw [← after, read]
      exact .head _
    exact State.knows_of_task task rfl
  refine ⟨fun pair hit => (all pair hit).1, fun pair hit => (all pair hit).2, ?_⟩
  intro d' res eq
  refine kept.renewed d' res ?_
  rw [todo]
  rw [← after] at eq
  refine .tail _ ?_
  split at eq
  all_goals
    rcases List.mem_cons.1 eq with other | hit
    · cases other
    · exact hit

/-- The entry that was refreshed has the lease of the answer, and the one it had before is revoked
unless it is the same. -/
theorem Kept.record (kept : Kept s) (flight : Flight s) {newValue : Bool}
    (todo : s.todo = .record d res newValue :: rest) (server : Server) (now : Instant) :
    Kept (s.work client (.record d res newValue) rest server now) := by
  obtain ⟨e, found, lease, -⟩ := flight.held d (by rw [refreshing_of_todo todo]; exact .head _)
  generalize after : s.work client (.record d res newValue) rest server now = s'
  simp only [State.work] at after
  have later : rest ⊆ s'.todo := by
    rw [← after]
    intro task eq
    split
    · exact .tail _ eq
    · exact eq
  have cache : s'.cache = modify s.cache d.ck (·.settle res newValue d.spec.store now) := by
    rw [← after]
  have settled : s'.caches res.leaseID :=
    ⟨d.ck, e.settle res newValue d.spec.store now,
      by rw [cache, lookup_modify, if_pos rfl, found]; rfl,
      rfl⟩
  refine ⟨by rw [← after]; exact kept.real, ?_, ?_⟩
  · intro pair issued
    have pre : pair ∈ s.issued := by rwa [← after] at issued
    refine (kept.known pair pre).mono ?_ (by rw [← after]; exact List.Subset.refl _) ?_ ?_
    · rintro ⟨ck, old, hit, same⟩
      by_cases eq : ck = d.ck
      · -- the entry of the task: its lease is the one the task was found with
        subst eq
        cases found.symm.trans hit
        by_cases replaced : newValue = true ∧ d.lease ≠ "" ∧ d.lease ≠ res.leaseID
        · have task : Task.releaseOld d ∈ s'.todo := by
            rw [← after, if_pos replaced]
            exact .head _
          exact State.knows_of_task task (congrArg some (lease.symm.trans same))
        have real : d.lease ≠ "" := by
          rw [← lease, same]
          exact kept.real pair pre
        have kept_ : d.lease = res.leaseID := by
          by_contra other
          cases new : newValue with
          | true => exact replaced ⟨new, real, other⟩
          | false =>
            refine other (kept.renewed d res ?_).symm
            rw [todo, new]
            exact .head _
        rw [← same, lease, kept_]
        exact settled.knows
      refine State.caches.knows ⟨ck, old, ?_, same⟩
      rw [cache, lookup_modify, if_neg eq, hit]
    · intro p res' asked answered
      exact State.knows_of_answer (by rw [← after]; exact asked) answered
    · intro task eq debt
      rw [todo] at eq
      rcases List.mem_cons.1 eq with rfl | hit
      · have same : res.leaseID = pair.1 := Option.some.inj debt
        exact same ▸ settled.knows
      · exact State.knows_of_task (later hit) debt
  · intro d' res' eq
    refine kept.renewed d' res' ?_
    rw [todo]
    rw [← after] at eq
    refine .tail _ ?_
    split at eq
    · rcases List.mem_cons.1 eq with other | hit
      · cases other
      · exact hit
    · exact eq

theorem Kept.giveUp (kept : Kept s) (todo : s.todo = .giveUp d :: rest) (now : Instant) :
    Kept { s with cache := modify s.cache d.ck (·.fail now), todo := rest } := by
  refine ⟨kept.real, ?_, ?_⟩
  · intro pair issued
    refine (kept.known pair issued).mono ?_ (List.Subset.refl _) ?_ ?_
    · rintro ⟨ck, e, found, same⟩
      by_cases eq : ck = d.ck
      · refine State.caches.knows ⟨ck, e.fail now, ?_, same⟩
        rw [lookup_modify, if_pos eq, ← eq, found]
        rfl
      · exact State.caches.knows ⟨ck, e, by rw [lookup_modify, if_neg eq, found], same⟩
    · intro p res asked answered
      exact State.knows_of_answer asked answered
    · intro task eq debt
      rw [todo] at eq
      rcases List.mem_cons.1 eq with rfl | hit
      · cases debt
      · exact State.knows_of_task hit debt
  intro d' res eq
  exact kept.renewed d' res (by rw [todo]; exact .tail _ eq)

theorem Kept.step {ev : Event} (kept : Kept s) (flight : Flight s)
    (fine : issuesUsable client s ev = true) (moved : step client s ev = some s') : Kept s' := by
  cases moves_of_step moved with
  | push idle => exact ⟨kept.real, kept.known, kept.renewed⟩
  | refused => exact kept
  | hit idle resolved found => exact kept.hit found _ _ _ _
  | miss idle resolved missing => exact kept.miss idle _ _ _ _
  | answer pending unanswered =>
    rw [issuesUsable, pending, Option.all_some] at fine
    exact kept.answer pending unanswered fine
  | store pending answered => exact kept.store flight pending answered _ _
  | refresh done => exact kept.refresh done _ _
  | @work server now task rest todo =>
    rw [issuesUsable, todo] at fine
    cases task with
    | release d | releaseOld d => exact kept.released todo rfl _
    | attend d => exact kept.attend todo server now
    | reread d => exact kept.reread todo fine now
    | record d res newValue => exact kept.record flight todo server now
    | giveUp d => exact kept.giveUp todo now

/-- Neither thread is in a call. -/
def State.quiet (s : State) : Prop := s.pending = none ∧ s.todo = []

theorem no_lease_is_lost (client : Client) (pushed : Pushed) {s : State}
    (reached : Reachable (step client) (issuesUsable client) (.initial pushed) s)
    (quiet : s.quiet) :
    ∀ pair ∈ s.issued, s.accounts pair.1 := by
  have invariant : Flight s ∧ Kept s := by
    refine reached.invariant (fun s => Flight s ∧ Kept s) ⟨.initial pushed, .initial pushed⟩ ?_
    rintro s s' event ⟨flight, kept⟩ fine happened
    exact ⟨flight.step happened, kept.step flight fine happened⟩
  intro pair issued
  rcases invariant.2.known pair issued with accounted | ⟨p, res, pending, -⟩ | ⟨task, here, -⟩
  · exact accounted
  · cases quiet.1.symm.trans pending
  · rw [quiet.2] at here
    cases here

/-! ## Runs -/

def plainClient : Client where
  hasCert := true
  holdsCertificate := fun _ => true
  marshal := fun _ => []

def teamStore : SecretStore where
  metadata := { ns := "team", name := "vault" }
  spec := { server := "https://vault:8200" }

def teamPush : Pushed where
  stores := [teamStore]
  named := by decide
  distinct := by decide

/-- A secret that asks for a dynamic credential and lists the given keys of it. -/
def databaseSecret (keys : String) : Secret where
  metadata :=
    { ns := "team"
      name := "db"
      annotations := Std.ExtTreeMap.ofList [(annExternalSecretStore, "vault"),
        (annExternalSecretDynamicRole, "database/app"), (annExternalSecretKeys, keys)] }
  type := secretTypeVault

def issuing (lease : String) : Server where
  login := fun _ => .ok "session"
  values := fun _ => .ok none
  staticCreds := fun _ => .error "404"
  creds := fun _ =>
    { issued := some lease
      reply := .ok
        { leaseID := lease, leaseDuration := 3600, renewable := true, username := "v-" ++ lease
          password := "secret" } }
  renew := fun _ => .ok { leaseDuration := 3600, renewable := true }
  revoke := fun _ => .ok ()

/-- What is to be seen of a state from outside. -/
def State.view (s : State) : Bool × Nat × List (Option String) × List String × List String :=
  (s.pending.isNone, s.todo.length,
    s.cache.keys.map fun ck => (s.cache.lookup ck).map Entry.leaseID,
    s.issued.map Prod.fst, s.revoked.map Prod.fst)

theorem quiet_of_view {s : State} {rest : List (Option String) × List String × List String}
    (seen : s.view = (true, 0, rest)) : s.quiet := by
  simp only [State.view, Prod.mk.injEq, Option.isNone_iff_eq_none, List.length_eq_zero_iff] at seen
  exact ⟨seen.1, seen.2.1⟩

def firstFetch : List Event :=
  [.fetch "web" (databaseSecret "username") "" 0, .answer (issuing "lease-1"), .store 0 0]

/-- The condition is met: a credential that is issued, kept, found idle and released. -/
theorem no_lease_is_lost_first_fetch :
    ∃ s, run (step plainClient) (issuesUsable plainClient) (.initial teamPush)
        (firstFetch ++ [.refresh (20 * minute) .inOrder, .work (issuing "") 0]) = some s ∧
      s.issued.map Prod.fst = ["lease-1"] ∧ ∀ pair ∈ s.issued, s.accounts pair.1 := by
  obtain ⟨s, ran, seen⟩ := Option.map_eq_some_iff.1
    (show (run (step plainClient) (issuesUsable plainClient) (.initial teamPush)
        (firstFetch ++ [.refresh (20 * minute) .inOrder, .work (issuing "") 0])).map State.view =
      some (true, 0, [], ["lease-1"], ["lease-1"]) by decide +kernel)
  refine ⟨s, ran, ?_, no_lease_is_lost plainClient teamPush (.run .start ran) (quiet_of_view seen)⟩
  exact (Prod.mk.inj (Prod.mk.inj (Prod.mk.inj (Prod.mk.inj seen).2).2).2).1

/-- The secret lists a key the credential does not have, which admission lets through.  Each time
the application is converged a credential is issued, the read fails, and the lease is gone: two
fetches leave two database users behind. -/
theorem unknown_key_loses_lease :
    validateVaultSource (fun _ => true) (databaseSecret "user") = .ok () ∧
    ∃ s, run (step plainClient) (fun _ _ => true) (.initial teamPush)
        [.fetch "web" (databaseSecret "user") "" 0, .answer (issuing "lease-1"),
          .fetch "web" (databaseSecret "user") "" 0, .answer (issuing "lease-2")] = some s ∧
      s.quiet ∧ s.issued.map Prod.fst = ["lease-2", "lease-1"] ∧
      ¬ s.accounts "lease-1" ∧ ¬ s.accounts "lease-2" := by
  refine ⟨by decide +kernel, ?_⟩
  obtain ⟨s, ran, seen⟩ := Option.map_eq_some_iff.1
    (show (run (step plainClient) (fun _ _ => true) (.initial teamPush)
        [.fetch "web" (databaseSecret "user") "" 0, .answer (issuing "lease-1"),
          .fetch "web" (databaseSecret "user") "" 0, .answer (issuing "lease-2")]).map State.view =
      some (true, 0, [], ["lease-2", "lease-1"], []) by decide +kernel)
  have quiet := quiet_of_view seen
  simp only [State.view, Prod.mk.injEq, List.map_eq_nil_iff] at seen
  obtain ⟨-, -, empty, issued, unrevoked⟩ := seen
  have lost (lease : String) : ¬ s.accounts lease := by
    rintro (⟨ck, e, found, -⟩ | ⟨done, passed⟩)
    · have listed : ck ∈ s.cache.keys := AList.mem_keys.1 (AList.lookup_isSome.1 (by simp [found]))
      rw [empty] at listed
      cases listed
    · rw [unrevoked] at passed
      cases passed
  exact ⟨s, ran, quiet, issued, lost _, lost _⟩

end Horchestra.Vault
