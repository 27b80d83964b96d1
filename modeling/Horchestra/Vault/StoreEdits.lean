import Horchestra.Vault.Leases

/-!
# Values and the stores they were read with

The specification of a store says which server a value comes from, where on it, as whom the client
logs in and which roots it trusts.  An operator can edit it while values read with the old one are
kept.

`values_follow_their_store` says that in every run in which no push brings another specification of
a store while a value read with the old one is kept, what a fetch returns was read, or last
refreshed, with the specification of the push it was made with, and what is refreshed is refreshed
with it too. `edited_namespace_serves_old_value` is the run in which an operator moves a store to
another namespace of the server: the server and the mount are in the key a value is kept under, the
  rest is not.
-/

namespace Horchestra.Vault

open Api Admission Foundations Text Transitions
open Foundations.KernelMaps (Shuffle)

/-! ## What decides an answer -/

/-- A specification without the field that only documents it. -/
def deciding (spec : SecretStoreSpec) : SecretStoreSpec := { spec with provider := "" }

def sameName (a b : SecretStore) : Bool :=
  a.metadata.ns == b.metadata.ns && a.metadata.name == b.metadata.name

/-- A push says of a store what the values read from it were read with. -/
def keepsStores (s : State) : Event → Bool
  | .push p => s.cache.keys.all fun ck => (s.cache.lookup ck).all fun e => p.stores.all fun store =>
    !sameName store e.spec.store || deciding store.spec == deciding e.spec.store.spec
  | _ => true

/-! ## Keys name their store -/

theorem toList_cacheKey (spec : FetchSpec) : ∃ rest,
    (cacheKey spec).toList = spec.store.metadata.ns.toList ++ '\x00' ::
      (spec.store.metadata.name.toList ++ '\x00' :: rest) := by
  refine ⟨("\x00".intercalate [spec.store.spec.server, spec.store.spec.mount, spec.path,
    spec.staticRole, spec.dynamicRole, spec.keys]).toList, ?_⟩
  simp [cacheKey]

structure Named (store : SecretStore) : Prop where
  ns : isDNS1123Label store.metadata.ns = true
  name : isDNS1123Subdomain store.metadata.name = true

theorem Named.nul_notMem {st : SecretStore} (named : Named st) :
    '\x00' ∉ st.metadata.ns.toList ∧ '\x00' ∉ st.metadata.name.toList := by
  have label := named.ns
  simp only [isDNS1123Label, isDNS1123, Bool.and_eq_true] at label
  exact ⟨notMem_of_isDNSLabel label.1 (by decide),
    notMem_of_isDNS1123Subdomain named.name (by decide) (by decide)⟩

theorem sameName_of_cacheKey {a b : FetchSpec} (namedA : Named a.store) (namedB : Named b.store)
    (eq : cacheKey a = cacheKey b) : sameName a.store b.store = true := by
  obtain ⟨restA, keyA⟩ := toList_cacheKey a
  obtain ⟨restB, keyB⟩ := toList_cacheKey b
  have whole := keyA.symm.trans ((congrArg String.toList eq).trans keyB)
  obtain ⟨ns, others⟩ := append_separator_inj namedA.nul_notMem.1 namedB.nul_notMem.1 whole
  obtain ⟨name, -⟩ := append_separator_inj namedA.nul_notMem.2 namedB.nul_notMem.2 others
  simp [sameName, String.toList_inj.1 ns, String.toList_inj.1 name]

theorem resolveFetch_eq_ok {sec : Secret} {stores : List SecretStore} {spec : FetchSpec}
    {ck : String}
    (resolved : resolveFetch sec stores = .ok (spec, ck)) :
    spec.store ∈ stores ∧ ck = cacheKey spec := by
  simp only [resolveFetch] at resolved
  split at resolved
  · cases resolved
  split at resolved
  · cases resolved
  split at resolved
  · cases resolved
  split at resolved
  next st found =>
    cases resolved
    exact ⟨List.mem_of_find?_eq_some found, rfl⟩
  · cases resolved

/-! ## Values agree with the push -/

/-- The push says of the store what this one says. -/
def Pushed.agrees (p : Pushed) (store : SecretStore) : Prop :=
  ∀ other ∈ p.stores, sameName other store = true → deciding other.spec = deciding store.spec

theorem Pushed.agrees_of_mem (p : Pushed) {store : SecretStore} (mem : store ∈ p.stores) :
    p.agrees store := by
  intro other member' eq
  simp only [sameName, Bool.and_eq_true, beq_iff_eq] at eq
  rw [List.inj_on_of_nodup_map p.distinct member' mem (Prod.ext eq.1 eq.2)]

/-- An entry is under the key of what it was read with, and was last refreshed with the store it was
read with, of which the push says the same. -/
structure Entry.Sourced (pushed : Pushed) (ck : String) (e : Entry) : Prop where
  named : Named e.spec.store
  key : ck = cacheKey e.spec
  source : e.source = e.spec.store
  agrees : pushed.agrees e.spec.store

structure Sourced (s : State) : Prop where
  cached : ∀ ck e, s.cache.lookup ck = some e → e.Sourced s.pushed ck
  pending : ∀ p, s.pending = some p → p.spec.store ∈ s.pushed.stores ∧ p.ck = cacheKey p.spec
  served : ∀ x ∈ s.served, deciding x.source.spec = deciding x.store.spec

variable {client : Client} {s s' : State}

theorem Sourced.initial (p : Pushed) : Sourced (.initial p) where
  cached := by
    intro ck e found
    cases found
  pending := by simp [State.initial]
  served := by simp [State.initial]

theorem Pushed.named_of_mem (p : Pushed) {store : SecretStore}
    (mem : store ∈ p.stores) : Named store :=
  ⟨(p.named store mem).1, (p.named store mem).2⟩

theorem Sourced.push (sourced : Sourced s) (idle : s.pending = none) {p : Pushed}
    (keeps : keepsStores s (.push p) = true) : Sourced { s with pushed := p } where
  cached := by
    intro ck e found
    have entry := sourced.cached ck e found
    refine ⟨entry.named, entry.key, entry.source, ?_⟩
    have listed : ck ∈ s.cache.keys := AList.mem_keys.1 (AList.lookup_isSome.1 (by simp [found]))
    rw [keepsStores, List.all_eq_true] at keeps
    have each := keeps ck listed
    rw [found, Option.all_some, List.all_eq_true] at each
    intro other mem eq
    simpa [eq] using each other mem
  pending := by
    intro p pending
    cases idle.symm.trans pending
  served := sourced.served

theorem Sourced.hit (sourced : Sourced s) (idle : s.pending = none) {sec : Secret}
    {spec : FetchSpec} {ck : String} {e : Entry}
    (resolved : resolveFetch sec s.pushed.stores = .ok (spec, ck))
    (found : s.cache.lookup ck = some e) (app token : String) (now : Instant) :
    Sourced (s.hit app ck spec e token now) where
  cached := by
    intro key old hit
    rcases lookup_insert_cases hit with ⟨rfl, rfl⟩ | pre
    · have entry := sourced.cached key e found
      exact ⟨entry.named, entry.key, entry.source, entry.agrees⟩
    · exact sourced.cached key old pre
  pending := by
    intro p pending
    cases idle.symm.trans pending
  served := by
    intro x mem
    rcases List.mem_cons.1 mem with rfl | pre
    · -- the key names the store, so the entry is of the store the push has
      have entry := sourced.cached ck e found
      obtain ⟨pushed, key⟩ := resolveFetch_eq_ok resolved
      have eq : sameName spec.store e.spec.store = true :=
        sameName_of_cacheKey (s.pushed.named_of_mem pushed) entry.named (key.symm.trans entry.key)
      show deciding e.source.spec = deciding spec.store.spec
      rw [entry.source]
      exact (entry.agrees spec.store pushed eq).symm
    · exact sourced.served x pre

theorem Sourced.store (sourced : Sourced s) {p : Pending} (pending : s.pending = some p)
    (res : ReadResult) (now now' : Instant) : Sourced (s.store p res now now') where
  cached := by
    intro key old hit
    rcases lookup_insert_cases hit with ⟨rfl, rfl⟩ | pre
    · obtain ⟨pushed, key⟩ := sourced.pending p pending
      exact ⟨s.pushed.named_of_mem pushed, key, rfl, s.pushed.agrees_of_mem pushed⟩
    · exact sourced.cached key old pre
  pending := by rintro _ ⟨⟩
  served := by
    intro x mem
    rcases List.mem_cons.1 mem with rfl | pre
    · rfl
    · exact sourced.served x pre

theorem Sourced.work (sourced : Sourced s) (flight : Flight s) {task : Task} {rest : List Task}
    (todo : s.todo = task :: rest) (server : Server) (now : Instant) :
    Sourced (s.work client task rest server now) := by
  cases task with
  | release d | releaseOld d | reread d => exact ⟨sourced.cached, sourced.pending, sourced.served⟩
  | attend d =>
    rw [State.work]
    split
    · split <;> exact ⟨sourced.cached, sourced.pending, sourced.served⟩
    · exact ⟨sourced.cached, sourced.pending, sourced.served⟩
  | record d res newValue =>
    obtain ⟨held, found, -, spec⟩ := flight.held d (by rw [refreshing_of_todo todo]; exact .head _)
    refine ⟨?_, sourced.pending, sourced.served⟩
    intro ck e hit
    rw [State.work, lookup_modify] at hit
    split at hit
    next eq =>
      subst eq
      obtain ⟨old, pre, rfl⟩ := Option.map_eq_some_iff.1 hit
      cases found.symm.trans pre
      have entry := sourced.cached d.ck held found
      exact ⟨entry.named, entry.key, congrArg FetchSpec.store spec.symm, entry.agrees⟩
    · exact sourced.cached ck e hit
  | giveUp d =>
    refine ⟨?_, sourced.pending, sourced.served⟩
    intro ck e hit
    rw [State.work, lookup_modify] at hit
    split at hit
    next eq =>
      subst eq
      obtain ⟨old, pre, rfl⟩ := Option.map_eq_some_iff.1 hit
      have entry := sourced.cached d.ck old pre
      exact ⟨entry.named, entry.key, entry.source, entry.agrees⟩
    · exact sourced.cached ck e hit

theorem Sourced.step {ev : Event} (sourced : Sourced s) (flight : Flight s)
    (keeps : keepsStores s ev = true) (moved : step client s ev = some s') : Sourced s' := by
  cases moves_of_step moved with
  | push idle => exact sourced.push idle keeps
  | refused => exact sourced
  | hit idle resolved found => exact sourced.hit idle resolved found _ _ _
  | miss idle resolved missing =>
    refine ⟨sourced.cached, ?_, sourced.served⟩
    rintro p ⟨⟩
    exact resolveFetch_eq_ok resolved
  | @answer server p pending unanswered =>
    refine ⟨sourced.cached, ?_, sourced.served⟩
    intro q still
    rw [State.answer] at still
    split at still
    · cases still
      exact sourced.pending p pending
    · cases still
  | store pending answered => exact sourced.store pending _ _ _
  | refresh done =>
    refine ⟨?_, sourced.pending, sourced.served⟩
    intro ck e found
    rw [State.refresh, lookup_dropIdle, Option.filter_eq_some_iff] at found
    exact sourced.cached ck e found.1
  | work todo => exact sourced.work flight todo _ _

theorem values_follow_their_store (client : Client) (pushed : Pushed) {s : State}
    (reached : Reachable (step client) keepsStores (.initial pushed) s) :
    (∀ x ∈ s.served, deciding x.source.spec = deciding x.store.spec) ∧
      ∀ d ∈ s.refreshing, ∀ store ∈ s.pushed.stores, sameName store d.spec.store = true →
        deciding store.spec = deciding d.spec.store.spec := by
  have invariant : Flight s ∧ Sourced s := by
    refine reached.invariant (fun s => Flight s ∧ Sourced s) ⟨.initial pushed, .initial pushed⟩ ?_
    rintro s s' event ⟨flight, sourced⟩ keeps happened
    exact ⟨flight.step happened, sourced.step flight keeps happened⟩
  obtain ⟨flight, sourced⟩ := invariant
  refine ⟨sourced.served, ?_⟩
  intro d refreshed
  obtain ⟨e, found, -, same⟩ := flight.held d refreshed
  rw [← same]
  exact (sourced.cached d.ck e found).agrees

/-! ## An edited store -/

/-- The store of the team in some namespace of the server. -/
def storeIn (vaultNamespace : String) : SecretStore :=
  { teamStore with spec := { teamStore.spec with vaultNamespace } }

def pushIn (vaultNamespace : String) : Pushed where
  stores := [storeIn vaultNamespace]
  named := by
    intro store member
    rw [List.mem_singleton.1 member]
    exact teamPush.named teamStore (.head _)
  distinct := List.nodup_singleton _

/-- The namespaces of the server a state shows: those values were read in and should be read in, and
those in which they are being refreshed. -/
def State.namespaces (s : State) : List (String × String) × List String :=
  (s.served.map fun x => (x.source.spec.vaultNamespace, x.store.spec.vaultNamespace),
    s.refreshing.map fun d => d.spec.store.spec.vaultNamespace)

/-- The run of a push of the given namespace, a fetch and a look at what is due. -/
def afterPush (vaultNamespace : String) : List Event :=
  firstFetch ++ [.push (pushIn vaultNamespace),
    .fetch "web" (databaseSecret "username") "" (35 * minute), .refresh (41 * minute) .inOrder]

/-- The condition is met when the push says what it said before. -/
theorem values_follow_their_store_unedited :
    ∃ s, run (step plainClient) keepsStores (.initial (pushIn "old")) (afterPush "old") = some s ∧
      s.namespaces = ([("old", "old"), ("old", "old")], ["old"]) ∧
      ∀ x ∈ s.served, deciding x.source.spec = deciding x.store.spec := by
  obtain ⟨s, ran, seen⟩ := Option.map_eq_some_iff.1
    (show (run (step plainClient) keepsStores (.initial (pushIn "old")) (afterPush "old")).map
        State.namespaces = some ([("old", "old"), ("old", "old")], ["old"]) by decide +kernel)
  exact ⟨s, ran, seen, (values_follow_their_store plainClient (pushIn "old") (.run .start ran)).1⟩

/-- An operator moves the store to another namespace of the server, and the new specification is
pushed: the next fetch is served what was read in the old one, and the value is refreshed with the
old one when it is due. -/
theorem edited_namespace_serves_old_value :
    ∃ s, run (step plainClient) (fun _ _ => true) (.initial (pushIn "old"))
    (afterPush "new") = some s ∧
      s.namespaces = ([("old", "new"), ("old", "old")], ["old"]) ∧
        s.pushed.stores = [storeIn "new"] :=
  exists_run (by decide +kernel)

end Horchestra.Vault
