import Horchestra.Service.Requests

/-!
# What becomes of a requested deletion

A deletion of an object that something still holds stamps the object and leaves it in the store
until its finalizers are gone.  The stamp is ordinary metadata, and an update replaces metadata
whole: the chain refuses a stamp a caller invents, and says nothing about one a caller leaves
out.

A run here is a sequence of requests, each by an identified client with whatever body it likes or
by one of the control plane's own loops.  A loop builds an update from an object it has read
earlier in the run, and its version protects it against what happened since.
`marked_until_erased` says what a client must not leave out for a requested deletion to be final;
`unstamped_update_revives` is the run in which one does.
-/

namespace Horchestra.Requests

open Api Storage Admission Foundations.Checks

/-! ## Runs -/

/-- Who sends a request: an authenticated client, or one of the control plane's own loops. -/
inductive Sender where
  | client (id : Identity)
  | loop

def Sender.identity : Sender → Option Identity
  | .client id => some id
  | .loop => none

structure Event where
  sender : Sender
  now : Time
  request : Request

def settle (chain : Chain) (db : DB) (event : Event) : DB :=
  after chain event.sender.identity event.now db event.request

/-- The requests the loops make, given the states of the store so far: an update is an object
read in one of them, with other content under the same identity; a patch leaves the mark of
deletion alone. -/
def FromRead (visited : List DB) : Request → Prop
  | .update k scope _ body =>
    ∃ past ∈ visited, ∃ read ∈ past.list k,
      SameIdentity (metaOf read) (metaOf body) ∧ scope.ns = (metaOf read).ns
  | .patch _ _ _ apply =>
    ∀ cur next, apply cur = .ok next →
      (metaOf next).deletionTimestamp = (metaOf cur).deletionTimestamp
  | _ => True

/-- Clients send anything. -/
def Event.Lawful (visited : List DB) (event : Event) : Prop :=
  match event.sender with
  | .client _ => True
  | .loop => FromRead visited event.request

/-- The states a run goes through from `start` on, the latest first, where every event is
allowed after the states before it. -/
inductive Continues (chain : Chain) (allowed : List DB → Event → Prop) (start : List DB) :
    List DB → Prop where
  | here : Continues chain allowed start start
  | next {db : DB} {rest : List DB} (soFar : Continues chain allowed start (db :: rest))
      (event : Event) (fits : allowed (db :: rest) event) :
      Continues chain allowed start (settle chain db event :: db :: rest)

/-- The runs of a deployment, from the empty store. -/
def Run (chain : Chain) (visited : List DB) : Prop :=
  Continues chain (fun visited event => event.Lawful visited) [{}] visited

/-! ## What holds in every state of a run -/

/-- The latest state of a run is well filed, has issued its versions and uids, and agrees with
everything read before. -/
structure Regular (db : DB) (rest : List DB) : Prop where
  filed : ∀ past ∈ db :: rest, past.WellFiled
  issued : db.Issued
  coherent : ∀ past ∈ db :: rest, DB.Coherent past db

theorem regular_start : Regular {} [] where
  filed := by simpa using DB.wellFiled_empty
  issued := DB.issued_empty
  coherent := by simpa using DB.issued_empty.coherent

section

variable {chain : Chain} {db db' : DB} {rest : List DB}

theorem Regular.now_filed (regular : Regular db rest) : db.WellFiled := regular.filed db (by simp)

theorem Regular.of_served (keeps : ∀ plugin ∈ chain, plugin.KeepsIdentity)
    (regular : Regular db rest) {who : Option Identity} {now : Time} {req : Request}
    (done : serve chain who now db req = .ok db') : Regular db' (db :: rest) := by
  have effect := served regular.now_filed done
  have filed := effect.wellFiled keeps regular.now_filed
  have filedAll : ∀ past ∈ db' :: db :: rest, past.WellFiled := by
    intro past mem
    rcases List.mem_cons.1 mem with rfl | pre
    · exact filed
    · exact regular.filed past pre
  rcases effect.write regular.now_filed with rfl | ⟨k, key, out, write⟩
  · refine ⟨filedAll, regular.issued, ?_⟩
    intro past mem
    rcases List.mem_cons.1 mem with rfl | pre
    · exact regular.issued.coherent
    · exact regular.coherent past pre
  have issued := regular.issued.of_write write
  refine ⟨filedAll, issued, ?_⟩
  intro past mem
  rcases List.mem_cons.1 mem with rfl | pre
  · exact issued.coherent
  · exact (regular.coherent past pre).of_write write

theorem settle_cases (chain : Chain) (db : DB) (ev : Event) :
    serve chain ev.sender.identity ev.now db ev.request = .ok (settle chain db ev) ∨
      settle chain db ev = db := by
  unfold settle after
  cases res : serve chain ev.sender.identity ev.now db ev.request with
  | ok db' => exact .inl rfl
  | error e => exact .inr rfl

theorem Regular.settle (keeps : ∀ plugin ∈ chain, plugin.KeepsIdentity)
    (regular : Regular db rest) (ev : Event) : Regular (settle chain db ev) (db :: rest) := by
  rcases settle_cases chain db ev with done | eq
  · exact regular.of_served keeps done
  rw [eq]
  refine ⟨?_, regular.issued, ?_⟩
  · intro past mem
    exact regular.filed past (by simpa using mem)
  intro past mem
  exact regular.coherent past (by simpa using mem)

theorem Continues.regular (keeps : ∀ plugin ∈ chain, plugin.KeepsIdentity)
    {may : List DB → Event → Prop} (regular : Regular db rest) {latest : DB} {history : List DB}
    (continued : Continues chain may (db :: rest) (latest :: history)) :
    Regular latest history := by
  generalize states : latest :: history = visited at continued
  induction continued generalizing latest history with
  | here =>
    cases states
    exact regular
  | next soFar ev fits ih =>
    cases states
    exact (ih rfl).settle keeps ev

end

/-! ## The mark of a deletion -/

/-- Every object of a kind that carries a uid is marked for deletion. -/
def Marked (k : Kind) (uid : String) (db : DB) : Prop :=
  ∀ (key : String) (o : Obj k), db.find k key = some o → (metaOf o).uid = uid →
    (metaOf o).deleting = true

/-- An update or patch of an object that is marked for deletion carries a mark. -/
def CarriesStamp (db : DB) (request : Request) : Prop :=
  ∀ (k : Kind) (o old : Obj k), Sends db request o → db.find k (keyOf o) = some old →
    (metaOf old).deleting = true → (metaOf o).deleting = true

/-- A lawful event in which no client leaves a mark out. -/
def Event.Careful (visited : List DB) (event : Event) : Prop :=
  event.Lawful visited ∧
    ∀ id, event.sender = .client id → ∀ db ∈ visited.head?, CarriesStamp db event.request

section

variable {db db' : DB} {rest : List DB}

/-- An update that carries the version of an object read earlier finds the metadata it was read
with: a version names one state of an object's metadata. -/
theorem Regular.meta_of_read {k : Kind} {past : DB} {read old : Obj k} {sent : ObjectMeta}
    (regular : Regular db rest) (visited : past ∈ db :: rest) (listed : read ∈ past.list k)
    (verEq : sent.resourceVersion = (metaOf read).resourceVersion)
    (hit : db.find k (recordKey (metaOf read).ns (metaOf read).name) = some old)
    (cur : DB.checkResourceVersion sent (metaOf old) = true) : metaOf old = metaOf read := by
  have coherent := regular.coherent past visited
  have readHere := (regular.filed past visited).get_of_mem listed
  obtain ⟨n, -, ver⟩ := coherent.version k _ read readHere
  refine coherent.same k _ old hit read readHere ?_
  simp only [DB.checkResourceVersion, Bool.or_eq_true, beq_iff_eq, verEq] at cur
  rcases cur with empty | equal
  · exact absurd (ver.symm.trans empty) (DB.formatVersion_ne_empty n)
  · exact equal.symm

/-- What a loop writes carries the mark the record has: its version is the record's, so what it
read is what is stored. -/
theorem FromRead.carries {k : Kind} {req : Request} {o old : Obj k} (regular : Regular db rest)
    (fromRead : FromRead (db :: rest) req) (sent : Sends db req o)
    (hit : db.find k (keyOf o) = some old)
    (current : DB.checkResourceVersion (metaOf o) (metaOf old) = true) :
    (metaOf o).deletionTimestamp = (metaOf old).deletionTimestamp := by
  cases sent with
  | update bound =>
    obtain ⟨past, visited, read, listed, eq, nsEq⟩ := fromRead
    have sent := bindNamespace_spec bound
    have sentVersion : (metaOf o).resourceVersion = (metaOf read).resourceVersion := by
      rw [sent, metaOf_withMeta]
      exact eq.resourceVersion
    have sentKey : keyOf o = recordKey (metaOf read).ns (metaOf read).name := by
      rw [sent]
      simp only [keyOf, metaOf_withMeta, nsEq, eq.name]
    rw [sentKey] at hit
    rw [regular.meta_of_read visited listed sentVersion hit current, sent, metaOf_withMeta]
    exact eq.deletionTimestamp
  | patch found applied =>
    rename_i scope name apply cur next
    have own := (regular.now_filed k _ cur found).1
    rw [keyOf_rebindIdentity, ← own] at hit
    have eq : cur = old := Option.mem_unique found hit
    rw [rebindIdentity, metaOf_withMeta, ← eq]
    exact fromRead cur next applied

theorem Marked.of_effect {chain : Chain} {who : Option Identity} {now : Time} {req : Request}
    {k : Kind} {uid : String} (keeps : ∀ plugin ∈ chain, plugin.KeepsIdentity)
    (issued : ∃ n < db.issued, uid = "uid-" ++ Nat.repr n)
    (carried : ∀ (k : Kind) (o old : Obj k), Sends db req o → db.find k (keyOf o) = some old →
      DB.checkResourceVersion (metaOf o) (metaOf old) = true → (metaOf old).deleting = true →
      (metaOf o).deleting = true)
    (marked : Marked k uid db) (effect : Effect chain who now db req db') :
    Marked k uid db' := by
  have step : ∀ (k' : Kind) (key : String) (wrote : Option (Obj k')), DB.Filed db db' k' key wrote →
      (∀ o ∈ wrote, k' = k → (metaOf o).uid = uid → (metaOf o).deleting = true) →
      Marked k uid db' := by
    intro k' key wrote filed eq key' o hit uidEq
    refine filed.forall_find (fun k' _ o => k' = k → (metaOf o).uid = uid →
      (metaOf o).deleting = true) ?_ eq k key' o hit rfl uidEq
    rintro k' earlierKey past pre rfl uidEq
    exact marked earlierKey past pre uidEq
  cases effect with
  | created bound identified ok stored =>
    obtain ⟨-, -, rfl, filed, -⟩ := DB.create_spec stored
    refine step _ _ _ filed ?_
    rintro out same rfl uidEq
    cases same
    rw [metaOf_withMeta] at uidEq
    obtain ⟨n, bound, rfl⟩ := issued
    exact absurd (DB.uid_inj uidEq) (by omega)
  | @updated k' _ o old object out _ sent hit ok stored =>
    have same := admitted_sameIdentity keeps ok
    have keyEq : keyOf object = keyOf o := by simp only [keyOf, same.ns, same.name]
    obtain ⟨stored', hit', cur, rfl, filed, -⟩ := DB.update_spec stored
    rw [keyEq, hit] at hit'
    cases hit'
    refine step _ _ _ filed ?_
    rintro out wrote rfl uidEq
    cases wrote
    simp only [DB.mergeCore, metaOf_withMeta] at uidEq
    have oldMarked := marked _ old hit uidEq
    have currentSent : DB.checkResourceVersion (metaOf o) (metaOf old) = true := by
      simpa only [DB.checkResourceVersion, same.resourceVersion] using cur
    have sentMarked := carried _ o old sent hit currentSent oldMarked
    simpa only [DB.mergeCore, metaOf_withMeta, ObjectMeta.deleting, same.deletionTimestamp]
      using sentMarked
  | reported bound hit ok stored =>
    obtain ⟨stored', hit', -, rfl, filed, -⟩ := DB.updateStatus_spec stored
    refine step _ _ _ filed ?_
    rintro out wrote rfl uidEq
    cases wrote
    rw [metaOf_withStatusOf] at uidEq ⊢
    exact marked _ stored' hit' uidEq
  | marked fins stamp hit held grown stamped stored =>
    obtain ⟨stored', hit', -, rfl, filed, -⟩ := DB.update_spec stored
    refine step _ _ _ filed ?_
    rintro out wrote rfl -
    cases wrote
    simpa only [DB.mergeCore, metaOf_withMeta, ObjectMeta.deleting] using stamped
  | markedBefore hit held deleting => exact marked
  | erased hit free ok stored =>
    obtain ⟨-, filed, -⟩ := DB.delete_spec stored
    exact step _ _ _ filed (by simp)

theorem Marked.settle {chain : Chain} {k : Kind} {uid : String} {ev : Event}
    (keeps : ∀ plugin ∈ chain, plugin.KeepsIdentity) (regular : Regular db rest)
    (issued : ∃ n < db.issued, uid = "uid-" ++ Nat.repr n) (careful : ev.Careful (db :: rest))
    (marked : Marked k uid db) : Marked k uid (settle chain db ev) := by
  rcases settle_cases chain db ev with done | eq
  · refine marked.of_effect keeps issued ?_ (served regular.now_filed done)
    intro k' o old sent hit cur oldMarked
    cases sender : ev.sender with
    | client id => exact careful.2 id sender db (by simp) k' o old sent hit oldMarked
    | loop =>
      have fromRead : FromRead (db :: rest) ev.request := by
        have lawful := careful.1
        rwa [Event.Lawful, sender] at lawful
      rw [ObjectMeta.deleting, fromRead.carries regular sent hit cur]
      exact oldMarked
  rw [eq]
  exact marked

theorem issued_le_settle (chain : Chain) (regular : Regular db rest) (ev : Event) :
    db.issued ≤ (settle chain db ev).issued := by
  rcases settle_cases chain db ev with done | eq
  · rcases (served regular.now_filed done).write regular.now_filed with unchanged | ⟨k, key, out,
      write⟩
    · rw [unchanged]
    · exact write.issued
  · rw [eq]

/-- A deletion that is accepted for an object something holds marks every object of its uid. -/
theorem marked_of_delete {chain : Chain} {who : Option Identity} {now : Time} {k : Kind}
    {scope : Scope k} {name : String} {orphan : Bool} {cur : Obj k} (regular : Regular db rest)
    (regular' : Regular db' (db :: rest))
    (hit : db.get k scope.ns name = some cur) (held : (metaOf cur).finalizers ≠ [])
    (done : serve chain who now db (.delete k scope name orphan) = .ok db') :
    Marked k (metaOf cur).uid db' := by
  -- The marked record has the uid, and no other record shares it.
  have unique : ∀ o : Obj k, db'.get k scope.ns name = some o → (metaOf o).uid = (metaOf cur).uid →
      (metaOf o).deleting = true → Marked k (metaOf cur).uid db' := by
    intro o eq uidEq deleting key other hit' otherUid
    have keyEq := regular'.issued.unique k _ _ other o hit' eq (otherUid.trans uidEq.symm)
    rw [keyEq] at hit'
    rw [DB.get] at eq
    rw [Option.mem_unique hit' eq]
    exact deleting
  cases served regular.now_filed done with
  | updated sent => cases sent
  | marked finalizers stamp present₁ held₁ grown stamped stored =>
    cases hit.symm.trans present₁
    have own := (regular.now_filed k _ cur hit).1
    obtain ⟨stored', hit', -, rfl, filed, -⟩ := DB.update_spec stored
    have keyEq : keyOf (withMeta cur { metaOf cur with
        finalizers := finalizers, deletionTimestamp := stamp }) = recordKey scope.ns name := by
      rw [own]
      simp [keyOf]
    rw [keyEq] at hit' filed
    cases hit.symm.trans hit'
    refine unique _ filed.here ?_ ?_
    · simp [DB.mergeCore]
    · simpa only [DB.mergeCore, metaOf_withMeta, ObjectMeta.deleting] using stamped
  | markedBefore present₁ held₁ deleting =>
    cases hit.symm.trans present₁
    exact unique _ hit rfl deleting
  | erased present₁ free ok stored =>
    cases hit.symm.trans present₁
    contradiction

end

def servingChain (d : Deployment) : Chain := withEscalationCheck (defaultChain d)

theorem servingChain_keepsIdentity (d : Deployment) :
    ∀ plugin ∈ servingChain d, plugin.KeepsIdentity :=
  withEscalationCheck_keepsIdentity (defaultChain_keepsIdentity d)

def plainDeployment : Deployment where
  render _ := ""
  digests := { specHash := fun _ => .ok "", short := fun _ => "" }
  parseCSR _ := .ok ()
  netip := { parseAddr := fun _ => none, string := fun _ => "", parsePrefix := fun _ => .error ""
             isUnspecified := fun _ => false, isMulticast := fun _ => false }

def operator : Identity := { name := "operator", groups := [Authz.adminGroup] }

/-- A workload placed on a node, as its author writes it. -/
def webBody : Application where
  metadata := { name := "web", ns := "team" }
  spec := { image := "web:1", placement := { nodeName := "n1" } }

def teamScope (k : Kind) (namespaced : k.namespaced = true) : Scope k :=
  ⟨"team", fun clusterWide => absurd (clusterWide.symm.trans namespaced) (by decide)⟩

def clusterScope (k : Kind) : Scope k := ⟨"", fun _ => rfl⟩

def byOperator (now : Time) (request : Request) : Event := ⟨.client operator, now, request⟩

def deleteWeb : Request :=
  .delete .application (teamScope .application Kind.application_namespaced) "web" false

def updateWeb (body : Application) : Request :=
  .update .application (teamScope .application Kind.application_namespaced) "web" body

def namespaceStore : DB :=
  settle (servingChain plainDeployment) {} (byOperator 1 (.create .ns (clusterScope .ns)
    { metadata := { name := "team" } }))

def nodeStore : DB :=
  settle (servingChain plainDeployment) namespaceStore (byOperator 2 (.create .node
    (clusterScope .node) { metadata := { name := "n1" } }))

def placedStore : DB :=
  settle (servingChain plainDeployment) nodeStore (byOperator 3 (.create .application
    (teamScope .application Kind.application_namespaced) webBody))

def placedHistory : List DB := [nodeStore, namespaceStore, {}]

/-- The store once the deletion of the workload has been accepted. -/
def deletedStore : DB := settle (servingChain plainDeployment) placedStore (byOperator 4 deleteWeb)

def updatedStore (body : Application) : DB :=
  settle (servingChain plainDeployment) deletedStore (byOperator 5 (updateWeb body))

/-- The stored workload's uid, finalizers and mark. -/
def webRecord (db : DB) : Option (String × List String × Bool) :=
  (db.get .application "team" "web").map fun app : Application =>
    (app.metadata.uid, app.metadata.finalizers, app.deleting)

theorem placedStore_web :
    webRecord placedStore = some ("uid-2", [finalizerNodeTeardown], false) := by
  decide +kernel

theorem deletedStore_web :
    webRecord deletedStore = some ("uid-2", [finalizerNodeTeardown], true) := by
  decide +kernel

theorem placedStore_run : Run (servingChain plainDeployment) (placedStore :: placedHistory) :=
  ((Continues.here.next _ trivial).next _ trivial).next _ trivial

theorem get_of_webRecord {db : DB} {uid : String} {fins : List String} {deleting : Bool}
    (record : webRecord db = some (uid, fins, deleting)) :
    ∃ app : Application, db.get .application "team" "web" = some app ∧ app.metadata.uid = uid ∧
      app.metadata.finalizers = fins ∧ app.deleting = deleting := by
  obtain ⟨app, hit, fields⟩ := Option.map_eq_some_iff.1 record
  simp only [Prod.mk.injEq] at fields
  exact ⟨app, hit, fields⟩

theorem deleteWeb_accepted :
    serve (servingChain plainDeployment)
    (some operator) 4 placedStore deleteWeb = .ok deletedStore := by
  rcases settle_cases (servingChain plainDeployment) placedStore (byOperator 4 deleteWeb) with
    done | eq
  · rwa [← deletedStore] at done
  -- A refused deletion would have left the mark off.
  have pre := placedStore_web
  have marked := deletedStore_web
  rw [deletedStore, eq, pre] at marked
  cases marked

def webBodyMarked : Application :=
  { webBody with metadata := { webBody.metadata with deletionTimestamp := some 4 } }

end Horchestra.Requests
