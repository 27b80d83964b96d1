import Horchestra.Service.HostIdentity

/-!
# What objects refer to, and where they live

* `references_hold`: the service and the required secrets of a stored application are stored, and
  what it mounts, joins or reads cannot be deleted.
* `objects_are_housed`: an object of a namespaced kind lives in a stored namespace, if no namespace
  is deleted with a secret store in it; `store_outlives_namespace` is the run with one.
* `volumes_have_one_owner`: two applications mount a volume only if it says so, when every request
  commits to the store it has read; `racing_mounts` is a run of two that do not.
-/

namespace Horchestra.Requests

open Api Storage Admission Foundations Checks Transitions

section

variable {d : Deployment} {db : DB} {app : Application}

/-- What an application mounts, joins or reads. -/
def Refers (app : Application) : Kind → String → Prop
  | .persistentVolume, name => mountsPV app name = true
  | .service, name => app.spec.serviceName = name
  | .secret, name => name ∈ app.secretRefs
  | _, _ => False

/-- What an application cannot do without is stored. -/
structure Provided (db : DB) (app : Application) : Prop where
  service : app.spec.serviceName ≠ "" → ∃ svc ∈ db.list .service,
    svc.metadata.ns = app.metadata.ns ∧ svc.metadata.name = app.spec.serviceName
  secrets : ∀ name ∈ app.requiredSecretRefs, ∃ sec ∈ db.list .secret,
    sec.metadata.ns = app.metadata.ns ∧ sec.metadata.name = name

theorem Sound.provided (sound : Sound d db) (stored : app ∈ db.list .application) :
    Provided db app := by
  obtain ⟨-, -, inService, secrets, -⟩ := sound.apps app stored
  exact ⟨(checkServiceRef_eq_ok_iff.1 inService).resolve_left, checkSecretRef_eq_ok_iff.1 secrets⟩

theorem not_released (sound : Sound d db) (stored : app ∈ db.list .application) {k : Kind}
    {cur : Obj k} (nsEq : (metaOf cur).ns = app.metadata.ns)
    (refers : Refers app k (metaOf cur).name) : ¬ ReleasedFrom db cur := by
  intro released
  cases k with
  | persistentVolume =>
    obtain ⟨key, hit⟩ := DB.mem_list.1 stored
    have unused := checkPVProtection_eq_ok_iff.1 released app stored nsEq.symm
      (sound.named .application key app hit)
    cases unused.symm.trans refers
  | service => exact checkServiceProtection_eq_ok_iff.1 released app stored nsEq.symm refers
  | secret => exact checkSecretProtection_eq_ok_iff.1 released app stored nsEq.symm refers
  | _ => exact refers

theorem references_hold (d : Deployment) {allowed : DB → Event → Bool}
    (reached : Transitions.Reachable (serving d) allowed {} db)
    (stored : app ∈ db.list .application) :
    Provided db app ∧ ∀ (who : Option Identity) (now : Time) (k : Kind) (scope : Scope k)
      (name : String) (orphan : Bool), scope.ns = app.metadata.ns → Refers app k name →
        ∃ refusal, serve (defaultChain d) who now db
          (.delete k scope name orphan) = .error refusal := by
  have ⟨sound, _⟩ : Sound d db ∧ True :=
    holds_of_reachable trivial (fun _ _ _ _ _ => trivial) reached
  refine ⟨sound.provided stored, ?_⟩
  intro who now k scope name orphan sameNs refers
  cases done : serve (defaultChain d) who now db (.delete k scope name orphan) with
  | error refusal => exact ⟨refusal, rfl⟩
  | ok db' =>
    simp only [serve, commit, delete, bind_eq_ok_iff, translated_eq_ok_iff, found_eq_ok_iff] at done
    obtain ⟨cur, present, _, -, _, accepted, -⟩ := done
    obtain ⟨own, identified⟩ := sound.filed k _ cur present
    obtain ⟨curNs, curName⟩ := recordKey_inj_of_slashFree identified.ns identified.name own
    exact absurd (releasedFrom_of_validate ⟨who, db⟩ accepted)
      (not_released sound stored (curNs.symm.trans sameNs) (curName ▸ refers))

end

def createInTeam (k : Kind) (namespaced : k.namespaced = true) (body : Obj k) : Event :=
  byOperator 2 (.create k (teamScope k namespaced) body)

def frontService : Service where
  metadata := { name := "front" }
  spec := { ports := [{ port := 80 }] }

/-- A workload of a service that mounts a volume. -/
def memberBody (name : String) : Application where
  metadata := { name := name }
  spec := { image := "web:1", serviceName := "front"
            volumes := [{ volume := { type := volumeTypePV, name := "data" }, mountPath := "/data" }] }

theorem references_hold_front :
    ∃ db app, Transitions.Reachable (serving plainDeployment) (fun _ _ => true) {} db ∧
      db.get .application "team" "web" = some app ∧ Provided db app ∧
      ∃ refusal, serve (defaultChain plainDeployment) none 3 db
        (.delete .service (teamScope .service Kind.service_namespaced) "front" false) =
          .error refusal := by
  obtain ⟨db, ran, view⟩ : ∃ db,
    Transitions.Reachable (serving plainDeployment) (fun _ _ => true) {} db ∧
      ((db.get .application "team" "web").map fun app => (app.metadata.ns, app.spec.serviceName)) =
        some ("team", "front") :=
    exists_of_run [createTenant "team" ∅, createInTeam .service rfl frontService,
      createInTeam .application rfl (memberBody "web")] (by decide +kernel)
  obtain ⟨app, found, view⟩ := Option.map_eq_some_iff.1 view
  simp only [Prod.mk.injEq] at view
  obtain ⟨provided, refused⟩ := references_hold plainDeployment ran
    (DB.mem_list_of_get found)
  exact ⟨db, app, ran, found, provided, refused none 3 .service _ "front" false
    view.1.symm view.2⟩

/-! ## Namespaces -/

/-- Every object of some kinds is in a namespace that is stored. -/
def HousedIn (kinds : Kind → Bool) (db : DB) : Prop :=
  ∀ (k : Kind) (key : String) (o : Obj k), db.find k key = some o → kinds k = true →
    ∃ ns ∈ db.list .ns, ns.metadata.name = (metaOf o).ns

/-- Every object of a namespaced kind is in a namespace that is stored. -/
def Housed (db : DB) : Prop := HousedIn Kind.namespaced db

/-- Objects of namespaced kinds are created in a namespace, as the routes have it. -/
def inNamespace (event : Event) : Bool :=
  match event.request with
  | .create k scope _ => !k.namespaced || scope.ns != ""
  | _ => true

/-- Besides, no namespace is deleted while a secret store is in it. -/
def leavesNoStore (db : DB) (event : Event) : Bool :=
  inNamespace event && match event.request with
    | .delete .ns _ name _ => (db.list .secretStore).all fun store => store.metadata.ns != name
    | _ => true

/-- The kind the sweep of a namespace leaves out. -/
theorem swept_or_store {k : Kind} (namespaced : k.namespaced = true) :
    k ∈ namespacedKinds ∨ k = .secretStore := by
  cases k <;> revert namespaced <;> decide

section

variable {kinds : Kind → Bool} {db db' : DB} {k : Kind} {key : String} {out old : Obj k}

theorem HousedIn.written (housed : HousedIn kinds db) (wellFiled : db.WellFiled)
    (filed : DB.Filed db db' k key (some out)) (own : key = keyOf out)
    (eq : kinds k = true → ∃ ns ∈ db.list .ns, ns.metadata.name = (metaOf out).ns) :
    HousedIn kinds db' := by
  have stays : ∀ {name : String}, (∃ ns ∈ db.list .ns, ns.metadata.name = name) →
      ∃ ns ∈ db'.list .ns, ns.metadata.name = name := by
    rintro name ⟨ns, listed, named⟩
    obtain ⟨ns', listed', -, nameEq⟩ := survives_write wellFiled filed own listed
    exact ⟨ns', listed', Eq.trans nameEq named⟩
  refine filed.forall_find _ ?_ ?_
  · exact fun k' key' o hit namespaced => stays (housed k' key' o hit namespaced)
  intro o same namespaced
  cases same
  exact stays (eq namespaced)

/-- An object that takes the place of another stays where that one was. -/
theorem HousedIn.replaced (housed : HousedIn kinds db) (wellFiled : db.WellFiled)
    (filed : DB.Filed db db' k key (some out)) (own : key = keyOf out)
    (hit : db.find k key = some old) : HousedIn kinds db' := by
  subst own
  refine housed.written wellFiled filed rfl fun namespaced => ?_
  rw [(wellFiled.same_identity hit).1]
  exact housed k _ old hit namespaced

theorem HousedIn.of_effect {d : Deployment} {ev : Event} (sound : Sound d db)
    (housed : HousedIn kinds db)
    (namespaced : ∀ k, kinds k = true → k.namespaced = true) (may : inNamespace ev = true)
    (spares : kinds .secretStore = true → leavesNoStore db ev = true)
    (effect : Effect (defaultChain d) ev.sender.identity ev.now db ev.request db') :
    HousedIn kinds db' := by
  obtain ⟨sender, now, req⟩ := ev
  cases effect with
  | @created k scope body o object out _ bound identified ok stored =>
    obtain ⟨-, -, rfl, step, -⟩ := DB.create_spec stored
    refine housed.written sound.filed step (by simp [keyOf]) fun counted => ?_
    have eq := admitted_sameIdentity (defaultChain_keepsIdentity d) ok
    have inScope : (metaOf o).ns = scope.ns := by rw [bindNamespace_spec bound, metaOf_withMeta]
    have ne : scope.ns ≠ "" := by simpa [inNamespace, namespaced k counted] using may
    obtain ⟨-, validated⟩ := Chain.run_eq_ok_iff.1 ok
    have checked := check_of_referenceCheck (validated _ (mem_defaultChain d).2.2.2) rfl
      (show namespaceExistsRule ∈ referenceRules by simp [referenceRules]) rfl
    have inNs := (checkNamespaceExists_eq_ok_iff.1 checked).resolve_left
      (by rw [eq.ns, inScope]; exact ne)
    simpa using inNs
  | updated sent hit ok stored =>
    obtain ⟨old, hit', -, rfl, step, -⟩ := DB.update_spec stored
    exact housed.replaced sound.filed step (by simp [keyOf, DB.mergeCore]) hit'
  | reported bound hit ok stored =>
    obtain ⟨old, hit', -, rfl, step, -⟩ := DB.updateStatus_spec stored
    refine housed.replaced sound.filed step ?_ hit'
    rw [(sound.filed _ _ old hit').1]
    simp [keyOf]
  | marked fins stamp hit held grown stamped stored =>
    obtain ⟨old, hit', -, rfl, step, -⟩ := DB.update_spec stored
    exact housed.replaced sound.filed step (by simp [keyOf, DB.mergeCore]) hit'
  | markedBefore hit held deleting => exact housed
  | @erased k scope name orphan cur _ hit free ok stored =>
    obtain ⟨-, step, -⟩ := DB.delete_spec stored
    refine step.forall_find_apart _ ?_ (by simp)
    intro k' key' o _ hit' counted
    obtain ⟨ns, listed, named⟩ := housed k' key' o hit' counted
    refine ⟨ns, survives_erase sound.filed step hit listed ?_, named⟩
    rintro rfl - nameEq
    obtain ⟨own, identified⟩ := sound.filed .ns _ cur hit
    have curName := (recordKey_inj_of_slashFree identified.ns identified.name own).2
    have member := DB.mem_list.2 ⟨key', hit'⟩
    rcases swept_or_store (namespaced k' counted) with swept | rfl
    · have empty := checkNamespaceEmpty_eq_ok_iff.1
        (releasedFrom_of_validate ⟨sender.identity, db⟩ ok) k' swept o member
      exact empty (named.symm.trans nameEq)
    have free := List.all_eq_true.1 (Bool.and_eq_true _ _ ▸ spares counted).2 o member
    simp only [bne_iff_ne] at free
    exact free (named.symm.trans (nameEq.trans curName.symm))

end

theorem housedIn_empty (kinds : Kind → Bool) : HousedIn kinds {} := by
  intro k key o present
  simp [DB.find] at present

/-- **Nothing outlives its namespace** but a secret store. -/
theorem objects_are_housed (d : Deployment) {db : DB}
    (reached : Transitions.Reachable (serving d) leavesNoStore {} db) : Housed db :=
  (holds_of_reachable (housedIn_empty _) (fun sound _ housed permitted effect =>
    housed.of_effect sound (fun _ => id) (Bool.and_eq_true _ _ ▸ permitted).1 (fun _ => permitted)
      effect) reached).2

def createStore : Event :=
  createInTeam .secretStore rfl { metadata := { name := "vault" } : SecretStore }

theorem objects_are_housed_team :
    ∃ db, Transitions.Reachable (serving plainDeployment) leavesNoStore {} db ∧
      (db.get .secretStore "team" "vault").isSome = true ∧ Housed db := by
  obtain ⟨db, ran, stored⟩ : ∃ db,
    Transitions.Reachable (serving plainDeployment) leavesNoStore {} db ∧
      (db.get .secretStore "team" "vault").isSome = true :=
    exists_of_run [createTenant "team" ∅, createStore] (by decide +kernel)
  exact ⟨db, ran, stored, objects_are_housed plainDeployment ran⟩

/-- **A secret store outlives its namespace.**  The sweep before a namespace goes does not look for
secret stores. -/
theorem store_outlives_namespace :
    ∃ db, Transitions.Reachable (serving plainDeployment) (fun _ _ => true) {} db ∧
      (db.get .secretStore "team" "vault").isSome = true ∧ (db.list .ns).isEmpty = true ∧
      ¬ Housed db := by
  obtain ⟨db, ran, stored, empty⟩ : ∃ db, Transitions.Reachable (serving plainDeployment)
      (fun _ _ => true) {} db ∧ (db.get .secretStore "team" "vault").isSome = true ∧
      (db.list .ns).isEmpty = true :=
    exists_of_run [createTenant "team" ∅, createStore,
      byOperator 3 (.delete .ns (clusterScope .ns) "team" false)] (by decide +kernel)
  refine ⟨db, ran, stored, empty, fun housed => ?_⟩
  obtain ⟨store, found⟩ := Option.isSome_iff_exists.1 stored
  obtain ⟨ns, listed, -⟩ := housed .secretStore _ store found rfl
  rw [List.isEmpty_iff.1 empty] at listed
  cases listed

/-! ## Volumes, and requests that overlap -/

/-- Two applications of a namespace mount a volume only if it says that it is shared. -/
def OneOwner (db : DB) : Prop :=
  ∀ a ∈ db.list .application, ∀ b ∈ db.list .application, a.metadata.ns = b.metadata.ns →
    a.metadata.name ≠ b.metadata.name → ∀ name, mountsPV a name = true → mountsPV b name = true →
      sharedPV db a.metadata.ns name = true

theorem Sound.oneOwner {d : Deployment} {db : DB} (sound : Sound d db) : OneOwner db := by
  intro a storedA b storedB nsEq ne name mountsA mountsB
  obtain ⟨-, -, -, -, exclusive⟩ := sound.apps a storedA
  refine (checkAppMountsExclusive_eq_ok_iff.1 exclusive name mountsA).resolve_right fun alone => ?_
  rw [alone b storedB nsEq.symm ne.symm] at mountsB
  cases mountsB

/-- The store, the number of accepted commits it has seen, and the requests between their reads and
their commit, each with that number and the store it has read. -/
structure Shared where
  db : DB := {}
  commits : Nat := 0
  flying : List (Nat × DB × Event) := []

inductive Move where
  | read (event : Event)
  | commit (i : Nat)

def Shared.step (d : Deployment) (s : Shared) : Move → Option Shared
  | .read event => some { s with flying := s.flying ++ [(s.commits, s.db, event)] }
  | .commit i => s.flying[i]?.map fun (_, seen, event) =>
    match commit (defaultChain d) event.sender.identity event.now seen s.db event.request with
    | .ok db => { db, commits := s.commits + 1, flying := s.flying.eraseIdx i }
    | .error _ => { s with flying := s.flying.eraseIdx i }

/-- No other request is accepted between the reads of a request and its commit. -/
def undisturbed (s : Shared) : Move → Bool
  | .read _ => true
  | .commit i => s.flying[i]?.all fun flight => flight.1 == s.commits

/-- The store is sound, and a request that no commit has overtaken has read it. -/
structure Shared.Current (d : Deployment) (s : Shared) : Prop where
  sound : Sound d s.db
  flying : ∀ flight ∈ s.flying, flight.1 ≤ s.commits ∧ (flight.1 = s.commits → flight.2.1 = s.db)

theorem Shared.Current.of_step {d : Deployment} {s s' : Shared} {move : Move}
    (cur : s.Current d) (may : undisturbed s move = true)
    (moved : s.step d move = some s') : s'.Current d := by
  cases move with
  | read ev =>
    cases moved
    refine ⟨cur.sound, fun flight mem => ?_⟩
    rcases List.mem_append.1 mem with pre | new
    · exact cur.flying flight pre
    obtain rfl := List.mem_singleton.1 new
    exact ⟨le_rfl, fun _ => rfl⟩
  | commit i =>
    obtain ⟨⟨n, seen, ev⟩, hit, rfl⟩ := Option.map_eq_some_iff.1 moved
    obtain rfl : seen = s.db :=
      (cur.flying _ (List.mem_of_getElem? hit)).2 (by simpa [undisturbed, hit] using may)
    cases answered : commit (defaultChain d) ev.sender.identity ev.now s.db s.db ev.request with
    | error refusal =>
      simp only [answered]
      exact ⟨cur.sound, fun flight mem => cur.flying flight (List.mem_of_mem_eraseIdx mem)⟩
    | ok db' =>
      simp only [answered]
      refine ⟨cur.sound.of_effect (served cur.sound.filed answered), fun flight mem => ?_⟩
      have past := (cur.flying flight (List.mem_of_mem_eraseIdx mem)).1
      exact ⟨past.trans (Nat.le_succ _), fun eq => absurd eq (Nat.lt_succ_of_le past).ne⟩

theorem volumes_have_one_owner (d : Deployment) {s : Shared}
    (reached : Transitions.Reachable (Shared.step d) undisturbed {} s) :
    OneOwner s.db :=
  (reached.invariant (Shared.Current d) ⟨sound_empty d, by simp⟩
    fun current permitted happened => current.of_step permitted happened).sound.oneOwner

def mounting (name : String) : Move :=
  .read (createInTeam .application rfl
    { memberBody name with spec := { (memberBody name).spec with serviceName := "" } })

/-- What there is of an application that mounts the volume. -/
def mounter (db : DB) (name : String) : Option (String × String × Bool) :=
  (db.get .application "team" name).map fun app =>
    (app.metadata.ns, app.metadata.name, mountsPV app "data")

-- a refused request comes between the reads of `web` and its commit; `api` asks for the volume
-- after `web` has it, and is refused
theorem volumes_have_one_owner_serial :
    ∃ s, Transitions.Reachable (Shared.step plainDeployment) undisturbed {} s ∧
      mounter s.db "web" = some ("team", "web", true) ∧ mounter s.db "api" = none ∧
      OneOwner s.db := by
  obtain ⟨s, ran, mounts⟩ : ∃ s,
      Transitions.Reachable (Shared.step plainDeployment) undisturbed {} s ∧
      mounter s.db "web" = some ("team", "web", true) ∧ mounter s.db "api" = none :=
    exists_of_run [.read (createTenant "team" ∅), .commit 0, .read (createTenant "team" ∅),
      mounting "web", .commit 0, .commit 0, mounting "api", .commit 0] (by decide +kernel)
  exact ⟨s, ran, mounts.1, mounts.2, volumes_have_one_owner plainDeployment ran⟩

/-- **Two applications race for a volume.**  Both have read the store before either is in it. -/
theorem racing_mounts :
    ∃ s, Transitions.Reachable (Shared.step plainDeployment) (fun _ _ => true) {} s ∧
      mounter s.db "web" = some ("team", "web", true) ∧
      mounter s.db "api" = some ("team", "api", true) ∧ ¬ OneOwner s.db := by
  obtain ⟨s, ran, hasWeb, hasApi, unshared⟩ : ∃ s,
    Transitions.Reachable (Shared.step plainDeployment)
      (fun _ _ => true) {} s ∧ mounter s.db "web" = some ("team", "web", true) ∧
      mounter s.db "api" = some ("team", "api", true) ∧ sharedPV s.db "team" "data" = false :=
    exists_of_run [.read (createTenant "team" ∅), .commit 0, mounting "web", mounting "api",
      .commit 0, .commit 0] (by decide +kernel)
  refine ⟨s, ran, hasWeb, hasApi, fun alone => ?_⟩
  obtain ⟨web, foundWeb, fields⟩ := Option.map_eq_some_iff.1 hasWeb
  obtain ⟨api, foundApi, fields'⟩ := Option.map_eq_some_iff.1 hasApi
  simp only [Prod.mk.injEq] at fields fields'
  have shared := alone web (DB.mem_list_of_get foundWeb) api (DB.mem_list_of_get foundApi)
    (fields.1.trans fields'.1.symm) (by rw [fields.2.1, fields'.2.1]; decide) "data" fields.2.2
    fields'.2.2
  rw [fields.1, unshared] at shared
  cases shared

/-! ## What is stored -/

/-- What the chain asks of a spec, of the volumes and of the namespace of an application. -/
structure Valid (d : Deployment) (db : DB) (app : Application) : Prop where
  ids : HasIDs app.spec
  floor : checkFloor app.spec = .ok ()
  spec : checkAppSpec d.render d.routedNetwork app.spec = .ok ()
  housed : ∃ ns ∈ db.list .ns, ns.metadata.name = app.metadata.ns
  exclusive : checkAppMountsExclusive db app = .ok ()

/-- **What is stored stays valid**: after any requests by anyone, every stored application still
meets what the chain has asked of it, and every namespace has a block. -/
theorem stored_applications_stay_valid {d : Deployment} {db : DB}
    (reached : Transitions.Reachable (serving d) (fun _ => inNamespace) {} db) :
    (∀ app ∈ db.list .application, Valid d db app) ∧ ∀ ns ∈ db.list .ns, HasBlock ns := by
  obtain ⟨sound, housed⟩ := holds_of_reachable (housedIn_empty (· == .application))
    (fun sound _ housed permitted effect => housed.of_effect sound
      (fun k isApp => beq_iff_eq.1 isApp ▸ Kind.application_namespaced) permitted (by simp) effect) reached
  refine ⟨fun app stored => ?_, sound.blocks⟩
  obtain ⟨⟨ids, floor, spec⟩, -, -, -, exclusive⟩ := sound.apps app stored
  obtain ⟨key, hit⟩ := DB.mem_list.1 stored
  exact ⟨ids, floor, spec, housed .application key app hit rfl, exclusive⟩

theorem stored_applications_stay_valid_web : ∃ (db : DB) (app : Application) (ns : Namespace),
    db.get .application "team" "web" = some app ∧ Valid plainDeployment db app ∧
      db.get .ns "" "team" = some ns ∧ HasBlock ns := by
  obtain ⟨db, ran, view, view'⟩ : ∃ db,
      Transitions.Reachable (serving plainDeployment) (fun _ => inNamespace) {} db ∧
      (db.get .application "team" "web").isSome = true ∧ (db.get .ns "" "team").isSome = true :=
    exists_of_run [createTenant "team" ∅, createInTeam .service rfl frontService,
      createInTeam .application rfl (memberBody "web")] (by decide +kernel)
  obtain ⟨app, found⟩ := Option.isSome_iff_exists.1 view
  obtain ⟨ns, found'⟩ := Option.isSome_iff_exists.1 view'
  obtain ⟨valid, blocks⟩ := stored_applications_stay_valid ran
  exact ⟨db, app, ns, found, valid app (DB.mem_list_of_get found), found',
    blocks ns (DB.mem_list_of_get found')⟩

end Horchestra.Requests
