import Horchestra.Foundations.Transitions
import Horchestra.Service.Deletion
import Horchestra.Service.Soundness

/-!
# The host ids of tenants and workloads

A namespace carries its block of host ids as an annotation and an application its ids in its spec,
and an update replaces both.  The allocator fills in what is missing and looks at nothing else: a
block that arrives with a namespace is taken as it is, an id that arrives with an application only
has to lie inside the block, and an id that is missing from an update is drawn anew.

Over every run of requests through the default chain:

* `tenants_share_no_ids`: blocks and ids of different namespaces are disjoint, as long as nobody
  sends a block other than the stored one;
* `workload_id_is_own`: applications of one namespace have different user ids, as long as nobody
  asks for an id another one holds;
* `assigned_ids_stay`: an id and a block stay what they were first stored as, as long as every
  update sends them back.

Each condition is needed: `declared_block_is_shared`, `requested_id_is_shared` and
`omitted_id_moves` are the runs without it.
-/

namespace Horchestra.Requests

open Api Storage Admission Admission.UidAllocation
open Foundations
open Transitions (exists_of_run)

section

variable {d : Deployment} {who : Option Identity} {now : Time} {db db' : DB} {request : Request}
  {k : Kind}

theorem Sound.origin (sound : Sound d db) (effect : Effect (defaultChain d) who now db request db')
    {key : String} {o : Obj k} (hit : db'.find k key = some o) :
    Origin (defaultChain d) who db request key o :=
  effect.origin (defaultChain_keepsIdentity d) sound.filed hit

/-! ## What the chain makes of an application's ids and a namespace's block -/

variable {ctx : Context}

variable {a : Attributes .application} {object app app' : Application}

/-- The allocator sees the ids that were sent, and the floor what the allocator made of them. -/
theorem workload_of_run (own : a.subresource = "") (writes : a.operation ≠ .delete)
    (done : (defaultChain d).run ctx a = .ok object) :
    ∃ app assigned : Application, app.spec = Application.spec a.object ∧
      SameIdentity (Application.metadata a.object) app.metadata ∧
      assignWorkloadID ctx.db app = .ok assigned ∧ object.spec = floored assigned.spec ∧
      checkBlock ctx.db object = .ok () := by
  obtain ⟨rewritten, ok⟩ := Chain.run_eq_ok_iff.1 done
  have guards : checkBlock ctx.db object = .ok () := by
    simpa [UidAllocation.plugin, UidAllocation.validate, Attributes.isSubresource, own, writes]
      using ok UidAllocation.plugin (by simp [defaultChain])
  obtain ⟨owned, held, assigned, owns, holds, assigns, floors⟩ := admitPass_application.1 rewritten
  have assigns : assignWorkloadID ctx.db held = .ok assigned := by
    simpa [UidAllocation.plugin, UidAllocation.admitPass, Attributes.isSubresource, own, writes]
      using assigns
  simp only [policyEnforcement, writes, if_false, Except.ok.injEq] at floors
  refine ⟨held, assigned, ?_, ?_, assigns, ?_, guards⟩
  · exact (finalizerOwnership_spec holds).trans (childOwnership_spec owns)
  · exact (childOwnership_keepsIdentity _ _ _ _ owns).trans
      (finalizerOwnership_keepsIdentity _ _ _ _ holds)
  · rw [← floors]

theorem runAsUser_eq (eq : app'.spec = app.spec) : runAsUser app' = runAsUser app := by
  rw [runAsUser, eq, runAsUser]

variable {id : Int}

theorem runAsUser_floored {spec : ApplicationSpec} (floor : spec = floored app.spec)
    (set : runAsUser app = some id) : spec.securityContext.bind (·.runAsUser) = some id := by
  obtain ⟨sc, context, user⟩ := Option.bind_eq_some_iff.1 set
  simp [floor, floored, context, user]

theorem assignWorkloadID_of_set (set : runAsUser app = some id)
    (done : assignWorkloadID db app = .ok app') : runAsUser app' = some id := by
  obtain ⟨sc, context, user⟩ := Option.bind_eq_some_iff.1 set
  simp only [assignWorkloadID, context, Option.getD_some, user] at done
  split at done
  · cases done
  split at done
  · cases done
    exact set
  cases done
  simp [runAsUser, withSecurityContext]

theorem runAsUser_of_sent (own : a.subresource = "") (writes : a.operation ≠ .delete)
    (done : (defaultChain d).run ctx a = .ok object)
    (set : runAsUser (a.object : Application) = some id) : runAsUser object = some id := by
  obtain ⟨app, assigned, spec, -, assigns, floor, -⟩ := workload_of_run own writes done
  have kept := assignWorkloadID_of_set ((runAsUser_eq spec).trans set) assigns
  exact runAsUser_floored floor kept

theorem runAsUser_of_unsent {block : IDRange} (own : a.subresource = "")
    (writes : a.operation ≠ .delete) (done : (defaultChain d).run ctx a = .ok object)
    (unset : runAsUser (a.object : Application) = none)
    (held : blockOf ctx.db (Application.metadata a.object).ns = .ok block)
    (some_ : block.isZero = false) :
    ∃ id, runAsUser object = some id ∧ idTaken ctx.db a.object id = false := by
  obtain ⟨app, assigned, spec, eq, assigns, floor, -⟩ := workload_of_run own writes done
  rw [← eq.ns] at held
  obtain ⟨j, -, user, first⟩ :=
    assignWorkloadID_spec held some_ ((runAsUser_eq spec).trans unset) assigns
  refine ⟨block.min + j, runAsUser_floored floor user, ?_⟩
  have free := first.free
  rwa [idTaken, eq.ns, eq.name, mul_one] at free

def blockText (ns : Namespace) : String := ns.metadata.annValue annUIDRange

/-- A block that is sent is stored; one that is not is drawn from those no namespace starts. -/
theorem block_of_run {a : Attributes .ns} {object : Namespace} (own : a.subresource = "")
    (writes : a.operation ≠ .delete) (done : (defaultChain d).run ctx a = .ok object) :
    (blockText a.object ≠ "" → blockText object = blockText a.object) ∧
      (blockText a.object = "" → ∃ i < blockCount,
        parseIDRange (blockText object) = .ok (nthBlock i) ∧
        blockTaken ctx.db (Namespace.metadata a.object).name (nthBlock i).min = false) := by
  obtain ⟨rewritten, -⟩ := Chain.run_eq_ok_iff.1 done
  obtain ⟨held, holds, assigns⟩ := admitPass_ns.1 rewritten
  have assigns : assignBlock ctx.db held = .ok object := by
    simpa [UidAllocation.plugin, UidAllocation.admitPass, Attributes.isSubresource, own, writes]
      using assigns
  have text : blockText held = blockText a.object := by
    rw [blockText, blockText, ObjectMeta.annValue, ObjectMeta.annValue,
      finalizerOwnership_annotations holds]
  constructor
  · intro set
    rw [← text] at set ⊢
    simp only [assignBlock] at assigns
    split at assigns
    · split at assigns <;> cases assigns
      rfl
    · exact absurd ‹_› (not_not_intro set)
  intro unset
  obtain ⟨i, bound, parsed, free⟩ := assignBlock_spec (text.trans unset) assigns
  have named : held.metadata.name = (Namespace.metadata a.object).name :=
    (finalizerOwnership_keepsIdentity _ _ _ _ holds).name
  exact ⟨i, bound, parsed, named ▸ free⟩

end

/-! ## Namespaces and their blocks -/

section

variable {d : Deployment} {db : DB}

variable {ns : Namespace}

theorem find_ns (filed : db.WellFiled) (mem : ns ∈ db.list .ns) :
    db.find .ns (recordKey "" ns.metadata.name) = some ns := by
  obtain ⟨key, hit⟩ := DB.mem_list.1 mem
  obtain ⟨rfl, known⟩ := filed .ns _ ns hit
  have scope : ns.metadata.ns = "" := known.scope rfl
  rwa [keyOf, show metaOf (k := .ns) ns = ns.metadata from rfl, scope] at hit

theorem find_ns_of_admitted (filed : db.WellFiled) {app : Application}
    (admitted : AdmittedTo d db (k := .application) app) (inside : app.metadata.ns ≠ "") :
    ∃ ns : Namespace, db.find .ns (recordKey "" app.metadata.ns) = some ns := by
  obtain ⟨-, inNs, -⟩ := admitted
  rcases checkNamespaceExists_eq_ok_iff.1 inNs with none | ⟨ns, mem, named⟩
  · contradiction
  · exact ⟨ns, named ▸ find_ns filed mem⟩

variable {range : IDRange}

theorem ne_isZero_of_parse {text : String} (parsed : parseIDRange text = .ok range) :
    range.isZero = false := by
  obtain ⟨pos, -⟩ := bounds_of_parseIDRange parsed
  simp only [IDRange.isZero, Bool.and_eq_false_iff, beq_eq_false_iff_ne]
  exact .inr (by omega)

theorem blockOf_eq (filed : db.WellFiled) {name : String}
    (hit : db.find .ns (recordKey "" name) = some ns)
    (parsed : parseIDRange (blockText ns) = .ok range) : blockOf db name = .ok range := by
  have named : ns.metadata.name = name := by
    have own := (filed .ns _ ns hit).1
    exact (recordKey_inj (by simp [SlashFree]) (filed .ns _ ns hit).2.ns own).2.symm
  have set : blockText ns ≠ "" := by
    intro empty
    rw [empty] at parsed
    cases parsed
  rw [blockOf]
  cases found : (db.list .ns).find? fun other => other.metadata.name == name with
  | none =>
    have gone := List.find?_eq_none.1 found ns (DB.mem_list.2 ⟨_, hit⟩)
    exact absurd (beq_iff_eq.2 named) gone
  | some other =>
    have alike : other.metadata.name = name := by simpa using List.find?_some found
    have eq := find_ns filed (List.mem_of_find?_eq_some found)
    rw [alike, hit] at eq
    cases eq
    simp only [blockText] at set parsed
    simp [set, parsed]

end

/-! ## Runs -/

/-- One request through the default chain. -/
def serving (d : Deployment) (db : DB) (event : Event) : Option DB :=
  some (settle (defaultChain d) db event)

/-- What every accepted request keeps in a sound store holds in every store of a run. -/
theorem holds_of_reachable {d : Deployment} {allowed : DB → Event → Bool} {holds : DB → Prop}
    (initially : holds {})
    (kept : ∀ {db db' : DB} {event : Event}, Sound d db → Sound d db' → holds db →
      allowed db event = true →
      Effect (defaultChain d) event.sender.identity event.now db event.request db' → holds db')
    {db : DB} (reached : Transitions.Reachable (serving d) allowed {} db) :
    Sound d db ∧ holds db := by
  refine reached.invariant (fun db => Sound d db ∧ holds db) ⟨sound_empty d, initially⟩ ?_
  rintro db db' event ⟨sound, held⟩ may moved
  cases moved
  rcases settle_cases (defaultChain d) db event with done | eq
  · have effect := served sound.filed done
    exact ⟨sound.of_effect effect, kept sound (sound.of_effect effect) held may effect⟩
  rw [eq]
  exact ⟨sound, held⟩

/-! ## Tenants -/

/-- Blocks of different namespaces are disjoint, and so are the ids of their applications. -/
structure TenantsApart (db : DB) : Prop where
  blocks : ∀ {key key' : String} {a b : Namespace} {r s : IDRange}, db.find .ns key = some a →
    db.find .ns key' = some b → key ≠ key' → parseIDRange (blockText a) = .ok r →
    parseIDRange (blockText b) = .ok s → r.min + r.size ≤ s.min ∨ s.min + s.size ≤ r.min
  users : ∀ {a b : Application} {id : Int}, a ∈ db.list .application → b ∈ db.list .application →
    a.metadata.ns ≠ b.metadata.ns → runAsUser a = some id → runAsUser b ≠ some id
  groups : ∀ {a b : Application} {id : Int}, a ∈ db.list .application → b ∈ db.list .application →
    a.metadata.ns ≠ b.metadata.ns → a.spec.securityContext.bind (·.runAsGroup) = some id →
    b.spec.securityContext.bind (·.runAsGroup) ≠ some id

/-- A namespace is submitted with the block it has, and an application in a namespace. -/
def keepsBlocks (db : DB) (event : Event) : Bool :=
  match submitted db event.request with
  | some ⟨.ns, ns⟩ => blockText ns == (db.find .ns (keyOf ns)).elim "" blockText
  | some ⟨.application, app⟩ => (Application.metadata app).ns != ""
  | _ => true

/-- Every block is one the allocator hands out, no two are the same, and every application runs as
ids of its namespace's block. -/
structure Apportioned (db : DB) : Prop where
  handedOut : ∀ {key : String} {ns : Namespace}, db.find .ns key = some ns →
    ∃ i < blockCount, parseIDRange (blockText ns) = .ok (nthBlock i)
  apart : ∀ {key key' : String} {a b : Namespace} {r s : IDRange}, db.find .ns key = some a →
    db.find .ns key' = some b → key ≠ key' → parseIDRange (blockText a) = .ok r →
    parseIDRange (blockText b) = .ok s → r.min ≠ s.min
  inside : ∀ {key : String} {app : Application}, db.find .application key = some app →
    app.metadata.ns ≠ "" ∧ checkBlock db app = .ok ()

section

variable {d : Deployment} {db db' : DB}

theorem contains_of_checkInside {what ns : String} {block : IDRange} {id : Int}
    (passed : checkInside what ns block (some id) = .ok ()) : block.contains id = true := by
  simp only [checkInside] at passed
  split at passed
  · assumption
  · cases passed

variable {app : Application}

theorem Apportioned.ids (apportioned : Apportioned db) (sound : Sound d db)
    (mem : app ∈ db.list .application) :
    ∃ (ns : Namespace) (i : Nat) (user group : Int),
      db.find .ns (recordKey "" app.metadata.ns) = some ns ∧
      parseIDRange (blockText ns) = .ok (nthBlock i) ∧
      app.spec.securityContext = some { runAsUser := some user, runAsGroup := some group } ∧
      (∀ id, id = user ∨ id = group →
        (nthBlock i).min ≤ id ∧ id < (nthBlock i).min + (nthBlock i).size) := by
  obtain ⟨key, hit⟩ := DB.mem_list.1 mem
  obtain ⟨inNs, passed⟩ := apportioned.inside hit
  have admitted := sound.apps app mem
  obtain ⟨ns, found⟩ := find_ns_of_admitted sound.filed admitted inNs
  obtain ⟨i, bound, parsed⟩ := apportioned.handedOut found
  obtain ⟨⟨⟨user, group, context⟩, -⟩, -⟩ := admitted
  rw [checkBlock, blockOf_eq sound.filed found parsed] at passed
  simp only [ne_isZero_of_parse parsed, Bool.false_eq_true, if_false, context,
    Foundations.Checks.bind_eq_ok_iff] at passed
  obtain ⟨_, userInside, groupInside⟩ := passed
  refine ⟨ns, i, user, group, found, parsed, context, ?_⟩
  rintro id (rfl | rfl)
  · exact ((nthBlock_usable bound).contains_iff _).1 (contains_of_checkInside userInside)
  · exact ((nthBlock_usable bound).contains_iff _).1 (contains_of_checkInside groupInside)

theorem nthBlock_disjoint {i j : Nat} (apart : (nthBlock i).min ≠ (nthBlock j).min) :
    (nthBlock i).min + (nthBlock i).size ≤ (nthBlock j).min ∨
      (nthBlock j).min + (nthBlock j).size ≤ (nthBlock i).min := by
  simp only [nthBlock, workloadUIDBlock] at apart ⊢
  omega

theorem Apportioned.tenantsApart (apportioned : Apportioned db) (sound : Sound d db) :
    TenantsApart db := by
  have blocks : ∀ {key key' : String} {a b : Namespace} {r s : IDRange}, db.find .ns key = some a →
      db.find .ns key' = some b → key ≠ key' → parseIDRange (blockText a) = .ok r →
      parseIDRange (blockText b) = .ok s → r.min + r.size ≤ s.min ∨ s.min + s.size ≤ r.min := by
    intro key key' a b r s foundA foundB ne parsedA parsedB
    have starts := apportioned.apart foundA foundB ne parsedA parsedB
    obtain ⟨i, -, ofA⟩ := apportioned.handedOut foundA
    obtain ⟨j, -, ofB⟩ := apportioned.handedOut foundB
    cases parsedA.symm.trans ofA
    cases parsedB.symm.trans ofB
    exact nthBlock_disjoint starts
  -- One id of each of two applications: it lies in both blocks, or in none.
  have ids : ∀ {a b : Application} {user group user' group' : Int}, a ∈ db.list .application →
      b ∈ db.list .application → a.metadata.ns ≠ b.metadata.ns →
      a.spec.securityContext = some { runAsUser := some user, runAsGroup := some group } →
      b.spec.securityContext = some { runAsUser := some user', runAsGroup := some group' } →
      user ≠ user' ∧ group ≠ group' := by
    intro a b user group user' group' memberA memberB ne ofA ofB
    obtain ⟨nsA, i, userA, groupA, foundA, parsedA, contextA, insideA⟩ :=
      apportioned.ids sound memberA
    obtain ⟨nsB, j, userB, groupB, foundB, parsedB, contextB, insideB⟩ :=
      apportioned.ids sound memberB
    have keys : recordKey "" a.metadata.ns ≠ recordKey "" b.metadata.ns := by
      intro eq
      exact ne (recordKey_inj (by simp [SlashFree]) (by simp [SlashFree]) eq).2
    have disjoint := blocks foundA foundB keys parsedA parsedB
    rw [ofA] at contextA
    rw [ofB] at contextB
    cases contextA
    cases contextB
    have userHere := insideA user (.inl rfl)
    have userThere := insideB user' (.inl rfl)
    have groupHere := insideA group (.inr rfl)
    have groupThere := insideB group' (.inr rfl)
    omega
  refine ⟨blocks, ?_, ?_⟩
  all_goals
    intro a b id memberA memberB ne ofA ofB
    obtain ⟨⟨⟨user, group, contextA⟩, -⟩, -⟩ := sound.apps a memberA
    obtain ⟨⟨⟨user', group', contextB⟩, -⟩, -⟩ := sound.apps b memberB
    have apart := ids memberA memberB ne contextA contextB
    simp only [runAsUser, contextA, contextB, Option.bind_some, Option.some.injEq] at ofA ofB
  · exact apart.1 (ofA.trans ofB.symm)
  · exact apart.2 (ofA.trans ofB.symm)

/-- A namespace is submitted with the block that is stored for it, and with none before there is
one. -/
def SubmitsBlock (db : DB) (request : Request) : Prop :=
  ∀ {sent : Namespace}, submitted db request = some ⟨.ns, sent⟩ →
    blockText sent = (db.find .ns (keyOf (k := .ns) sent)).elim "" blockText

variable {ns ns' : Namespace}

theorem blockText_of_alike (alike : Alike (k := .ns) ns ns') : blockText ns' = blockText ns :=
  congrArg (fun annotations : StringMap => annotations.getD annUIDRange "") alike.annotations

theorem blockText_ne_empty (block : HasBlock ns) : blockText ns ≠ "" := by
  obtain ⟨range, parsed⟩ := block
  intro empty
  rw [blockText] at empty
  rw [empty] at parsed
  cases parsed

variable {who : Option Identity} {now : Time} {request : Request}

variable {key : String}

theorem block_stays {key : String} {ns ns' : Namespace}
    (origin : Origin (defaultChain d) who db request key (k := .ns) ns')
    (sentBack : ∀ {sent : Namespace}, submitted db request = some ⟨.ns, sent⟩ →
      keyOf (k := .ns) sent = key → blockText sent = blockText ns)
    (hit : db.find .ns key = some ns) (block : HasBlock ns) : blockText ns' = blockText ns := by
  cases origin with
  | before found alike =>
    cases hit.symm.trans found
    exact blockText_of_alike alike.toAlike
  | written sends own replaces ok alike =>
    have eq := sentBack sends own.symm
    have stored := (block_of_run rfl (writing_ne_delete _) ok).1
    rw [blockText_of_alike alike.toAlike, stored (eq ▸ blockText_ne_empty block), eq]

theorem SubmitsBlock.stored (submits : SubmitsBlock db request) {sent : Namespace}
    (hit : db.find .ns key = some ns) (sends : submitted db request = some ⟨.ns, sent⟩)
    (own : keyOf (k := .ns) sent = key) : blockText sent = blockText ns := by
  have eq := submits sends
  rwa [own, hit, Option.elim_some] at eq

theorem block_of_new (sound : Sound d db) (sound' : Sound d db')
    (present : db'.find .ns key = some ns')
    (origin : Origin (defaultChain d) who db request key (k := .ns) ns')
    (submits : SubmitsBlock db request) (gone : db.find .ns key = none) :
    ∃ i < blockCount, parseIDRange (blockText ns') = .ok (nthBlock i) ∧
      ∀ {other : Namespace} {r : IDRange}, other ∈ db.list .ns →
        parseIDRange (blockText other) = .ok r → r.min ≠ (nthBlock i).min := by
  cases origin with
  | before found => cases gone.symm.trans found
  | @written sent object old sends own replaces ok alike =>
    have empty := submits sends
    rw [← own, gone, Option.elim_none] at empty
    obtain ⟨i, bound, parsed, free⟩ := (block_of_run rfl (writing_ne_delete _) ok).2 empty
    refine ⟨i, bound, (blockText_of_alike alike.toAlike).symm ▸ parsed, ?_⟩
    intro other r mem held start
    have named : ns'.metadata.name = (Namespace.metadata sent).name :=
      alike.name.trans (admitted_sameIdentity (defaultChain_keepsIdentity d) ok).name
    by_cases same : other.metadata.name = (Namespace.metadata sent).name
    · -- It would be filed where the new one is.
      have hit := find_ns sound.filed mem
      have eq := find_ns sound'.filed (DB.mem_list.2 ⟨key, present⟩)
      have keyed := (sound'.filed .ns _ ns' present).1.trans (sound'.filed .ns _ ns' eq).1.symm
      rw [same, ← named, ← keyed, gone] at hit
      cases hit
    rw [← start, blockTaken_of_mem mem same held] at free
    cases free

theorem checkBlock_congr {app' : Application} (alike : Alike (k := .application) app app') :
    checkBlock db app' = checkBlock db app := by
  have ns : app'.metadata.ns = app.metadata.ns := alike.ns
  rw [checkBlock, checkBlock, ns, alike.app_spec]

theorem checkBlock_stays (sound : Sound d db) (sound' : Sound d db')
    (effect : Effect (defaultChain d) who now db request db') (submits : SubmitsBlock db request)
    (inside : app.metadata.ns ≠ "") (admitted : AdmittedTo d db (k := .application) app)
    (admitted' : AdmittedTo d db' (k := .application) app) (passed : checkBlock db app = .ok ()) :
    checkBlock db' app = .ok () := by
  obtain ⟨ns, found⟩ := find_ns_of_admitted sound.filed admitted inside
  obtain ⟨ns', found'⟩ := find_ns_of_admitted sound'.filed admitted' inside
  have block := sound.blocks ns (DB.mem_list.2 ⟨_, found⟩)
  have eq := block_stays (sound.origin effect found') (submits.stored found) found block
  obtain ⟨range, parsed⟩ := block
  have pre := blockOf_eq sound.filed found parsed
  have after := blockOf_eq sound'.filed found' ((congrArg parseIDRange eq).trans parsed)
  rwa [checkBlock, after, ← pre, ← checkBlock]

theorem Apportioned.of_effect {event : Event} (sound : Sound d db) (sound' : Sound d db')
    (apportioned : Apportioned db) (keeps : keepsBlocks db event = true)
    (effect : Effect (defaultChain d) event.sender.identity event.now db event.request db') :
    Apportioned db' := by
  have submits : SubmitsBlock db event.request := by
    intro sent sends
    simpa [keepsBlocks, sends] using keeps
  have origin := fun {k : Kind} {key : String} {o : Obj k} (hit : db'.find k key = some o) =>
    sound.origin effect hit
  have stays : ∀ {key : String} {ns ns' : Namespace}, db'.find .ns key = some ns' →
      db.find .ns key = some ns → blockText ns' = blockText ns := fun hit before =>
    block_stays (origin hit) (submits.stored before) before
      (sound.blocks _ (DB.mem_list.2 ⟨_, before⟩))
  constructor
  case handedOut =>
    intro key ns' hit
    cases before : db.find .ns key with
    | none =>
      obtain ⟨i, bound, parsed, -⟩ := block_of_new sound sound' hit (origin hit) submits before
      exact ⟨i, bound, parsed⟩
    | some ns =>
      rw [stays hit before]
      exact apportioned.handedOut before
  case apart =>
    -- At most one of two namespaces is new.
    have fresh : ∀ {key key' : String} {a b : Namespace} {r s : IDRange},
      db'.find .ns key = some a →
        db'.find .ns key' = some b → db.find .ns key = none → db.find .ns key' ≠ none →
        parseIDRange (blockText a) = .ok r → parseIDRange (blockText b) = .ok s →
          r.min ≠ s.min := by
      intro key key' a b r s foundA foundB new old parsedA parsedB
      obtain ⟨i, -, parsed, free⟩ := block_of_new sound sound' foundA (origin foundA) submits new
      obtain ⟨b₀, before⟩ := Option.ne_none_iff_exists'.1 old
      rw [stays foundB before] at parsedB
      cases parsedA.symm.trans parsed
      exact (free (DB.mem_list.2 ⟨_, before⟩) parsedB).symm
    intro key key' a b r s foundA foundB ne parsedA parsedB
    cases oldA : db.find .ns key with
    | none =>
      refine fresh foundA foundB oldA ?_ parsedA parsedB
      intro oldB
      obtain ⟨sent, sends, own⟩ := (origin foundA).of_absent oldA
      obtain ⟨sent', sends', own'⟩ := (origin foundB).of_absent oldB
      cases sends.symm.trans sends'
      exact ne (own.trans own'.symm)
    | some a₀ =>
      cases oldB : db.find .ns key' with
      | none => exact (fresh foundB foundA oldB (by simp [oldA]) parsedB parsedA).symm
      | some b₀ =>
        rw [stays foundA oldA] at parsedA
        rw [stays foundB oldB] at parsedB
        exact apportioned.apart oldA oldB ne parsedA parsedB
  case inside =>
    intro key app hit
    have member := DB.mem_list.2 ⟨key, hit⟩
    have passes := fun (inside : app.metadata.ns ≠ "") admitted =>
      checkBlock_stays sound sound' effect submits inside
      admitted (sound'.apps app member)
    cases origin hit with
    | @before old found alike =>
      have ns : app.metadata.ns = (Application.metadata old).ns := alike.ns
      obtain ⟨inNs, passed⟩ := apportioned.inside found
      rw [← ns] at inNs
      rw [← checkBlock_congr alike.toAlike] at passed
      have admitted := (sound.apps old (DB.mem_list.2 ⟨_, found⟩)).alike alike.toAlike
      exact ⟨inNs, passes inNs admitted passed⟩
    | @written sent object old sends own replaces ok alike =>
      have inNs : app.metadata.ns ≠ "" := by
        have ns : app.metadata.ns = (Application.metadata sent).ns :=
          alike.ns.trans (admitted_sameIdentity (defaultChain_keepsIdentity d) ok).ns
        rw [ns]
        simpa [keepsBlocks, sends] using keeps
      obtain ⟨-, -, -, -, -, -, passed⟩ := workload_of_run rfl (writing_ne_delete _) ok
      rw [← checkBlock_congr alike.toAlike] at passed
      have admitted := (admittedTo_of_run _ rfl (writing_ne_delete _) ok).alike alike.toAlike
      exact ⟨inNs, passes inNs admitted passed⟩

theorem tenants_share_no_ids (d : Deployment)
    (reached : Transitions.Reachable (serving d) keepsBlocks {} db) : TenantsApart db := by
  have initially : Apportioned {} := by
    constructor
    all_goals
      intros
      rename_i present
      simp [DB.find] at *
  obtain ⟨sound, apportioned⟩ := holds_of_reachable initially
    (fun sound sound' apportioned keeps effect => apportioned.of_effect sound sound' keeps effect) reached
  exact apportioned.tenantsApart sound

end

/-! ### A tenant that declares its block -/

theorem application_scope (ns : String) : Kind.application.namespaced = false → ns = "" := by
  simp [Kind.application_namespaced]

def createTenant (name : String) (annotations : StringMap) : Event :=
  byOperator 1 (.create .ns (clusterScope .ns)
    { metadata := { name := name, annotations := annotations } })

def workloadBody (name : String) (user : Option Int) : Application where
  metadata := { name := name }
  spec := { image := "web:1", securityContext := some { runAsUser := user } }

def createWorkload (ns name : String) (user : Option Int) : Event :=
  byOperator 2 (.create .application ⟨ns, application_scope ns⟩ (workloadBody name user))

def tenantBlock (db : DB) (name : String) : Option String := (db.get .ns "" name).map blockText

def workloadId (db : DB) (ns name : String) :
    Option Int := (db.get .application ns name).bind runAsUser

def firstBlock : String := "1000000000/65536"

/-- **A namespace that declares its block gets it.**  The second namespace arrives with the block
the first one was given, and the first application of each runs as the same id. -/
theorem declared_block_is_shared :
    ∃ db, Transitions.Reachable (serving plainDeployment) (fun _ _ => true) {} db ∧
      workloadId db "a" "web" = some 1000000000 ∧ workloadId db "b" "web" = some 1000000000 ∧
      ¬ TenantsApart db := by
  obtain ⟨db, ran, ofA, ofB, webA, webB⟩ : ∃ db, Transitions.Reachable (serving plainDeployment)
      (fun _ _ => true) {} db ∧ tenantBlock db "a" = some firstBlock ∧
        tenantBlock db "b" = some firstBlock ∧
      workloadId db "a" "web" = some 1000000000 ∧ workloadId db "b" "web" = some 1000000000 :=
    exists_of_run [createTenant "a" ∅,
      createTenant "b" ((∅ : StringMap).insert annUIDRange firstBlock),
      createWorkload "a" "web" none, createWorkload "b" "web" none] (by decide +kernel)
  refine ⟨db, ran, webA, webB, fun apart => ?_⟩
  obtain ⟨a, foundA, textA⟩ := Option.map_eq_some_iff.1 ofA
  obtain ⟨b, foundB, textB⟩ := Option.map_eq_some_iff.1 ofB
  have parsed : parseIDRange firstBlock = .ok ⟨1000000000, 65536⟩ := by decide +kernel
  have disjoint := apart.blocks foundA foundB (by decide) (textA ▸ parsed) (textB ▸ parsed)
  simp at disjoint

theorem tenants_share_no_ids_two :
    ∃ db, Transitions.Reachable (serving plainDeployment) keepsBlocks {} db ∧
      workloadId db "a" "web" = some 1000000000 ∧ workloadId db "b" "web" = some 1000065536 ∧
      TenantsApart db := by
  obtain ⟨db, ran, webA, webB⟩ : ∃ db,
    Transitions.Reachable (serving plainDeployment) keepsBlocks {} db ∧
      workloadId db "a" "web" = some 1000000000 ∧ workloadId db "b" "web" = some 1000065536 :=
    exists_of_run [createTenant "a" ∅, createTenant "b" ∅, createWorkload "a" "web" none,
      createWorkload "b" "web" none] (by decide +kernel)
  exact ⟨db, ran, webA, webB, tenants_share_no_ids plainDeployment ran⟩

/-! ## Workloads of one tenant -/

/-- No application is submitted with an id that another one of its namespace holds. -/
def asksForFree (db : DB) (event : Event) : Bool :=
  match submitted db event.request with
  | some ⟨.application, app⟩ => (runAsUser app).all fun id => !idTaken db app id
  | _ => true

/-- Applications of one namespace run as different users. -/
def OwnIds (db : DB) : Prop :=
  ∀ (key key' : String) (a b : Application), db.find .application key = some a →
    db.find .application key' = some b → key ≠ key' → a.metadata.ns = b.metadata.ns →
    a.metadata.ns ≠ "" → runAsUser a ≠ runAsUser b

section

variable {d : Deployment} {db db' : DB} {who : Option Identity} {request : Request}

theorem ne_of_idTaken {app other : Application} {id : Int} (free : idTaken db app id = false)
    (mem : other ∈ db.list .application) (nsEq : other.metadata.ns = app.metadata.ns)
    (ne : other.metadata.name ≠ app.metadata.name) : runAsUser other ≠ some id := by
  intro eq
  have others := List.any_eq_false.1 free other mem
  simp [nsEq, ne, eq] at others

theorem written_id_free {sent object : Application} {operation : Operation}
    {old : Option Application} (sound : Sound d db) (writes : operation ≠ .delete)
    (ok : (defaultChain d).run ⟨who, db⟩
      { operation := operation, object := sent, oldObject := old : Attributes .application } =
        .ok object)
    (inside : sent.metadata.ns ≠ "") (asked : (runAsUser sent).all fun id => !idTaken db sent id) :
    ∃ id, runAsUser object = some id ∧ idTaken db sent id = false := by
  cases user : runAsUser sent with
  | some id =>
    refine ⟨id, runAsUser_of_sent rfl writes ok user, ?_⟩
    simpa [user] using asked
  | none =>
    have admitted := admittedTo_of_run _ rfl writes ok
    have eq := admitted_sameIdentity (defaultChain_keepsIdentity d) ok
    have ns : object.metadata.ns = sent.metadata.ns := eq.ns
    obtain ⟨ns', found⟩ := find_ns_of_admitted sound.filed admitted (ns.symm ▸ inside)
    obtain ⟨range, parsed⟩ := sound.blocks ns' (DB.mem_list.2 ⟨_, found⟩)
    have block := blockOf_eq sound.filed found parsed
    rw [ns] at block
    exact runAsUser_of_unsent rfl writes ok user block (ne_isZero_of_parse parsed)

theorem OwnIds.of_effect {event : Event} (sound : Sound d db) (sound' : Sound d db')
    (own : OwnIds db)
    (asks : asksForFree db event = true)
    (effect : Effect (defaultChain d) event.sender.identity event.now db event.request db') :
    OwnIds db' := by
  have user : ∀ {a b : Application}, Alike (k := .application) a b → runAsUser b = runAsUser a :=
    fun alike => runAsUser_eq alike.app_spec
  have origin := fun {key : String} {app : Application}
    (hit : db'.find .application key = some app) => sound.origin effect hit
  -- A written application against one that was there before.
  have apart : ∀ {key key' : String} {a b sent object b₀ : Application} {operation : Operation}
      {old : Option Application}, db'.find .application key = some a →
      db'.find .application key' = some b → key ≠ key' → a.metadata.ns = b.metadata.ns →
      a.metadata.ns ≠ "" → submitted db event.request = some ⟨.application, sent⟩ →
      operation ≠ .delete →
      (defaultChain d).run ⟨event.sender.identity, db⟩
        { operation := operation, object := sent, oldObject := old : Attributes .application } =
          .ok object →
      Alike (k := .application) object a → db.find .application key' = some b₀ →
      Alike (k := .application) b₀ b → runAsUser a ≠ runAsUser b := by
    intro key key' a b sent object b₀ operation old foundA foundB ne nsEq inside sends writes
      ok alikeA before alikeB
    have eq := admitted_sameIdentity (defaultChain_keepsIdentity d) ok
    have nsA : a.metadata.ns = sent.metadata.ns := alikeA.ns.trans eq.ns
    have nameA : a.metadata.name = sent.metadata.name := alikeA.name.trans eq.name
    have nsB : b.metadata.ns = b₀.metadata.ns := alikeB.ns
    have nameB : b.metadata.name = b₀.metadata.name := alikeB.name
    obtain ⟨id, written, free⟩ := written_id_free sound writes ok (nsA ▸ inside)
      (by simpa [asksForFree, sends] using asks)
    have names : b₀.metadata.name ≠ sent.metadata.name := by
      intro nameEq
      rw [(sound'.filed _ _ _ foundA).1, (sound'.filed _ _ _ foundB).1] at ne
      refine ne ?_
      change recordKey a.metadata.ns a.metadata.name = recordKey b.metadata.ns b.metadata.name
      rw [nsEq, nameA, nameB, nameEq]
    rw [user alikeA, user alikeB, written]
    exact (ne_of_idTaken free (DB.mem_list.2 ⟨_, before⟩) (nsB.symm.trans (nsEq.symm.trans nsA))
      names).symm
  intro key key' a b foundA foundB ne nsEq inside
  cases origin foundA with
  | before beforeA alikeA =>
    cases origin foundB with
    | before beforeB alikeB =>
      rw [user alikeA.toAlike, user alikeB.toAlike]
      exact own _ _ _ _ beforeA beforeB ne (alikeA.ns.symm.trans (nsEq.trans alikeB.ns))
        (fun none => inside (alikeA.ns.trans none))
    | written sends ownKey replaces ok alikeB =>
      exact (apart foundB foundA (Ne.symm ne) nsEq.symm (nsEq ▸ inside) sends (writing_ne_delete _)
        ok alikeB.toAlike beforeA alikeA.toAlike).symm
  | written sends ownKey replaces ok alikeA =>
    cases origin foundB with
    | before beforeB alikeB =>
      exact apart foundA foundB ne nsEq inside sends (writing_ne_delete _) ok
        alikeA.toAlike beforeB alikeB.toAlike
    | written sends' ownKey' =>
      cases sends.symm.trans sends'
      exact absurd (ownKey.trans ownKey'.symm) ne

theorem workload_id_is_own (d : Deployment)
    (reached : Transitions.Reachable (serving d) asksForFree {} db) {key key' : String}
    {a b : Application} {ns : Namespace} (foundA : db.find .application key = some a)
    (foundB : db.find .application key' = some b) (different : key ≠ key')
    (sameNs : a.metadata.ns = b.metadata.ns)
    (stored : db.find .ns (recordKey "" a.metadata.ns) = some ns) : runAsUser a ≠ runAsUser b := by
  have initially : OwnIds {} := by
    intro key key' a b found
    simp [DB.find] at found
  obtain ⟨sound, own⟩ := holds_of_reachable initially
    (fun sound sound' own asks effect => own.of_effect sound sound' asks effect) reached
  refine own _ _ _ _ foundA foundB different sameNs ?_
  obtain ⟨keyed, identified⟩ := sound.filed .ns _ ns stored
  rw [(recordKey_inj (by simp [SlashFree]) identified.ns keyed).2]
  exact sound.named .ns _ ns stored

end

/-- **A requested id is not compared with the others.**  The second application asks for the id the
first one was given. -/
theorem requested_id_is_shared :
    ∃ db, Transitions.Reachable (serving plainDeployment) (fun _ _ => true) {} db ∧
      tenantBlock db "team" = some firstBlock ∧ workloadId db "team" "web" = some 1000000000 ∧
      workloadId db "team" "api" = some 1000000000 :=
  exists_of_run [createTenant "team" ∅, createWorkload "team" "web" none,
    createWorkload "team" "api" (some 1000000000)] (by decide +kernel)

theorem workload_id_is_own_team :
    ∃ db, Transitions.Reachable (serving plainDeployment) asksForFree {} db ∧
      ∃ web api : Application, db.get .application "team" "web" = some web ∧
        db.get .application "team" "api" = some api ∧ runAsUser web ≠ runAsUser api := by
  obtain ⟨db, ran, ofWeb, ofApi, ofTeam⟩ : ∃ db, Transitions.Reachable (serving plainDeployment)
      asksForFree {} db ∧ (db.get .application "team" "web").map (·.metadata.ns) = some "team" ∧
      (db.get .application "team" "api").map (·.metadata.ns) = some "team" ∧
      tenantBlock db "team" = some firstBlock :=
    exists_of_run [createTenant "team" ∅, createWorkload "team" "web" none,
      createWorkload "team" "api" (some 1000000007)] (by decide +kernel)
  obtain ⟨web, foundWeb, nsWeb⟩ := Option.map_eq_some_iff.1 ofWeb
  obtain ⟨api, foundApi, nsApi⟩ := Option.map_eq_some_iff.1 ofApi
  obtain ⟨ns, found, -⟩ := Option.map_eq_some_iff.1 ofTeam
  exact ⟨db, ran, web, api, foundWeb, foundApi,
    workload_id_is_own plainDeployment ran foundWeb foundApi (by decide)
      (nsWeb.trans nsApi.symm) (nsWeb.symm ▸ found)⟩

/-! ## What is stored first -/

/-- A store, with the ids and the blocks its objects were first stored with. -/
structure Watched where
  db : DB := {}
  ids : String → Option Int := fun _ => none
  blocks : String → String := fun _ => ""

/-- What a record was first stored with, after a step of the store. -/
def first {k : Kind} {α : Type} (value : Obj k → α) (before after : Option (Obj k)) (known : α) :
    α :=
  match before, after with
  | none, some o => value o
  | _, _ => known

theorem eq_first {k : Kind} {α : Type} {value : Obj k → α} {before after : Option (Obj k)}
    {known : α}
    {o : Obj k} (hit : after = some o) (kept : ∀ old, before = some old → value o = known) :
    value o = first value before after known := by
  subst hit
  cases before with
  | none => rfl
  | some old => exact kept old rfl

def Watched.step (d : Deployment) (w : Watched) (event : Event) : Option Watched :=
  let db := settle (defaultChain d) w.db event
  some {
    db := db
    ids key := first (k := .application) runAsUser (w.db.find .application key)
      (db.find .application key) (w.ids key)
    blocks key := first (k := .ns) blockText (w.db.find .ns key) (db.find .ns key) (w.blocks key) }

/-- What is submitted for a stored object carries its id or its block. -/
def sendsBack (w : Watched) (event : Event) : Bool :=
  match submitted w.db event.request with
  | some ⟨.ns, ns⟩ =>
    (w.db.find .ns (keyOf (k := .ns) ns)).all fun stored => blockText ns == blockText stored
  | some ⟨.application, app⟩ =>
    (w.db.find .application (keyOf (k := .application) app)).all fun stored =>
      runAsUser app == runAsUser stored
  | _ => true

/-- Every id and every block is the one its object was first stored with. -/
structure Watched.Unmoved (w : Watched) : Prop where
  ids : ∀ (key : String) (app : Application), w.db.find .application key = some app →
    runAsUser app = w.ids key
  blocks : ∀ (key : String) (ns : Namespace), w.db.find .ns key = some ns →
    blockText ns = w.blocks key

section

variable {d : Deployment} {w w' : Watched} {event : Event}

theorem id_stays {db : DB} {who : Option Identity} {request : Request} {key : String}
    {app app' : Application}
    (origin : Origin (defaultChain d) who db request key (k := .application) app')
    (sentBack : ∀ {sent : Application}, submitted db request = some ⟨.application, sent⟩ →
      keyOf (k := .application) sent = key → runAsUser sent = runAsUser app)
    (hit : db.find .application key = some app) (ids : HasIDs app.spec) :
    runAsUser app' = runAsUser app := by
  cases origin with
  | before found alike =>
    cases hit.symm.trans found
    exact runAsUser_eq alike.app_spec
  | written sends own replaces ok alike =>
    obtain ⟨user, group, context⟩ := ids
    have stored : runAsUser app = some user := by simp [runAsUser, context]
    have sent := (sentBack sends own.symm).trans stored
    rw [runAsUser_eq alike.app_spec, runAsUser_of_sent rfl (writing_ne_delete _) ok sent, stored]

theorem Watched.Unmoved.step (sound : Sound d w.db) (unmoved : w.Unmoved)
    (sends : sendsBack w event = true) (moved : w.step d event = some w') :
    Sound d w'.db ∧ w'.Unmoved := by
  cases moved
  rcases settle_cases (defaultChain d) w.db event with done | eq
  · have effect := served sound.filed done
    refine ⟨sound.of_effect effect, ⟨?_, ?_⟩⟩
    · intro key app hit
      refine eq_first hit fun old pre => ?_
      have ids := (sound.apps old (DB.mem_list.2 ⟨_, pre⟩)).1.1
      refine (id_stays (sound.origin effect hit) ?_ pre ids).trans (unmoved.ids key old pre)
      intro sent submits own
      rw [← own] at pre
      simpa [sendsBack, submits, pre] using sends
    intro key ns hit
    refine eq_first hit fun old pre => ?_
    have block := sound.blocks old (DB.mem_list.2 ⟨_, pre⟩)
    refine (block_stays (sound.origin effect hit) ?_ pre block).trans
      (unmoved.blocks key old pre)
    intro sent submits own
    rw [← own] at pre
    simpa [sendsBack, submits, pre] using sends
  dsimp only
  rw [eq]
  refine ⟨sound, ⟨?_, ?_⟩⟩
  · exact fun key app hit => eq_first hit fun _ _ => unmoved.ids key app hit
  · exact fun key ns hit => eq_first hit fun _ _ => unmoved.blocks key ns hit

theorem assigned_ids_stay (d : Deployment)
    (reached : Transitions.Reachable (Watched.step d) sendsBack {} w) : w.Unmoved := by
  have initially : Watched.Unmoved {} := by
    constructor
    all_goals
      intro key o present
      simp [DB.find] at present
  have invariant := reached.invariant (fun w => Sound d w.db ∧ w.Unmoved)
    ⟨sound_empty d, initially⟩ fun held sends happened => held.2.step held.1 sends happened
  exact invariant.2

end

def deleteWorkload (ns name : String) : Event :=
  byOperator 3 (.delete .application ⟨ns, application_scope ns⟩ name false)

def updateWorkload (ns name : String) (user : Option Int) : Event :=
  byOperator 4 (.update .application ⟨ns, application_scope ns⟩ name (workloadBody name user))

/-- **An id that is left out of an update is drawn anew.**  The second application of a namespace is
updated, without its id, after the first one is gone: it takes the id the first one had. -/
theorem omitted_id_moves :
    ∃ w : Watched, Transitions.Reachable (Watched.step plainDeployment) (fun _ _ => true) {} w ∧
      workloadId w.db "team" "api" = some 1000000000 ∧ w.ids "team/api" = some 1000000001 ∧
      ¬ w.Unmoved := by
  obtain ⟨w, ran, now, first⟩ : ∃ w, Transitions.Reachable (Watched.step plainDeployment)
      (fun _ _ => true) {} w ∧ workloadId w.db "team" "api" = some 1000000000 ∧
      w.ids "team/api" = some 1000000001 :=
    exists_of_run [createTenant "team" ∅, createWorkload "team" "web" none,
      createWorkload "team" "api" none, deleteWorkload "team" "web",
        updateWorkload "team" "api" none]
      (by decide +kernel)
  refine ⟨w, ran, now, first, fun unmoved => ?_⟩
  obtain ⟨app, found, user⟩ := Option.bind_eq_some_iff.1 now
  rw [unmoved.ids "team/api" app found, first] at user
  cases user

theorem assigned_ids_stay_api :
    ∃ w : Watched, Transitions.Reachable (Watched.step plainDeployment) sendsBack {} w ∧
      workloadId w.db "team" "api" = some 1000000001 ∧ w.Unmoved := by
  obtain ⟨w, ran, kept⟩ : ∃ w, Transitions.Reachable (Watched.step plainDeployment) sendsBack {} w ∧
      workloadId w.db "team" "api" = some 1000000001 :=
    exists_of_run [createTenant "team" ∅, createWorkload "team" "web" none,
      createWorkload "team" "api" none, deleteWorkload "team" "web",
      updateWorkload "team" "api" (some 1000000001)] (by decide +kernel)
  exact ⟨w, ran, kept, assigned_ids_stay plainDeployment ran⟩

end Horchestra.Requests
