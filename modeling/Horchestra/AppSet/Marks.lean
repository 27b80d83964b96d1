import Horchestra.Foundations.Transitions
import Horchestra.Service.Deletion
import Horchestra.Service.Soundness

/-!
# The marks of a set on its children

A child carries the reference of its set, two reserved labels and the digest of its rendered spec.
Identified callers write applications through a plugin that refuses these marks on a new application
and carries them over from the stored one on every other write; the loops of the control plane carry
no identity and write what they like.

`marks_are_the_loops` says, over every run of requests by anyone, that the marks of a stored
application are exactly those of the version of it that a loop stored last, and that while a set owns
it its spec is that version's: nothing is forged, moved or dropped.  An application no loop has
written carries no mark at all.
-/

namespace Horchestra.AppSet

open Api Storage Admission Requests
open Foundations.Transitions (run exists_of_run Reachable)

/-! ## Runs -/

/-- The store, and the versions of applications the loops have stored, the latest first. -/
structure Ledger where
  db : DB := {}
  writes : List Application := []

/-- The application a loop's accepted request has stored. -/
def loopWrote (db db' : DB) (event : Event) : Option Application :=
  match event.sender, submitted db event.request with
  | .loop, some ⟨.application, sent⟩ => db'.find .application (keyOf (k := .application) sent)
  | _, _ => none

def Ledger.step (d : Deployment) (l : Ledger) (event : Event) : Option Ledger :=
  match serve (servingChain d) event.sender.identity event.now l.db event.request with
  | .ok db' => some ⟨db', (loopWrote l.db db' event).toList ++ l.writes⟩
  | .error _ => some l

/-! ## The property -/

/-- The version of the application of a uid that a loop stored last. -/
def lastWritten (writes : List Application) (uid : String) : Option Application :=
  writes.find? fun app => app.metadata.uid == uid

/-- The marks are the written version's, and under a set so is the spec. -/
structure SameMarks (written app : Application) : Prop where
  references : app.metadata.ownerReferences = written.metadata.ownerReferences
  labels : ∀ key ∈ reservedChildLabels, app.metadata.labels[key]? = written.metadata.labels[key]?
  hash : app.metadata.annotations[annAppsetSpecHash]? =
    written.metadata.annotations[annAppsetSpecHash]?
  spec : appsetOwnerOf app.metadata.ownerReferences ≠ none → app.spec = written.spec

structure Unmarked (app : Application) : Prop where
  references : appsetOwnerOf app.metadata.ownerReferences = none
  labels : ∀ key ∈ reservedChildLabels, app.metadata.labels[key]? = none
  hash : app.metadata.annotations[annAppsetSpecHash]? = none

/-- The marks of an application are those a loop has given it. -/
def Backed (writes : List Application) (app : Application) : Prop :=
  match lastWritten writes app.metadata.uid with
  | some written => SameMarks written app
  | none => Unmarked app

/-! ## What the plugin lets through -/

section

variable {d : Deployment} {db : DB} {who : Option Identity}

theorem getElem?_carryOver_self (sent stored : StringMap) (key : String) :
    (carryOver sent stored key)[key]? = stored[key]? := by
  rw [carryOver]
  split <;> rename_i found
  · simp [found]
  · simp [found]

variable {key : String}

theorem getElem?_carryOver_of_ne (sent stored : StringMap) {key' : String}
    (ne : key ≠ key') : (carryOver sent stored key)[key']? = sent[key']? := by
  rw [carryOver]
  split
  · simp [Std.ExtTreeMap.getElem?_insert, ne]
  · simp [Std.ExtTreeMap.getElem?_erase, ne]

theorem labels_carryOwnership (sent stored : ObjectMeta) (reserved : key ∈ reservedChildLabels) :
    (carryOwnership sent stored).labels[key]? = stored.labels[key]? := by
  simp only [reservedChildLabels, List.mem_cons, List.not_mem_nil, or_false] at reserved
  simp only [carryOwnership, reservedChildLabels, List.foldl_cons, List.foldl_nil]
  rcases reserved with rfl | rfl
  · rw [getElem?_carryOver_of_ne _ _ (by decide), getElem?_carryOver_self]
  · exact getElem?_carryOver_self _ _ _

variable {object sent : Application}

theorem marks_of_run {a : Attributes .application}
    (ok : (servingChain d).run ⟨who, db⟩ a = .ok object) :
    ∃ owned : Application, childOwnership.admitPass .application ⟨who, db⟩ a = .ok owned ∧
      object.metadata.ownerReferences = owned.metadata.ownerReferences ∧
      object.metadata.labels = owned.metadata.labels ∧
      object.metadata.annotations = owned.metadata.annotations := by
  obtain ⟨rewritten, -⟩ := Chain.run_eq_ok_iff.1 (run_of_guarded ok)
  obtain ⟨owned, held, assigned, owns, holds, assigns, floors⟩ := admitPass_application.1 rewritten
  obtain ⟨fins, rfl⟩ := finalizerOwnership_same holds
  obtain ⟨_, rfl⟩ := uidAllocation_same assigns
  obtain ⟨_, rfl⟩ := policyEnforcement_same floors
  exact ⟨owned, owns, rfl, rfl, rfl⟩

variable {id : Identity}

theorem unmarked_of_created {id : Identity} {sent object : Application}
    (ok : (servingChain d).run ⟨some id, db⟩
      { operation := .create, object := sent : Attributes .application } = .ok object) :
    Unmarked object := by
  obtain ⟨owned, owns, refs, labels, annotations⟩ := marks_of_run ok
  simp only [childOwnership, clientWrite, Attributes.isSubresource] at owns
  simp only [reduceCtorEq, decide_false, ne_eq, not_true_eq_false, Option.isNone_some, Bool.or_self,
    Bool.not_false, Bool.not_true, Bool.false_eq_true, if_false] at owns
  split at owns
  · cases owns
  rename_i unowned
  cases owns
  unfold checkUnowned at unowned
  split at unowned
  · cases unowned
  rename_i noOwner
  split at unowned
  · cases unowned
  rename_i noHash
  split at unowned
  · cases unowned
  rename_i noLabels
  refine ⟨by rw [refs]; exact noOwner, ?_, ?_⟩
  · intro key reserved
    have gone := List.find?_eq_none.1 noLabels key reserved
    rw [labels]
    simpa using gone
  rw [annotations]
  simpa using noHash

theorem sameMarks_of_replaced {id : Identity} {sent stored object : Application}
    (ok : (servingChain d).run ⟨some id, db⟩
      { operation := .update, object := sent, oldObject := some stored : Attributes .application } =
        .ok object) : SameMarks stored object := by
  obtain ⟨owned, owns, refs, labels, annotations⟩ := marks_of_run ok
  obtain ⟨-, passed⟩ := Chain.run_eq_ok_iff.1 (run_of_guarded ok)
  have kept := passed childOwnership (by simp [defaultChain])
  simp only [childOwnership, clientWrite, Attributes.isSubresource, reduceCtorEq, decide_false, ne_eq,
    not_true_eq_false, Option.isNone_some, Bool.or_self, Bool.not_false, Bool.not_true,
    Bool.false_eq_true, if_false, Except.ok.injEq] at owns kept
  subst owns
  refine ⟨refs, ?_, ?_, ?_⟩
  · intro key reserved
    rw [labels]
    exact labels_carryOwnership _ _ reserved
  · rw [annotations]
    exact getElem?_carryOver_self _ _ _
  · intro isOwned
    rw [refs] at isOwned
    split at kept
    · exact absurd ‹_› isOwned
    split at kept
    · assumption
    · cases kept

end

/-! ## Steps -/

section

variable {writes : List Application} {app : Application}

theorem SameMarks.refl (app : Application) : SameMarks app app :=
  ⟨rfl, fun _ _ => rfl, rfl, fun _ => rfl⟩

variable {out old first second : Application}

theorem sameMarks_of_stores {object : Application}
    (stores : Stores (k := .application) object out) : SameMarks object out :=
  ⟨stores.references, fun key _ => congrArg (fun labels : StringMap => labels[key]?) stores.labels,
    congrArg (fun annotations : StringMap => annotations[annAppsetSpecHash]?) stores.annotations,
    fun _ => stores.app_spec⟩

theorem sameMarks_of_touched (eq : Touched (k := .application) old out) : SameMarks old out :=
  ⟨eq.references, fun key _ => congrArg (fun labels : StringMap => labels[key]?) eq.labels,
    congrArg (fun annotations : StringMap => annotations[annAppsetSpecHash]?) eq.annotations,
    fun _ => eq.app_spec⟩

theorem SameMarks.trans {third : Application} (pre : SameMarks first second)
    (after : SameMarks second third) : SameMarks first third where
  references := after.references.trans pre.references
  labels key reserved := (after.labels key reserved).trans (pre.labels key reserved)
  hash := after.hash.trans pre.hash
  spec isOwned := (after.spec isOwned).trans (pre.spec (after.references ▸ isOwned))

theorem Unmarked.of_sameMarks (unmarked : Unmarked first) (eq : SameMarks first second) :
    Unmarked second where
  references := by
    rw [eq.references]
    exact unmarked.references
  labels key reserved := (eq.labels key reserved).trans (unmarked.labels key reserved)
  hash := eq.hash.trans unmarked.hash

theorem Backed.of_sameMarks (backed : Backed writes old)
    (uid : out.metadata.uid = old.metadata.uid) (eq : SameMarks old out) : Backed writes out := by
  unfold Backed at backed ⊢
  rw [uid]
  split
  next wrote last =>
    rw [last] at backed
    exact backed.trans eq
  rename_i last
  rw [last] at backed
  exact backed.of_sameMarks eq

/-- A loop's write of another application changes nothing here. -/
theorem Backed.of_other {wrote : Option Application} (backed : Backed writes app)
    (others : ∀ written ∈ wrote, written.metadata.uid ≠ app.metadata.uid) :
    Backed (wrote.toList ++ writes) app := by
  have eq : lastWritten (wrote.toList ++ writes) app.metadata.uid =
      lastWritten writes app.metadata.uid := by
    cases wrote with
    | none => rfl
    | some written =>
      have ne := others written rfl
      simp [lastWritten, ne]
  rwa [Backed, eq]

/-- What holds in every state of a run. -/
structure Ledger.Sound (l : Ledger) : Prop where
  filed : l.db.WellFiled
  issued : l.db.Issued
  known : ∀ written ∈ l.writes, ∃ n < l.db.issued, written.metadata.uid = "uid-" ++ Nat.repr n
  backed : ∀ (key : String) (app : Application), l.db.find .application key = some app →
    Backed l.writes app

theorem sound_start : Ledger.Sound {} where
  filed := DB.wellFiled_empty
  issued := DB.issued_empty
  known := by simp
  backed := by simp [DB.find]

variable {l : Ledger}

theorem lastWritten_newUID (sound : l.Sound) : lastWritten l.writes l.db.newUID = none := by
  refine List.find?_eq_none.2 fun wrote mem eq => ?_
  obtain ⟨n, bound, uid⟩ := sound.known wrote mem
  have clash := DB.uid_inj (uid.symm.trans (beq_iff_eq.1 eq))
  omega

variable {db' : DB} {event : Event}

theorem of_loopWrote {db : DB} {written : Application}
    (wrote : loopWrote db db' event = some written) :
    event.sender = .loop ∧ ∃ sent : Application, submitted db event.request = some ⟨.application, sent⟩ ∧
      db'.find .application (keyOf (k := .application) sent) = some written := by
  unfold loopWrote at wrote
  split at wrote
  · exact ⟨‹_›, _, ‹_›, wrote⟩
  · cases wrote

variable {d : Deployment}

theorem backed_or_wrote {key : String} (sound : l.Sound)
    (effect : Effect (servingChain d) event.sender.identity event.now l.db event.request db')
    (hit : db'.find .application key = some app) :
    Backed l.writes app ∨ loopWrote l.db db' event = some app := by
  cases effect.origin (servingChain_keepsIdentity d) sound.filed hit with
  | before found same =>
    exact .inl ((sound.backed key _ found).of_sameMarks same.uid (sameMarks_of_touched same))
  | @written sent object old submits own replaces ok stores uid =>
    cases sender : event.sender with
    | loop => exact .inr (by simp [loopWrote, sender, submits, ← own, hit])
    | client id =>
      refine .inl ?_
      rw [sender] at ok
      have stored := sameMarks_of_stores stores
      cases old with
      | none =>
        have unmarked := (unmarked_of_created ok).of_sameMarks stored
        have fresh : app.metadata.uid = l.db.newUID := uid
        rw [Backed, fresh, lastWritten_newUID sound]
        exact unmarked
      | some old =>
        exact (sound.backed key old replaces).of_sameMarks uid
          ((sameMarks_of_replaced ok).trans stored)

theorem Ledger.Sound.of_effect (sound : l.Sound)
    (effect : Effect (servingChain d) event.sender.identity event.now l.db event.request db') :
    Ledger.Sound ⟨db', (loopWrote l.db db' event).toList ++ l.writes⟩ := by
  have filed' := effect.wellFiled (servingChain_keepsIdentity d) sound.filed
  obtain ⟨issued', more⟩ : db'.Issued ∧ l.db.issued ≤ db'.issued := by
    rcases effect.write sound.filed with rfl | ⟨k, key, out, write⟩
    · exact ⟨sound.issued, le_rfl⟩
    · exact ⟨sound.issued.of_write write, write.issued⟩
  refine ⟨filed', issued', ?_, ?_⟩
  · intro written mem
    rcases List.mem_append.1 mem with isNew | pre
    · obtain ⟨-, sent, -, hit⟩ := of_loopWrote (Option.mem_toList.1 isNew)
      exact issued'.uid .application _ written hit
    obtain ⟨n, bound, uid⟩ := sound.known written pre
    exact ⟨n, bound.trans_le more, uid⟩
  intro key app hit
  by_cases wrote : loopWrote l.db db' event = some app
  · simp [Backed, wrote, lastWritten, SameMarks.refl]
  have backed := (backed_or_wrote sound effect hit).resolve_right wrote
  refine backed.of_other fun written isNew eq => wrote ?_
  -- A uid names one record, so the application written last is this one.
  obtain ⟨-, sent, -, stored⟩ := of_loopWrote isNew
  have keyEq := issued'.unique .application _ key written app stored hit eq
  rw [keyEq, hit] at stored
  rw [isNew, stored]

theorem Ledger.Sound.step {l' : Ledger} (sound : l.Sound) (moved : l.step d event = some l') :
    l'.Sound := by
  unfold Ledger.step at moved
  split at moved <;> cases moved
  · exact sound.of_effect (served sound.filed ‹_›)
  · exact sound

end

theorem marks_are_the_loops {d : Deployment} {l : Ledger}
    (reached : Reachable (Ledger.step d) (fun _ _ => true) {} l) {app : Application}
    (stored : app ∈ l.db.list .application) : Backed l.writes app := by
  have sound := reached.invariant Ledger.Sound sound_start
    fun sound _ happened => sound.step happened
  obtain ⟨key, present⟩ := DB.mem_list.1 stored
  exact sound.backed key app present

/-- A child as an author would write it, and as a loop creates it. -/
def bareChild : Application where
  metadata := { name := "web" }
  spec := { image := "web:1" }

def markedChild : Application :=
  { bareChild with metadata := { bareChild.metadata with
      labels := (∅ : StringMap).insert labelComponent "web"
      ownerReferences := [⟨groupVersion, "ApplicationSet", "shop", "uid-9", some true⟩] } }

/-- A client writes a child without its marks, and it keeps them. -/
theorem marks_are_the_loops_kept :
    ∃ (l : Ledger) (app : Application),
      Reachable (Ledger.step plainDeployment) (fun _ _ => true) {} l ∧ app ∈ l.db.list .application ∧
      app.metadata.resourceVersion = "2" ∧ app.metadata.ownerReferences.map (·.uid) = ["uid-9"] ∧
      Backed l.writes app := by
  obtain ⟨l, reached, view⟩ : ∃ l, Reachable (Ledger.step plainDeployment) (fun _ _ => true) {} l ∧
      ((l.db.get .application "team" "web").map fun app : Application =>
        (app.metadata.resourceVersion, app.metadata.ownerReferences.map (·.uid))) =
      some ("2", ["uid-9"]) :=
    exists_of_run [byOperator 1 (.create .ns (clusterScope .ns) { metadata := { name := "team" } }),
      ⟨.loop, 2, .create .application (teamScope _ Kind.application_namespaced) markedChild⟩,
      byOperator 3 (updateWeb bareChild)] (by decide +kernel)
  obtain ⟨app, present, fields⟩ := Option.map_eq_some_iff.1 view
  simp only [Prod.mk.injEq] at fields
  have stored : app ∈ l.db.list .application := DB.mem_list.2 ⟨_, present⟩
  exact ⟨l, app, reached, stored, fields.1, fields.2, marks_are_the_loops reached stored⟩

end Horchestra.AppSet
