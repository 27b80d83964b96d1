import Horchestra.Storage.History

/-!
# Watching a list

A subscription is sent every event of its kind whose object it selects, by namespace and labels,
into a buffer of bounded length; what does not fit is dropped.  An operation is published after it
is committed, and no other operation is committed before that, but a subscription may be opened in
between.

The event carries the object as it is after the operation, and it is on that state that it is
selected.  A subscriber that has the list replays the events over it.  Where an update takes an
object out of the selection nothing is sent, and the replayed list keeps what the list no longer has
(`relabelled_object_stays`).  Where every object that is selected stays so until it is deleted, the
replayed list is the list (`replay_is_list`).
-/

namespace Horchestra.Storage

open Std Api
open Foundations.Transitions (run exists_of_run Reachable)

/-- What a list or a subscription asks for: a namespace, or all of them, and a test of the labels.
-/
structure Selection where
  ns : String := ""
  selector : ExtTreeMap String String → Bool := fun _ => true

def Selection.accepts (selection : Selection) (m : ObjectMeta) : Bool :=
  (selection.ns == "" || m.ns == selection.ns) && selection.selector m.labels

def Selection.selects (selection : Selection) {k : Kind} (o : Obj k) : Bool :=
  selection.accepts (metaOf o)

def DB.listSelected (db : DB) (k : Kind) (selection : Selection) : List (Obj k) :=
  (db.list k).filter selection.selects

inductive EventType where
  | added | modified | deleted

/-- The list as a subscriber keeps it, by key. -/
abbrev View (k : Kind) := ExtTreeMap String (Obj k)

def DB.view (db : DB) (k : Kind) (selection : Selection) : View k :=
  (db.heads k).filter fun _ o => selection.selects o

def replay {k : Kind} (view : View k) : EventType × Obj k → View k
  | (.deleted, o) => view.erase (keyOf o)
  | (_, o) => view.insert (keyOf o) o

/-- The event an operation publishes to the subscribers of a kind.  A status that is written as it
was is no event. -/
def published (k : Kind) (s s' : Store) (operation : Operation) : Option (EventType × Obj k) :=
  let key := (operation.target s).2
  if (operation.target s).1 = k then
    match operation with
    | .create _ _ _ => (s'.db.find k key).map (.added, ·)
    | .update _ _ | .rollback _ _ _ => (s'.db.find k key).map (.modified, ·)
    | .updateStatus _ _ =>
      if s'.db.find k key = s.db.find k key then none else (s'.db.find k key).map (.modified, ·)
    | .delete _ _ _ => (s.db.find k key).map (.deleted, ·)
  else none

def watchBuf : Nat := 64

/-- A subscription, with the list taken when it was opened, what its owner has received and what is
waiting for it. -/
structure Subscription (k : Kind) where
  listed : View k
  received : List (EventType × Obj k) := []
  buffer : List (EventType × Obj k) := []

def Subscription.replayed {k : Kind} (sub : Subscription k) : View k :=
  (sub.received ++ sub.buffer).foldl replay sub.listed

section

variable (k : Kind) (selection : Selection)

/-- The store, an event that is committed and not yet published, and the subscription. -/
structure Watched where
  store : Store := {}
  pending : Option (EventType × Obj k) := none
  subscription : Option (Subscription k) := none

inductive Happening where
  | commit (operation : Operation)
  | publish
  | subscribe
  | receive

variable {k}

def Subscription.offer (sub : Subscription k) (event : EventType × Obj k) : Subscription k :=
  if selection.selects event.2 && sub.buffer.length < watchBuf then
    { sub with buffer := sub.buffer ++ [event] }
  else sub

def Watched.step (w : Watched k) : Happening → Option (Watched k)
  | .commit operation =>
    match w.pending with
    | none => (w.store.step operation).map fun s' =>
      { w with store := s', pending := published k w.store s' operation }
    | some _ => none
  | .publish => w.pending.map fun event =>
    { w with pending := none, subscription := w.subscription.map (·.offer selection event) }
  | .subscribe => some { w with subscription := some { listed := w.store.db.view k selection } }
  | .receive =>
    match w.subscription with
    | some sub =>
      match sub.buffer with
      | event :: rest => some { w with
          subscription := some { sub with received := sub.received ++ [event], buffer := rest } }
      | [] => none
    | none => none

/-- A record that is selected stays so when it is written over. -/
def keepsSelected (s : Store) (operation : Operation) : Bool :=
  (operation.target s).1 != k || (operation.body s).all fun m =>
    (s.db.find k (operation.target s).2).all fun stored =>
      !selection.selects stored || selection.accepts m

def Watched.keepsUp (w : Watched k) : Happening → Bool
  | .publish => w.pending.all fun event => w.subscription.all fun sub =>
    !selection.selects event.2 || sub.buffer.length < watchBuf
  | _ => true

/-- The subscriber keeps up, and while there is one no operation takes an object out of the
selection. -/
def Watched.steady (w : Watched k) (happening : Happening) : Bool :=
  w.keepsUp selection happening &&
    match happening with
    | .commit operation =>
        w.subscription.isNone || keepsSelected (k := k) selection w.store operation
    | _ => true

end

/-! ## One operation -/

section

variable {k : Kind} {selection : Selection} {db db' : DB}

variable {key : String}

theorem getElem?_view : (db.view k selection)[key]? = (db.find k key).filter selection.selects := by
  rw [DB.view, ExtTreeMap.getElem?_filter']
  rfl

theorem toList_view : (db.view k selection).toList.map Prod.snd = db.listSelected k selection := by
  rw [DB.view, DB.listSelected, DB.list, ExtTreeMap.toList_filter, List.filter_map]
  rfl

variable (selection) in
/-- A view with an event that is still to come. -/
def settled (view : View k) : Option (EventType × Obj k) → View k
  | none => view
  | some event => if selection.selects event.2 then replay view event else view

/-- An event still to be published is already in the store. -/
def Reflected (db : DB) : EventType × Obj k → Prop
  | (.deleted, o) => db.find k (keyOf o) = none
  | (_, o) => db.find k (keyOf o) = some o

/-- Replaying the event of a write brings the view up to date, if the write takes nothing out of the
selection. -/
theorem settled_of_written {ev : EventType} {out : Obj k} {steady : Prop} (kind : ev ≠ .deleted)
    (filed : DB.Filed db db' k (keyOf out) (some out))
    (stays : steady → ∀ stored, db.find k (keyOf out) = some stored →
      selection.selects stored = true → selection.selects out = true) :
    (steady → settled selection (db.view k selection) (some (ev, out)) = db'.view k selection) ∧
      ∀ sent ∈ some (ev, out), Reflected db' sent := by
  have reflected : Reflected db' (ev, out) := by
    cases ev with
    | added | modified => exact filed.here
    | deleted => contradiction
  have isReplay : ∀ view : View k, replay view (ev, out) = view.insert (keyOf out) out := by
    intro view
    cases ev with
    | added | modified => rfl
    | deleted => contradiction
  refine ⟨fun steady => ExtTreeMap.ext_getElem? fun key => ?_,
    fun sent isSent => Option.mem_some_iff.1 isSent ▸ reflected⟩
  by_cases same : key = keyOf out
  · subst same
    cases selected : selection.selects out with
    | true => simp [settled, selected, isReplay, getElem?_view, filed.here, Option.filter]
    | false =>
      simp only [settled, selected, Bool.false_eq_true, if_false, getElem?_view, filed.here]
      cases pre : db.find k (keyOf out) with
      | none => simp [Option.filter, selected]
      | some stored =>
        cases was : selection.selects stored with
        | true => exact absurd (stays steady stored pre was) (by simp [selected])
        | false => simp [Option.filter, selected, was]
  simp only [settled, isReplay]
  split <;> simp [getElem?_view, filed.elsewhere _ same, ExtTreeMap.getElem?_insert, Ne.symm same]

theorem settled_of_erased {stored : Obj k} (hit : db.find k (keyOf stored) = some stored)
    (filed : DB.Filed db db' k (keyOf stored) none) :
    settled selection (db.view k selection) (some (.deleted, stored)) = db'.view k selection := by
  refine ExtTreeMap.ext_getElem? fun key => ?_
  by_cases same : key = keyOf stored
  · subst same
    cases selected : selection.selects stored with
    | true => simp [settled, selected, replay, getElem?_view, filed.here]
    | false => simp [settled, selected, getElem?_view, filed.here, hit, Option.filter]
  simp only [settled, replay]
  split <;> simp [getElem?_view, filed.elsewhere _ same, ExtTreeMap.getElem?_erase, Ne.symm same]

/-- A subscription opened before an event is published gets it on top of a list that has it. -/
theorem settled_of_reflected {ev : EventType × Obj k} (reflected : Reflected db ev) :
    settled selection (db.view k selection) (some ev) = db.view k selection := by
  obtain ⟨type, o⟩ := ev
  refine ExtTreeMap.ext_getElem? fun key => ?_
  simp only [settled]
  split
  next selected =>
    by_cases same : key = keyOf o
    · subst same
      cases type <;> simp_all [replay, Reflected, getElem?_view, Option.filter]
    · cases type <;> simp [replay, ExtTreeMap.getElem?_insert, ExtTreeMap.getElem?_erase,
        Ne.symm same]
  · rfl

variable {k' : Kind} {wrote : Option (Obj k')}

theorem view_of_otherKind (filed : DB.Filed db db' k' key wrote) (ne : k ≠ k') :
    db'.view k selection = db.view k selection := by
  refine ExtTreeMap.ext_getElem? fun key' => ?_
  rw [getElem?_view, getElem?_view, filed.otherKinds _ _ ne]

variable {s s' : Store} {operation : Operation}

theorem settled_otherKind (target : (operation.target s).1 = k') (ne : k' ≠ k)
    (filed : DB.Filed s.db s'.db k' key wrote) :
    (keepsSelected (k := k) selection s operation = true →
      settled selection (s.db.view k selection) (published k s s' operation) =
        s'.db.view k selection) ∧
      ∀ sent ∈ published k s s' operation, Reflected s'.db sent := by
  have none : published k s s' operation = none := by simp [published, target, ne]
  rw [none]
  exact ⟨fun _ => (view_of_otherKind filed ne.symm).symm, by simp⟩

/-- **The event of an operation**, replayed over the list before it, gives the list after it, if the
operation takes nothing out of the selection. -/
theorem settled_published (repr : Represented s) (change : Change s operation s') :
    (keepsSelected (k := k) selection s operation = true →
      settled selection (s.db.view k selection) (published k s s' operation) =
        s'.db.view k selection) ∧
      ∀ sent ∈ published k s s' operation, Reflected s'.db sent := by
  cases change with
  | @created k' now o out db' target write gone _ _ _ =>
    by_cases same : k' = k
    · subst same
      have isEvent : published k' s (s.commit db' (metaOf out).uid out) (.create k' now o) =
          some (.added, out) := by
        simp [published, Operation.target, target, Store.commit, write.filed.here]
      rw [isEvent]
      refine settled_of_written (by simp) write.filed fun _ stored hit => ?_
      cases gone.symm.trans hit
    · exact settled_otherKind rfl same write.filed
  | @replaced _ k' stored out db' replaces target write hit _ _ _ _ _ body =>
    by_cases same : k' = k
    · subst same
      have isEvent : published k' s (s.commit db' (metaOf out).uid out) operation =
          some (.modified, out) := by
        cases operation with
        | update _ _ | rollback _ _ _ => simp [published, target, Store.commit, write.filed.here]
        | _ => cases replaces
      rw [isEvent]
      refine settled_of_written (by simp) write.filed fun stays found isFound selected => ?_
      obtain ⟨m, isBody, ns, labels⟩ := body
      simp only [keepsSelected, target, isBody, isFound, Option.all_some, selected,
        bne_self_eq_false,
        Bool.false_or, Bool.not_true] at stays
      simpa [Selection.selects, Selection.accepts, ns, labels] using stays
    · exact settled_otherKind (by rw [target]) same write.filed
  | @status k' o stored db' write hit =>
    by_cases same : k' = k
    · subst same
      have key : keyOf o = keyOf (withStatusOf stored o) := write.own _ rfl
      simp only [published, Operation.target, if_true, write.filed.here, hit]
      split
      next unchanged =>
        refine ⟨fun _ => ExtTreeMap.ext_getElem? fun key' => ?_, by simp⟩
        simp only [settled, getElem?_view]
        by_cases eq : key' = keyOf o
        · rw [eq, write.filed.here, hit, unchanged]
        · rw [write.filed.elsewhere _ eq]
      refine settled_of_written (by simp) (key ▸ write.filed) fun _ found isFound selected => ?_
      rw [← key, hit] at isFound
      cases isFound
      simpa [Selection.selects] using selected
    · exact settled_otherKind rfl same write.filed
  | @erased k' ns name stored db' write hit =>
    by_cases same : k' = k
    · subst same
      have key := repr.own k' _ stored hit
      have isEvent : ∀ s', published k' s s' (.delete k' ns name) = some (.deleted, stored) := by
        intro s'
        simp [published, Operation.target, hit]
      rw [isEvent]
      rw [key] at hit write
      refine ⟨fun _ => settled_of_erased hit write.filed, fun sent isSent => ?_⟩
      cases isSent
      exact write.filed.here
    · exact settled_otherKind rfl same write.filed

/-! ## Every run -/

/-- The list a subscriber has, with the event still to come, is the list. -/
structure Follows (selection : Selection) (w : Watched k) : Prop where
  represented : Represented w.store
  reflected : ∀ event ∈ w.pending, Reflected w.store.db event
  replayed : ∀ sub ∈ w.subscription,
    settled selection sub.replayed w.pending = w.store.db.view k selection

theorem Follows.of_step {w w' : Watched k} {happening : Happening} (follows : Follows selection w)
    (steady : w.steady selection happening = true) (moved : w.step selection happening = some w') :
    Follows selection w' := by
  simp only [Watched.steady, Bool.and_eq_true] at steady
  obtain ⟨keepsUp, stays⟩ := steady
  cases happening with
  | commit operation =>
    simp only [Watched.step] at moved
    split at moved
    next idle =>
      obtain ⟨s', stepped, rfl⟩ := Option.map_eq_some_iff.1 moved
      have change := change_of_perform follows.represented (perform_of_step stepped)
      obtain ⟨upToDate, reflected⟩ := settled_published follows.represented change
      refine ⟨follows.represented.of_change change, reflected, fun sub isSub => ?_⟩
      have pre := follows.replayed sub isSub
      rw [idle] at pre
      rw [show sub.replayed = _ from pre]
      have watched : w.subscription = some sub := isSub
      exact upToDate (by simpa [watched] using stays)
    · cases moved
  | publish =>
    obtain ⟨ev, isPending, rfl⟩ := Option.map_eq_some_iff.1 moved
    refine ⟨follows.represented, by simp, fun sub' isSub => ?_⟩
    obtain ⟨sub, isOld, rfl⟩ := Option.map_eq_some_iff.1 isSub
    have pre := follows.replayed sub isOld
    simp only [Watched.keepsUp, isPending, isOld, Option.all_some] at keepsUp
    rw [isPending] at pre
    cases selected : selection.selects ev.2 with
    | false => simpa [Subscription.offer, selected, settled] using pre
    | true =>
      simp only [selected, Bool.not_true, Bool.false_or] at keepsUp
      simp only [settled, selected, if_true] at pre
      simp only [settled, Subscription.offer, selected, keepsUp, Bool.and_self, if_true,
        Subscription.replayed, ← List.append_assoc, List.foldl_append, List.foldl_cons,
        List.foldl_nil]
      rw [← pre, Subscription.replayed, List.foldl_append]
  | subscribe =>
    cases moved
    refine ⟨follows.represented, follows.reflected, fun sub isSub => ?_⟩
    cases isSub
    cases pending : w.pending with
    | none => rfl
    | some ev => exact settled_of_reflected (follows.reflected ev pending)
  | receive =>
    simp only [Watched.step] at moved
    split at moved
    next sub isSub =>
      split at moved
      next ev rest isBuffer =>
        cases moved
        refine ⟨follows.represented, follows.reflected, fun sub' isSub' => ?_⟩
        cases isSub'
        have pre := follows.replayed sub isSub
        simpa [Subscription.replayed, isBuffer] using pre
      · cases moved
    · cases moved

/-- **Where no update takes an object out of the selection, the replayed list is the list.** -/
theorem replay_is_list {w : Watched k} {sub : Subscription k}
    (reached : Reachable (Watched.step selection) (Watched.steady selection) {} w)
    (isSub : w.subscription = some sub) (quiet : w.pending = none) :
    sub.replayed.toList.map Prod.snd = w.store.db.listSelected k selection := by
  have start : Follows selection ({} : Watched k) := ⟨represented_empty, by simp, by simp⟩
  have follows := reached.invariant (Follows selection) start fun follows steady happened =>
    follows.of_step steady happened
  have current := follows.replayed sub isSub
  rw [quiet] at current
  rw [← toList_view, ← current]
  rfl

end

def labelled (tier version : String) : Service where
  metadata :=
    { name := "web", ns := "team", resourceVersion := version,
      labels := (∅ : ExtTreeMap String String).insert "tier" tier }

def frontTier : Selection where
  selector := fun labels => labels["tier"]? == some "front"

theorem replay_is_list_front : ∃ (w : Watched .service) (sub : Subscription .service),
    Reachable (Watched.step frontTier) (Watched.steady frontTier) {} w ∧
    w.subscription = some sub ∧ sub.received.length = 1 ∧
    sub.replayed.toList.map Prod.snd = w.store.db.listSelected .service frontTier := by
  obtain ⟨w, reached, quiet, view⟩ : ∃ w : Watched .service, Reachable (Watched.step frontTier)
      (Watched.steady frontTier) {} w ∧ w.pending.isNone = true ∧
      w.subscription.map (·.received.length) = some 1 :=
    exists_of_run [.commit (.create .service 0 (labelled "front" "")), .publish,
      .commit (.update .service (labelled "back" "1")), .publish, .subscribe,
      .commit (.update .service (labelled "front" "2")), .publish, .receive] (by decide +kernel)
  obtain ⟨sub, isSub, received⟩ := Option.map_eq_some_iff.1 view
  exact ⟨w, sub, reached, isSub, received,
    replay_is_list reached isSub (Option.isNone_iff_eq_none.1 quiet)⟩

/-- An update takes a service out of the selection, and the subscriber is not told. -/
theorem relabelled_object_stays : ∃ (w : Watched .service) (sub : Subscription .service),
    Reachable (Watched.step frontTier) (Watched.keepsUp frontTier) {} w ∧
    w.subscription = some sub ∧ w.pending = none ∧
    (sub.replayed.toList.map Prod.snd).length = 1 ∧
    w.store.db.listSelected .service frontTier = [] := by
  obtain ⟨w, ran, quiet, view, empty⟩ : ∃ w : Watched .service, Reachable (Watched.step frontTier)
      (Watched.keepsUp frontTier) {} w ∧ w.pending.isNone = true ∧
      (w.subscription.map fun sub => (sub.replayed.toList.map Prod.snd).length) = some 1 ∧
      (w.store.db.listSelected .service frontTier).isEmpty = true :=
    exists_of_run [.commit (.create .service 0 (labelled "front" "")), .publish, .subscribe,
      .commit (.update .service (labelled "back" "1")), .publish] (by decide +kernel)
  obtain ⟨sub, isSub, replayed⟩ := Option.map_eq_some_iff.1 view
  exact ⟨w, sub, ran, isSub, Option.isNone_iff_eq_none.1 quiet, replayed, List.isEmpty_iff.1 empty⟩

end Horchestra.Storage
