import Mathlib.Logic.Function.Basic
import Horchestra.Foundations.Transitions

/-!
# One node, one stream

The streams that are opened under one node's name.  A stream registers under the lock of the server:
it looks how long the registered one has been silent, and refuses to join or takes its place.  The
messages of a stream are received, noted and applied by its own goroutine, without that lock, on the
context of the stream; taking a session over cancels a context derived from it, which ends the
pushes to it and not what it receives.

* `one_stream_when_calm`: a session that has joined and was not taken over is the registered one;
  where nothing arrives on a stream that was taken over, and nothing is being received from the
  registered one while another registers, a session that was heard of lately is not taken over and a
  session that was taken over has no say.
* `displaced_session_reports`: a session that was taken over goes on reporting.
-/

namespace Horchestra.Nodeserver.Sessions

open Function
open Foundations.Transitions (run exists_of_run Reachable)

inductive Message where
  | status | appMetrics | nodeUsage | appStatus | logChunk
  deriving DecidableEq

/-- A stream: when it was last noted to be alive and when something last came in on it, the message
in hand and whether it has been noted, and how far the stream has come. -/
structure Session where
  seen : Nat
  heard : Nat
  message : Option (Message × Bool) := none
  admitted : Bool := false
  displaced : Bool := false

/-- A message that was applied, and whether its session had been taken over by then. -/
structure Applied where
  stream : Nat
  message : Message
  late : Bool
  deriving DecidableEq

/-- The streams of one node, the registered one, the one that holds the lock to take its place, and
what was done: the silence of each session that was taken over, and the messages applied. -/
structure Server where
  clock : Nat := 0
  sessions : Nat → Option Session := fun _ => none
  registered : Option Nat := none
  registering : Option Nat := none
  silences : List Nat := []
  applied : List Applied := []

inductive Event where
  | tick
  | connect (id : Nat)
  /-- The first half of registering: the lock is taken and the silence of the registered session read. -/
  | look (id : Nat)
  | take (id : Nat)
  | receive (id : Nat) (message : Message)
  | touch (id : Nat)
  | apply (id : Nat)
  | close (id : Nat)

def Server.put (s : Server) (id : Nat) (session : Session) : Server :=
  { s with sessions := update s.sessions id (some session) }

def Server.drop (s : Server) (id : Nat) : Server := { s with sessions := update s.sessions id none }

/-- Cancels the context of a session that is taken over. -/
def Server.displace (s : Server) (id : Nat) : Server :=
  match s.sessions id with
  | none => s
  | some prev =>
    { s.put id { prev with displaced := true } with silences := (s.clock - prev.heard) :: s.silences }

def Server.step (staleAfter : Nat) (s : Server) : Event → Option Server
  | .tick => some { s with clock := s.clock + 1 }
  | .connect id =>
    match s.sessions id with
    | none => some (s.put id { seen := s.clock, heard := s.clock })
    | some _ => none
  | .look id =>
    match s.registering, s.sessions id with
    | none, some session =>
      if session.admitted then none
      else
        match s.registered.bind s.sessions with
        | none => some { s with registering := some id }
        | some prev =>
          if s.clock - prev.seen < staleAfter then some (s.drop id)
          else some { s with registering := some id }
    | _, _ => none
  | .take id =>
    match s.sessions id with
    | none => none
    | some session =>
      if s.registering = some id then
        let s := s.registered.elim s s.displace
        some { s.put id { session with admitted := true } with
          registered := some id, registering := none }
      else none
  | .receive id message =>
    match s.sessions id with
    | some session =>
      if session.admitted && session.message.isNone then
        some (s.put id { session with message := some (message, false), heard := s.clock })
      else none
    | none => none
  | .touch id =>
    match s.sessions id with
    | some session =>
      match session.message with
      | some (message, false) =>
        some (s.put id { session with message := some (message, true), seen := s.clock })
      | _ => none
    | none => none
  | .apply id =>
    match s.sessions id with
    | some session =>
      match session.message with
      | some (message, true) =>
        some { s.put id { session with message := none } with
          applied := ⟨id, message, session.displaced⟩ :: s.applied }
      | _ => none
    | none => none
  | .close id =>
    match s.registering, s.sessions id with
    | none, some session =>
      if session.admitted && session.message.isNone then
        some { s.drop id with registered := if s.registered = some id then none else s.registered }
      else none
    | _, _ => none

/-- Nothing arrives on a stream that was taken over; nothing arrives from the registered one while
another is registering, and nothing from it is in hand when one that is not refused starts to. -/
def Server.calm (staleAfter : Nat) (s : Server) : Event → Bool
  | .receive id _ => (s.sessions id).all fun session =>
    !session.displaced && (s.registering.isNone || s.registered != some id)
  | .look _ => (s.registered.bind s.sessions).all fun prev =>
    prev.message.isNone || s.clock - prev.seen < staleAfter
  | _ => true

section

variable {staleAfter : Nat} {s s' : Server}

/-! ## All runs -/

/-- A stream that has joined and was not taken over is the registered one. -/
def Server.Sole (s : Server) : Prop :=
  ∀ id session, s.sessions id = some session → session.admitted = true →
    session.displaced = false → s.registered = some id

theorem Server.Sole.put (sole : s.Sole) (id : Nat) (ses : Session)
    (live : ses.admitted = true → ses.displaced = false → s.registered = some id) :
    (s.put id ses).Sole := by
  intro id' found hit
  by_cases same : id' = id
  · subst same
    simp only [Server.put, update_self, Option.some.injEq] at hit
    exact hit ▸ live
  simp only [Server.put, update_of_ne same] at hit
  exact sole _ _ hit

theorem Server.Sole.drop (sole : s.Sole) (id : Nat) {registered : Option Nat}
    (fewer : ∀ id', id' ≠ id → s.registered = some id' → registered = some id') :
    Server.Sole { s.drop id with registered := registered } := by
  intro id' found hit joined kept
  by_cases same : id' = id
  · subst same
    simp [Server.drop] at hit
  simp only [Server.drop, update_of_ne same] at hit
  exact fewer id' same (sole _ _ hit joined kept)

/-- Taking a session over leaves no other one that has joined. -/
theorem Server.Sole.take (sole : s.Sole) (id : Nat) (session : Session) :
    Server.Sole { (s.registered.elim s s.displace).put id session with
      registered := some id, registering := none } := by
  intro id' found hit joined kept
  by_cases same : id' = id
  · exact congrArg some same.symm
  simp only [Server.put, update_of_ne same] at hit
  cases isRegistered : s.registered with
  | none =>
    rw [isRegistered] at hit
    cases isRegistered.symm.trans (sole _ _ hit joined kept)
  | some prev =>
    rw [isRegistered] at hit
    simp only [Option.elim_some, Server.displace] at hit
    split at hit
    next gone =>
      obtain rfl := Option.some.inj (isRegistered.symm.trans (sole _ _ hit joined kept))
      cases gone.symm.trans hit
    next old isOld =>
      by_cases other : id' = prev
      · subst other
        simp only [Server.put, update_self, Option.some.injEq] at hit
        subst hit
        cases kept
      simp only [Server.put, update_of_ne other] at hit
      exact absurd (Option.some.inj (isRegistered.symm.trans (sole _ _ hit joined kept))).symm other

theorem Server.Sole.of_step {ev : Event} (sole : s.Sole) (moved : s.step staleAfter ev = some s') :
    s'.Sole := by
  cases ev with
  | tick =>
    cases moved
    exact sole
  | connect id =>
    simp only [Server.step] at moved
    split at moved <;> cases moved
    exact sole.put _ _ (by simp)
  | look id =>
    simp only [Server.step] at moved
    split at moved
    · split at moved
      · cases moved
      split at moved
      · cases moved
        exact sole
      split at moved <;> cases moved
      · exact sole.drop id fun _ _ registered => registered
      · exact sole
    · cases moved
  | take id =>
    simp only [Server.step] at moved
    split at moved
    · cases moved
    split at moved <;> cases moved
    exact sole.take id _
  | receive id message | touch id | apply id =>
    simp only [Server.step] at moved
    split at moved
    next session hit =>
      split at moved <;> cases moved
      exact sole.put id _ fun joined kept => sole id session hit joined kept
    · cases moved
  | close id =>
    simp only [Server.step] at moved
    split at moved
    · split at moved <;> cases moved
      refine sole.drop id fun id' other registered => ?_
      simp [registered, other]
    · cases moved

/-! ## Calm runs -/

/-- A session was seen since it was last heard, unless the message is not noted yet; one that was
taken over has no message in hand. -/
structure Session.Fine (clock : Nat) (session : Session) : Prop where
  past : session.heard ≤ clock
  noted : (∀ message, session.message ≠ some (message, false)) → session.heard ≤ session.seen
  quiet : session.displaced = true → session.message = none

structure Orderly (staleAfter : Nat) (s : Server) : Prop where
  fine : ∀ {id session}, s.sessions id = some session → session.Fine s.clock
  joined : ∀ {id}, s.registered = some id →
    ∃ session, s.sessions id = some session ∧ session.admitted = true
  idle : ∀ {new prev session}, s.registering = some new → s.registered = some prev →
    s.sessions prev = some session → session.message = none ∧ staleAfter ≤ s.clock - session.seen
  silences : ∀ silence ∈ s.silences, staleAfter ≤ silence
  applied : ∀ entry ∈ s.applied, entry.late = false

theorem Orderly.put (orderly : Orderly staleAfter s) (id : Nat) (ses : Session)
    (fine : ses.Fine s.clock) (joined : s.registered = some id → ses.admitted = true)
    (ne : s.registering.isSome = true → s.registered ≠ some id) :
    Orderly staleAfter (s.put id ses) := by
  have hit : ∀ {id' found}, (s.put id ses).sessions id' = some found →
      (id' = id ∧ found = ses) ∨ s.sessions id' = some found := by
    intro id' found hit
    by_cases same : id' = id
    · subst same
      simp only [Server.put, update_self, Option.some.injEq] at hit
      exact .inl ⟨rfl, hit.symm⟩
    simp only [Server.put, update_of_ne same] at hit
    exact .inr hit
  refine ⟨?_, ?_, ?_, orderly.silences, orderly.applied⟩
  · intro id' found isFound
    rcases hit isFound with ⟨-, rfl⟩ | pre
    · exact fine
    · exact orderly.fine pre
  · intro id' reg
    by_cases same : id' = id
    · subst same
      exact ⟨ses, by simp [Server.put], joined reg⟩
    obtain ⟨found, isFound, admitted⟩ := orderly.joined reg
    exact ⟨found, by simpa [Server.put, update_of_ne same] using isFound, admitted⟩
  · intro new prev found registering reg isFound
    rcases hit isFound with ⟨rfl, -⟩ | pre
    · exact absurd reg (ne (Option.isSome_iff_exists.2 ⟨new, registering⟩))
    · exact orderly.idle registering reg pre

theorem Orderly.drop (orderly : Orderly staleAfter s) {id : Nat} {registered : Option Nat}
    (fewer : ∀ id', registered = some id' → s.registered = some id' ∧ id' ≠ id) :
    Orderly staleAfter { s.drop id with registered := registered } := by
  have pre : ∀ {id' found}, (s.drop id).sessions id' = some found →
      s.sessions id' = some found := by
    intro id' found hit
    by_cases same : id' = id
    · subst same
      simp [Server.drop] at hit
    · simpa [Server.drop, update_of_ne same] using hit
  refine ⟨fun hit => orderly.fine (pre hit), ?_, ?_, orderly.silences, orderly.applied⟩
  · intro id' isRegistered
    obtain ⟨reg', ne⟩ := fewer id' isRegistered
    obtain ⟨found, hit, admitted⟩ := orderly.joined reg'
    exact ⟨found, by simpa [Server.drop, update_of_ne ne] using hit, admitted⟩
  intro new prev found registering isRegistered hit
  exact orderly.idle registering (fewer prev isRegistered).1 (pre hit)

theorem Orderly.register (orderly : Orderly staleAfter s) {id : Nat}
    (idle : ∀ {prev ses}, s.registered = some prev → s.sessions prev = some ses →
      ses.message = none ∧ staleAfter ≤ s.clock - ses.seen) :
    Orderly staleAfter { s with registering := some id } :=
  ⟨orderly.fine, orderly.joined, fun _ => idle, orderly.silences, orderly.applied⟩

theorem Orderly.take (orderly : Orderly staleAfter s) {id : Nat} {session : Session}
    (hit : s.sessions id = some session) (registering : s.registering = some id) :
    Orderly staleAfter
      { (s.registered.elim s s.displace).put id { session with admitted := true } with
      registered := some id, registering := none } := by
  have unlocked : Orderly staleAfter { s with registering := none } :=
    ⟨orderly.fine, orderly.joined, by simp, orderly.silences, orderly.applied⟩
  have displaced : Orderly staleAfter { s.registered.elim s s.displace with registering := none } ∧
      (s.registered.elim s s.displace).clock = s.clock := by
    cases isRegistered : s.registered with
    | none => exact ⟨unlocked, rfl⟩
    | some prev =>
      obtain ⟨found, isFound, admitted⟩ := orderly.joined isRegistered
      obtain ⟨noMessage, silent⟩ := orderly.idle registering isRegistered isFound
      have fine := orderly.fine isFound
      have noted := fine.noted (by simp [noMessage])
      have put := unlocked.put prev { found with displaced := true }
        ⟨fine.past, fine.noted, fun _ => noMessage⟩ (fun _ => admitted) (by simp)
      simp only [Option.elim_some, Server.displace, isFound]
      refine ⟨⟨put.fine, put.joined, by simp, ?_, put.applied⟩, rfl⟩
      intro silence mem
      rcases List.mem_cons.1 mem with rfl | past
      · omega
      · exact orderly.silences silence past
  obtain ⟨displaced, sameClock⟩ := displaced
  have fine := orderly.fine hit
  have put := displaced.put id { session with admitted := true }
    ⟨sameClock ▸ fine.past, fine.noted, fine.quiet⟩ (fun _ => rfl) (by simp)
  refine ⟨put.fine, ?_, by simp, put.silences, put.applied⟩
  intro id' isRegistered
  cases isRegistered
  exact ⟨{ session with admitted := true }, by simp [Server.put], rfl⟩

theorem Orderly.of_step {ev : Event} (orderly : Orderly staleAfter s)
    (calm : s.calm staleAfter ev = true) (moved : s.step staleAfter ev = some s') :
    Orderly staleAfter s' := by
  -- a session with a message in hand is not the registered one while another registers
  have busy : ∀ {id session}, s.sessions id = some session → session.message ≠ none →
      s.registering.isSome = true → s.registered ≠ some id := by
    intro id session hit inHand locked reg
    obtain ⟨new, registering⟩ := Option.isSome_iff_exists.1 locked
    exact inHand (orderly.idle registering reg hit).1
  have admitted : ∀ {id session}, s.sessions id = some session → s.registered = some id →
      session.admitted = true := by
    intro id session hit reg
    obtain ⟨found, isFound, isAdmitted⟩ := orderly.joined reg
    cases hit.symm.trans isFound
    exact isAdmitted
  cases ev with
  | tick =>
    cases moved
    refine ⟨fun hit => ?_, orderly.joined, ?_, orderly.silences, orderly.applied⟩
    · have fine := orderly.fine hit
      exact ⟨Nat.le_succ_of_le fine.past, fine.noted, fine.quiet⟩
    intro new prev session registering reg hit
    obtain ⟨noMessage, silent⟩ := orderly.idle registering reg hit
    exact ⟨noMessage, by simp only; omega⟩
  | connect id =>
    simp only [Server.step] at moved
    split at moved
    next gone =>
      cases moved
      have unregistered : s.registered ≠ some id := by
        intro reg
        obtain ⟨found, isFound, -⟩ := orderly.joined reg
        cases gone.symm.trans isFound
      exact orderly.put _ _ ⟨Nat.le_refl _, fun _ => Nat.le_refl _, by simp⟩
        (fun reg => absurd reg unregistered) (fun _ => unregistered)
    · cases moved
  | look id =>
    simp only [Server.step] at moved
    split at moved
    next session unlocked hit =>
      split at moved
      · cases moved
      rename_i outside
      have unregistered : ∀ id', s.registered = some id' → s.registered = some id' ∧ id' ≠ id := by
        rintro id' reg
        refine ⟨reg, ?_⟩
        rintro rfl
        exact outside (admitted hit reg)
      split at moved
      next nobody =>
        cases moved
        refine orderly.register fun reg isFound => ?_
        simp [reg, isFound] at nobody
      rename_i prev isPrev
      split at moved
      · cases moved
        exact orderly.drop unregistered
      rename_i silent
      cases moved
      refine orderly.register fun reg isFound => ?_
      simp only [reg, Option.bind_some, isFound, Option.some.injEq] at isPrev
      subst isPrev
      simp only [Server.calm, reg, Option.bind_some, isFound, Option.all_some, Bool.or_eq_true,
        Option.isNone_iff_eq_none, decide_eq_true_eq] at calm
      exact ⟨calm.resolve_right silent, by simpa using silent⟩
    · cases moved
  | take id =>
    simp only [Server.step] at moved
    split at moved
    · cases moved
    rename_i session hit
    split at moved
    next registering =>
      cases moved
      exact orderly.take hit registering
    · cases moved
  | receive id message =>
    simp only [Server.step] at moved
    split at moved
    next session hit =>
      split at moved
      next ready =>
        cases moved
        simp only [Server.calm, hit, Option.all_some, Bool.and_eq_true, Bool.not_eq_true',
          Bool.or_eq_true, Option.isNone_iff_eq_none, bne_iff_ne] at calm
        simp only [Bool.and_eq_true] at ready
        refine orderly.put _ _ ⟨Nat.le_refl _, fun untouched => absurd rfl (untouched message),
          by simp [calm.1]⟩ (fun _ => ready.1) fun locked => ?_
        rcases calm.2 with unlocked | other
        · simp [unlocked] at locked
        · exact other
      · cases moved
    · cases moved
  | touch id =>
    simp only [Server.step] at moved
    split at moved
    next session hit =>
      split at moved
      next message inHand =>
        cases moved
        have fine := orderly.fine hit
        have isAdmitted := admitted hit
        refine orderly.put _ _ ⟨fine.past, fun _ => fine.past, fun displaced => ?_⟩ isAdmitted
          (busy hit (by simp [inHand]))
        cases inHand.symm.trans (fine.quiet displaced)
      · cases moved
    · cases moved
  | apply id =>
    simp only [Server.step] at moved
    split at moved
    next session hit =>
      split at moved
      next message inHand =>
        cases moved
        have fine := orderly.fine hit
        have isAdmitted := admitted hit
        have put := orderly.put id { session with message := none }
          ⟨fine.past, fun _ => fine.noted (by simp [inHand]), by simp⟩ isAdmitted
          (busy hit (by simp [inHand]))
        refine ⟨put.fine, put.joined, put.idle, put.silences, ?_⟩
        intro e mem
        rcases List.mem_cons.1 mem with rfl | past
        · simpa [inHand] using fine.quiet
        · exact orderly.applied e past
      · cases moved
    · cases moved
  | close id =>
    simp only [Server.step] at moved
    split at moved
    · split at moved
      · cases moved
        refine orderly.drop fun id' isRegistered => ?_
        split at isRegistered
        · cases isRegistered
        rename_i other
        refine ⟨isRegistered, ?_⟩
        rintro rfl
        exact other isRegistered
      · cases moved
    · cases moved

theorem one_stream_when_calm
    (reached : Reachable (Server.step staleAfter) (Server.calm staleAfter) {} s) :
    (∀ id session, s.sessions id = some session → session.admitted = true →
      session.displaced = false → s.registered = some id) ∧
    (∀ silence ∈ s.silences, staleAfter ≤ silence) ∧
    (∀ entry ∈ s.applied, entry.late = false) ∧
    ∀ id s' successor, s.step staleAfter (.close id) = some s' → s.registered = some successor →
      successor ≠ id → s'.registered = some successor := by
  have start : Orderly staleAfter {} := ⟨by simp, by simp, by simp, by simp, by simp⟩
  have orderly := reached.invariant (Orderly staleAfter) start fun orderly calm happened =>
    orderly.of_step calm happened
  have sole := reached.invariant Server.Sole (by intro id session hit; simp at hit)
    fun sole _ happened => sole.of_step happened
  refine ⟨sole, orderly.silences, orderly.applied, ?_⟩
  intro id s' successor happened registered different
  simp only [Server.step] at happened
  split at happened
  · split at happened
    · cases happened
      simp [registered, different]
    · cases happened
  · cases happened

end

/-- One stream reports and falls silent, and another takes its place. -/
def takeover : List Event :=
  [.connect 0, .look 0, .take 0, .receive 0 .status, .touch 0, .apply 0, .tick, .tick, .connect 1,
    .look 1, .take 1]

theorem one_stream_taken_over : ∃ s, Reachable (Server.step 2) (Server.calm 2) {} s ∧
    s.registered = some 1 ∧ s.silences = [2] ∧ ∀ silence ∈ s.silences, 2 ≤ silence := by
  obtain ⟨s, reached, one, two⟩ : ∃ s, Reachable (Server.step 2) (Server.calm 2) {} s ∧
    s.registered = some 1 ∧ s.silences = [2] := exists_of_run takeover (by decide +kernel)
  exact ⟨s, reached, one, two, (one_stream_when_calm reached).2.1⟩

/-- What comes in on a stream that was taken over is applied. -/
theorem displaced_session_reports : ∃ s,
    Reachable (Server.step 2) (fun _ _ => true) {} s ∧ ⟨0, .appStatus, true⟩ ∈ s.applied :=
  exists_of_run (takeover ++ [.receive 0 .appStatus, .touch 0, .apply 0]) (by decide +kernel)

end Horchestra.Nodeserver.Sessions
