import Horchestra.Agent.Jobs
import Horchestra.Agent.Returning

/-!
# What the handshake can hang on

The read of the announcement has a deadline, but the opens of the answer's pipe have none, on
either side.  A call of `Apply` therefore returns only when somebody comes to read its answer, and
a trampoline that the manager starts again, after the handshake is over, waits for a reader that
never comes while its unit counts as converged.

* `handshake_ends_of_orderly`: in every run in which each trampoline is started while an
  announcement is awaited, announces itself in time, is wired, and stays alive until it is
  answered, every call returns and nobody is stranded.
* `handshake_hangs`: two runs in which that fails.
-/

namespace Horchestra.Agent.Handshake

open Foundations NamedPipe ServiceManager Transitions

/-! ## Being stranded -/

/-- A goroutine of the handshake is running. -/
def State.shaking (s : State) : Bool :=
  match s.call with
  | .running _ wiring => wiring ≠ .ended
  | _ => false

/-- The first stage waits for someone to open the pipe of the announcement. -/
def State.BlockedInAnnounce (s : State) : Prop :=
  ∃ t g, s.trampoline = some t ∧ t.one = .holding g ∧ (s.pidPipe g).writer = .opening

/-- The second stage waits for someone to open the pipe of the answer, or to write into it. -/
def State.BlockedInAwait (s : State) : Prop :=
  ∃ t g, s.trampoline = some t ∧ t.two = .holding g ∧
    ((s.readyPipe g).reader = .opening ∨
      ((s.readyPipe g).buffer = [] ∧ (s.readyPipe g).writer ≠ .closed))

/-- The unit as the manager shows it: a service is active as soon as its trampoline runs, a job is
on its way up until it is done. -/
def State.status (s : State) (app : App) : Status where
  state := if s.trampoline.isSome && !app.lifecycle.runToCompletion then .active else .activating

/-- The manager, holding the unit as it was started. -/
def State.manager (s : State) (app : App) (properties : List Property) :
    Manager (List Property) Origin where
  units :=
    if s.unit then
      (∅ : Std.ExtTreeMap String (Loaded (List Property))).insert app.uid
        ⟨s.status app, properties⟩
    else ∅

/-- **Nothing will ever release the trampoline**: it waits, nobody is there to answer, and the unit
is taken as converged. -/
structure Stranded (r : Runtime) (answers : Answers) (runs : RunLedger) (app : App)
    (rendered : Rendered) (s : State) : Prop where
  blocked : s.BlockedInAnnounce ∨ s.BlockedInAwait
  alone : s.shaking = false
  converged :
    (r.inspect answers runs (s.manager app rendered.properties) app rendered).converged = true

/-! ## Orderly runs -/

def State.awaits (s : State) : Bool :=
  match s.call with
  | .running _ wiring => !wiring.pastDeadline
  | _ => false

def State.announced (s : State) : Bool :=
  match s.trampoline with
  | some t => t.one = .waiting
  | none => false

/-- A trampoline is started only while its announcement is awaited, announces itself before the
deadline, is wired by the helper, and is not killed from then until the handshake is over; nor is
its second stage, at any time while it lasts. -/
def orderly (s : State) : Event → Bool
  | .deadline => false
  | .setsUp succeeds => succeeds
  | .spawns => s.awaits
  | .dies => !s.shaking || !s.announced
  | .twoDies => !s.shaking
  | _ => true

/-! ## Everybody is tended -/

/-- The goroutine owes an answer to whoever has announced itself. -/
def Wiring.owes : Wiring → Bool
  | .reading => true
  | .settingUp _ => true
  | .toAnswer _ => true
  | .answering _ => true
  | _ => false

def State.owes (s : State) : Bool :=
  match s.call with
  | .running _ wiring => wiring.owes
  | _ => false

/-- The trampoline has been answered: its second stage is through, or gone, or has the answer
before it. -/
def Settled (s : State) (t : Trampoline) : Prop :=
  t.two = .passed ∨ t.two = .gone ∨
    ∃ g ≤ s.readyPath, t.two = .holding g ∧ (s.readyPipe g).reader = .opened ∧
      (s.readyPipe g).buffer = [.wired]

/-- The pipe of the answer holds nothing before the answer is given. -/
def Wiring.unwritten : Wiring → Bool
  | .fresh => true
  | .reading => true
  | .settingUp _ => true
  | .toAnswer _ => true
  | _ => false

/-- What holds of every state of an orderly run. -/
structure Tended (s : State) : Prop where
  unannounced : ∀ t, s.trampoline = some t → t.one ≠ .waiting →
    s.awaits = true ∧ (t.one = .announcing ∨ t.one = .holding s.pidPath) ∧ Waits s t ∧
      (s.pidPipe s.pidPath).buffer = []
  announced : ∀ t, s.trampoline = some t → t.one = .waiting →
    Settled s t ∨ Waits s t ∧ s.owes = true
  fresh : s.call = .pidPipeMade ∨ (∃ started, s.call = .running started .fresh) →
    (s.pidPipe s.pidPath).reader = .closed ∧ (s.pidPipe s.pidPath).buffer = []
  reading : ∀ started, s.call = .running started .reading →
    (s.pidPipe s.pidPath).reader = .opened ∧
      ((s.pidPipe s.pidPath).buffer = [] ∨
        ∃ t, s.trampoline = some t ∧ t.one = .waiting ∧ Waits s t ∧
          (s.pidPipe s.pidPath).buffer = [t.pid])
  unopened : ∀ started wiring, s.call = .running started wiring → wiring.unwritten = true →
    Unopened s ∧ (s.readyPipe s.readyPath).buffer = []
  settingUp : ∀ started pid, s.call = .running started (.settingUp pid) → ∃ t, Attended s t
  toAnswer : ∀ started answer, s.call = .running started (.toAnswer answer) →
    answer = .wired ∧ ∃ t, Attended s t
  answering : ∀ started answer, s.call = .running started (.answering answer) →
    answer = .wired ∧ ∃ t, Attended s t ∧ Met s

section

variable {s s' : State} {t : Trampoline} {event : Event}

theorem Tended.served (tended : Tended s) (past : s.pastDeadline = true) : s.call.Served s := by
  unfold State.pastDeadline at past
  cases call : s.call with
  | running up wiring =>
    rw [call] at past
    cases wiring with
    | fresh | reading => simp [Wiring.pastDeadline] at past
    | settingUp pid =>
      obtain ⟨t, att⟩ := tended.settingUp up pid call
      exact ⟨t, att, (tended.unopened up _ call rfl).1⟩
    | toAnswer answer =>
      obtain ⟨-, t, att⟩ := tended.toAnswer up answer call
      exact ⟨t, att, (tended.unopened up _ call rfl).1⟩
    | answering answer => exact (tended.answering up answer call).2
    | closing answer | ended => trivial
  | _ =>
    rw [call] at past
    cases past

/-- The goroutine neither awaits an announcement nor owes an answer. -/
def State.quiet (s : State) : Bool := !s.awaits && !s.owes

theorem quiet_of_not_shaking (alone : s.shaking = false) : s.quiet = true := by
  unfold State.shaking at alone
  unfold State.quiet State.awaits State.owes
  cases call : s.call with
  | running up wiring =>
    rw [call] at alone
    obtain rfl : wiring = .ended := by simpa using alone
    rfl
  | _ => rfl

/-- Where nothing is under way, whoever is there has been answered. -/
theorem Tended.settled (tended : Tended s) (quiet : s.quiet = true) (hit : s.trampoline = some t) :
    t.one = .waiting ∧ Settled s t := by
  obtain ⟨notAwaits, notOwes⟩ : s.awaits = false ∧ s.owes = false := by
    simpa [State.quiet] using quiet
  have announced : t.one = .waiting := by
    by_contra silent
    exact absurd (tended.unannounced t hit silent).1 (by simp [notAwaits])
  rcases tended.announced t hit announced with settled | ⟨-, owes⟩
  · exact ⟨announced, settled⟩
  · simp [notOwes] at owes

theorem engaged_of_call {up : Bool} {wiring : Wiring} (call : s.call = .running up wiring)
    (busy : wiring.pastDeadline = false ∨ wiring.owes = true) : s.quiet = false := by
  rcases busy with pre | owes
  · simp [State.quiet, State.awaits, call, pre]
  · simp [State.quiet, State.owes, call, owes]

/-- And that is all there is to show there. -/
theorem tended_of_quiet (quiet : s.quiet = true)
    (settled : ∀ t, s.trampoline = some t → t.one = .waiting ∧ Settled s t)
    (made : s.call = .pidPipeMade →
      (s.pidPipe s.pidPath).reader = .closed ∧ (s.pidPipe s.pidPath).buffer = []) : Tended s := by
  have busy {up : Bool} {wiring : Wiring} (call : s.call = .running up wiring)
      (engaged : wiring.pastDeadline = false ∨ wiring.owes = true) : False := by
    cases quiet.symm.trans (engaged_of_call call engaged)
  constructor
  case unannounced =>
    exact fun t hit unannounced => absurd (settled t hit).1 unannounced
  case announced => exact fun t hit _ => .inl (settled t hit).2
  case fresh =>
    rintro (call | ⟨up, call⟩)
    · exact made call
    · exact (busy call (.inl rfl)).elim
  case reading => exact fun _ call => (busy call (.inl rfl)).elim
  case unopened =>
    intro up wiring call unwritten
    cases wiring with
    | fresh | reading => exact (busy call (.inl rfl)).elim
    | settingUp _ | toAnswer _ => exact (busy call (.inr rfl)).elim
    | _ => simp [Wiring.unwritten] at unwritten
  case settingUp => exact fun _ _ call => (busy call (.inr rfl)).elim
  case toAnswer => exact fun _ _ call => (busy call (.inr rfl)).elim
  case answering => exact fun _ _ call => (busy call (.inr rfl)).elim

theorem Tended.not_blocked (tended : Tended s) (alone : s.shaking = false) :
    ¬ (s.BlockedInAnnounce ∨ s.BlockedInAwait) := by
  have rest {t : Trampoline} (hit : s.trampoline = some t) :=
    tended.settled (quiet_of_not_shaking alone) hit
  rintro (⟨t, g, hit, holding, -⟩ | ⟨t, g, hit, holding, blocked⟩)
  · cases holding.symm.trans (rest hit).1
  · rcases (rest hit).2 with passed | gone | ⟨g', -, held, opened, sent⟩
    · cases holding.symm.trans passed
    · cases holding.symm.trans gone
    · obtain rfl : g = g' := StageTwo.holding.inj (holding.symm.trans held)
      rcases blocked with opening | ⟨empty, -⟩
      · cases opened.symm.trans opening
      · cases empty.symm.trans sent

/-! ## What each step keeps -/

theorem Tended.empty (tended : Tended s) (engaged : s.quiet = false) :
    (s.readyPipe s.readyPath).buffer = [] := by
  cases call : s.call with
  | running up wiring =>
    cases wiring with
    | fresh | reading | settingUp _ | toAnswer _ => exact (tended.unopened up _ call rfl).2
    | answering answer =>
      obtain ⟨-, t, att, -⟩ := tended.answering up answer call
      exact att.empty
    | closing _ | ended =>
      exact absurd engaged (by simp [State.quiet, State.awaits, State.owes, call,
        Wiring.pastDeadline, Wiring.owes])
  | _ => simp [State.quiet, State.awaits, State.owes, call] at engaged

/-- Whoever has something in its pipe has been answered. -/
theorem Tended.settled_of_sent (tended : Tended s) (hit : s.trampoline = some t) {g : Nat}
    (holding : t.two = .holding g) (sent : (s.readyPipe g).buffer ≠ []) :
    t.one = .waiting ∧ Settled s t := by
  have notLatest (engaged : s.quiet = false) : ¬ Waits s t := by
    rintro (⟨starting, -⟩ | ⟨latest, -⟩)
    · cases holding.symm.trans starting
    · obtain rfl : g = s.readyPath := StageTwo.holding.inj (holding.symm.trans latest)
      exact sent (tended.empty engaged)
  have announced : t.one = .waiting := by
    by_contra silent
    obtain ⟨awaits, -, waits, -⟩ := tended.unannounced t hit silent
    exact notLatest (by simp [State.quiet, awaits]) waits
  refine ⟨announced, ?_⟩
  rcases tended.announced t hit announced with settled | ⟨waits, owes⟩
  · exact settled
  · exact absurd waits (notLatest (by simp [State.quiet, owes]))

theorem releaseOne_reader (one : StageOne) (pipes : Nat → Pipe Nat) (g : Nat) :
    (one.release pipes g).reader = (pipes g).reader := by
  cases one with
  | holding held =>
    by_cases eq : g = held
    · subst eq
      simp [StageOne.release, Pipe.closeWriter]
    · simp [StageOne.release, eq]
  | announcing | waiting => rfl

theorem releaseOne_buffer (one : StageOne) {pipes : Nat → Pipe Nat} {g : Nat}
    (empty : (pipes g).buffer = []) : (one.release pipes g).buffer = [] := by
  cases one with
  | holding held =>
    by_cases eq : g = held
    · subst eq
      simp [StageOne.release, Pipe.closeWriter, empty]
    · simpa [StageOne.release, eq] using empty
  | announcing | waiting => exact empty

/-- Where nobody waits for the goroutine it owes nothing but to an announcement it has yet to read.
-/
theorem Tended.unattended (tended : Tended s)
    (alone : ∀ t, s.trampoline = some t → t.one = .waiting → Waits s t → s.quiet = true) :
    (∀ up wiring, s.call = .running up wiring → wiring.owes = true → wiring = .reading) ∧
      ∀ up, s.call = .running up .reading → (s.pidPipe s.pidPath).buffer = [] := by
  have lost {up : Bool} {wiring : Wiring} (call : s.call = .running up wiring)
      (owes : wiring.owes = true) {t : Trampoline} (att : Attended s t) : False := by
    cases (alone t att.present att.one att.waits).symm.trans
      (engaged_of_call call (.inr owes))
  refine ⟨fun up wiring call owes => ?_, fun up call => ?_⟩
  · cases wiring with
    | reading => rfl
    | settingUp pid =>
      obtain ⟨t, att⟩ := tended.settingUp up pid call
      exact (lost call owes att).elim
    | toAnswer answer =>
      obtain ⟨-, t, att⟩ := tended.toAnswer up answer call
      exact (lost call owes att).elim
    | answering answer =>
      obtain ⟨-, t, att, -⟩ := tended.answering up answer call
      exact (lost call owes att).elim
    | _ => cases owes
  · obtain ⟨-, empty | ⟨t, eq, one, waits, -⟩⟩ := tended.reading up call
    · exact empty
    · cases (alone t eq one waits).symm.trans (engaged_of_call call (.inr rfl))

/-- The trampoline goes: before it announced itself, after it was answered, or while nothing is
under way. -/
theorem Tended.vacate (tended : Tended s) (hit : s.trampoline = some t)
    (free : t.one ≠ .waiting ∨ ¬ Waits s t ∨ s.quiet = true) : Tended s.vacate := by
  -- nobody who is waited for is lost
  obtain ⟨idle, empty⟩ := tended.unattended fun t' eq one waits => by
    obtain rfl : t = t' := Option.mem_unique hit eq
    rcases free with unannounced | settled | quiet
    · exact absurd one unannounced
    · exact absurd waits settled
    · exact quiet
  have gone := vacate_trampoline s
  simp only [State.vacate, hit] at gone ⊢
  constructor
  case unannounced => rintro _ ⟨⟩
  case announced => rintro _ ⟨⟩
  case fresh =>
    intro call
    obtain ⟨closed, empty⟩ := tended.fresh call
    exact ⟨(releaseOne_reader t.one s.pidPipe s.pidPath).trans closed,
      releaseOne_buffer t.one empty⟩
  case reading =>
    intro up call
    exact ⟨(releaseOne_reader t.one s.pidPipe s.pidPath).trans (tended.reading up call).1,
      .inl (releaseOne_buffer t.one (empty up call))⟩
  case unopened =>
    intro up wiring call unwritten
    obtain ⟨⟨closed, unread⟩, empty⟩ := tended.unopened up wiring call unwritten
    refine ⟨⟨(release_writer t.two s.readyPipe s.readyPath).trans closed, ?_⟩, ?_⟩
    · change (t.two.release s.readyPipe s.readyPath).reader ≠ .opened
      rw [release_reader]
      split
      · simp
      · exact unread
    change (t.two.release s.readyPipe s.readyPath).buffer = []
    rw [release_buffer, empty, ite_self]
  case settingUp => exact fun up pid call => by cases idle up _ call rfl
  case toAnswer => exact fun up answer call => by cases idle up _ call rfl
  case answering => exact fun up answer call => by cases idle up _ call rfl

theorem Tended.twoOpens (tended : Tended s) (hit : s.trampoline = some t)
    (starting : t.two = .starting) :
    Tended ({ s with trampoline := some { t with two := .holding s.readyPath } }.setReadyPipe
      s.readyPath (s.readyPipe s.readyPath).openReader) := by
  have waits : Waits ({ s with trampoline := some { t with two := .holding s.readyPath } }.setReadyPipe
      s.readyPath (s.readyPipe s.readyPath).openReader) { t with two := .holding s.readyPath } :=
    .inr ⟨rfl, by simp [Pipe.openReader]⟩
  constructor
  case unannounced =>
    rintro t' ⟨⟩ unannounced
    obtain ⟨awaits, one, -, empty⟩ := tended.unannounced t hit unannounced
    exact ⟨awaits, one, waits, empty⟩
  case announced =>
    rintro t' ⟨⟩ announced
    rcases tended.announced t hit announced with settled | ⟨-, owes⟩
    · rcases settled with passed | gone | ⟨g, -, held, -, -⟩
      · cases starting.symm.trans passed
      · cases starting.symm.trans gone
      · cases starting.symm.trans held
    · exact .inr ⟨waits, owes⟩
  case fresh => exact tended.fresh
  case reading =>
    intro up call
    obtain ⟨opened, empty | ⟨t', eq, one, -, sent⟩⟩ := tended.reading up call
    · exact ⟨opened, .inl empty⟩
    obtain rfl : t = t' := Option.mem_unique hit eq
    exact ⟨opened, .inr ⟨_, rfl, one, waits, sent⟩⟩
  case unopened =>
    intro up wiring call unwritten
    obtain ⟨unopened, empty⟩ := tended.unopened up wiring call unwritten
    exact ⟨unopened.twoOpens, by simpa [Pipe.openReader] using empty⟩
  case settingUp =>
    intro up pid call
    obtain ⟨t', att⟩ := tended.settingUp up pid call
    obtain rfl := att.same hit
    exact ⟨_, att.twoOpens⟩
  case toAnswer =>
    intro up answer call
    obtain ⟨wired, t', att⟩ := tended.toAnswer up answer call
    obtain rfl := att.same hit
    exact ⟨wired, _, att.twoOpens⟩
  case answering =>
    intro up answer call
    obtain ⟨wired, t', att, met⟩ := tended.answering up answer call
    obtain rfl := att.same hit
    exact ⟨wired, _, att.twoOpens, met.twoOpens (att.unread starting)⟩

theorem Tended.twoPasses (tended : Tended s) (hit : s.trampoline = some t) {g : Nat}
    (holding : t.two = .holding g) (sent : (s.readyPipe g).buffer ≠ []) :
    Tended { s.readTwo t g .passed with released := t.pid :: s.released } := by
  obtain ⟨announced, -⟩ := tended.settled_of_sent hit holding sent
  -- while something is under way this is an older pipe
  have older (engaged : s.quiet = false) : s.readyPath ≠ g := by
    rintro rfl
    exact sent (tended.empty engaged)
  have unchanged (engaged : s.quiet = false) :
      (s.readTwo t g .passed).readyPipe s.readyPath = s.readyPipe s.readyPath := by
    simp [holding, StageTwo.release, older engaged]
  obtain ⟨idle, empty⟩ := tended.unattended fun t' eq _ waits => by
    obtain rfl : t = t' := Option.mem_unique hit eq
    by_contra busy
    rcases waits with ⟨starting, -⟩ | ⟨latest, -⟩
    · cases holding.symm.trans starting
    · exact older (by simpa using busy) (StageTwo.holding.inj (latest.symm.trans holding))
  constructor
  case unannounced =>
    rintro t' ⟨⟩ unannounced
    contradiction
  case announced =>
    rintro t' ⟨⟩ _
    exact .inl (.inl rfl)
  case fresh => exact tended.fresh
  case reading => exact fun up call => ⟨(tended.reading up call).1, .inl (empty up call)⟩
  case unopened =>
    intro up wiring call unwritten
    have busy : s.quiet = false := by
      cases wiring with
      | fresh | reading => exact engaged_of_call call (.inl rfl)
      | settingUp _ | toAnswer _ => exact engaged_of_call call (.inr rfl)
      | _ => simp [Wiring.unwritten] at unwritten
    have eq := unchanged busy
    obtain ⟨⟨closed, unread⟩, empty⟩ := tended.unopened up wiring call unwritten
    exact ⟨⟨(congrArg Pipe.writer eq).trans closed,
      fun opened => unread ((congrArg Pipe.reader eq).symm.trans opened)⟩,
      (congrArg Pipe.buffer eq).trans empty⟩
  case settingUp => exact fun up pid call => by cases idle up _ call rfl
  case toAnswer => exact fun up answer call => by cases idle up _ call rfl
  case answering => exact fun up answer call => by cases idle up _ call rfl

theorem Tended.congr (tended : Tended s) (call : s'.call = s.call)
    (trampoline : s'.trampoline = s.trampoline) (pidPath : s'.pidPath = s.pidPath)
    (readyPath : s'.readyPath = s.readyPath) (pidPipe : s'.pidPipe = s.pidPipe)
    (readyPipe : s'.readyPipe = s.readyPipe) : Tended s' := by
  obtain ⟨_, _, _, _, _, _, _, _, _, _⟩ := s
  obtain ⟨_, _, _, _, _, _, _, _, _, _⟩ := s'
  cases call
  cases trampoline
  cases pidPath
  cases readyPath
  cases pidPipe
  cases readyPipe
  exact ⟨tended.unannounced, tended.announced, tended.fresh, tended.reading, tended.unopened,
    fun up pid call =>
      let ⟨t, att⟩ := tended.settingUp up pid call
      ⟨t, att.congr rfl rfl rfl⟩,
    fun up answer call =>
      let ⟨wired, t, att⟩ := tended.toAnswer up answer call
      ⟨wired, t, att.congr rfl rfl rfl⟩,
    fun up answer call =>
      let ⟨wired, t, att, met⟩ := tended.answering up answer call
      ⟨wired, t, att.congr rfl rfl rfl, met⟩⟩

theorem tended_of_attended {up : Bool} {wiring : Wiring} (att : Attended s t)
    (call : s.call = .running up wiring)
    (stage : ((∃ pid, wiring = .settingUp pid) ∨ wiring = .toAnswer .wired) ∧ Unopened s ∨
      wiring = .answering .wired ∧ Met s) : Tended s := by
  have stageOf {up' : Bool} {wiring' : Wiring} (call' : s.call = .running up' wiring') :
      wiring' = wiring := (Call.running.inj (call'.symm.trans call)).2
  have owes : s.owes = true := by
    unfold State.owes
    rw [call]
    rcases stage with ⟨⟨pid, rfl⟩ | rfl, -⟩ | ⟨rfl, -⟩ <;> rfl
  constructor
  case unannounced =>
    intro t' hit unannounced
    obtain rfl := att.same hit
    exact absurd att.one unannounced
  case announced =>
    intro t' hit _
    obtain rfl := att.same hit
    exact .inr ⟨att.waits, owes⟩
  case fresh =>
    rintro (made | ⟨_, fresh⟩)
    · cases made.symm.trans call
    · obtain rfl := stageOf fresh
      simp at stage
  case reading =>
    intro _ reading
    obtain rfl := stageOf reading
    simp at stage
  case unopened =>
    intro _ wiring' call' unwritten
    obtain rfl := stageOf call'
    rcases stage with ⟨-, unopened⟩ | ⟨rfl, -⟩
    · exact ⟨unopened, att.empty⟩
    · simp [Wiring.unwritten] at unwritten
  case settingUp => exact fun _ _ _ => ⟨t, att⟩
  case toAnswer =>
    intro _ answer call'
    obtain rfl := stageOf call'
    have ready : answer = .wired ∧ Unopened s := by simpa using stage
    exact ⟨ready.1, t, att⟩
  case answering =>
    intro _ answer call'
    obtain rfl := stageOf call'
    have met : answer = .wired ∧ Met s := by simpa using stage
    exact ⟨met.1, t, att, met.2⟩

theorem Tended.makesReadyPipe (tended : Tended s) (call : s.call = .pidPipeMade) :
    Tended s.makeReadyPipe := by
  have rest {t : Trampoline} (hit : s.trampoline = some t) :=
    tended.settled (by simp [State.quiet, State.awaits, State.owes, call]) hit
  constructor
  case unannounced => exact fun t hit unannounced => absurd (rest hit).1 unannounced
  case announced =>
    intro t hit _
    refine .inl ?_
    rcases (rest hit).2 with passed | gone | ⟨g, older, held, opened, sent⟩
    · exact .inl passed
    · exact .inr (.inl gone)
    · have other : g ≠ s.readyPath + 1 := by omega
      exact .inr (.inr ⟨g, Nat.le_succ_of_le older, held, by simpa [other] using opened,
        by simpa [other] using sent⟩)
  case fresh => exact fun _ => tended.fresh (.inl call)
  case reading => rintro _ ⟨⟩
  case unopened => exact fun _ _ _ _ => by simp [Unopened]
  case settingUp | toAnswer | answering =>
    rintro _ _ ⟨⟩

theorem Tended.starts (tended : Tended s) {wiring : Wiring}
    (call : s.call = .running false wiring) :
    Tended (s.wiringAt true wiring) := by
  have pre {up : Bool} {wiring' : Wiring}
      (after : (s.wiringAt true wiring).call = .running up wiring') :
      s.call = .running false wiring' := by
    rw [call, (Call.running.inj after).2]
  constructor
  case unannounced =>
    intro t hit unannounced
    simpa [State.awaits, call, Waits] using tended.unannounced t hit unannounced
  case announced =>
    intro t hit announced
    simpa [State.owes, call, Waits, Settled] using tended.announced t hit announced
  case fresh =>
    rintro (made | ⟨_, fresh⟩)
    · cases made
    · exact tended.fresh (.inr ⟨false, pre fresh⟩)
  case reading => exact fun _ reading => tended.reading false (pre reading)
  case unopened => exact fun _ wiring' after unwritten =>
    tended.unopened false wiring' (pre after) unwritten
  case settingUp =>
    intro _ pid after
    obtain ⟨t, att⟩ := tended.settingUp false pid (pre after)
    exact ⟨t, att.congr rfl rfl rfl⟩
  case toAnswer =>
    intro _ answer after
    obtain ⟨wired, t, att⟩ := tended.toAnswer false answer (pre after)
    exact ⟨wired, t, att.congr rfl rfl rfl⟩
  case answering =>
    intro _ answer after
    obtain ⟨wired, t, att, met⟩ := tended.answering false answer (pre after)
    exact ⟨wired, t, att.congr rfl rfl rfl, met⟩

theorem Tended.opensPid (tended : Tended s) {up : Bool}
    (call : s.call = .running up .fresh) :
    Tended ((s.wiringAt up .reading).setPidPipe s.pidPath (s.pidPipe s.pidPath).openBoth) := by
  obtain ⟨-, empty⟩ := tended.fresh (.inr ⟨up, call⟩)
  constructor
  case unannounced =>
    intro t hit unannounced
    obtain ⟨-, one, waits, -⟩ := tended.unannounced t hit unannounced
    exact ⟨rfl, one, waits, by simpa [Pipe.openBoth] using empty⟩
  case announced =>
    intro t hit announced
    rcases tended.announced t hit announced with settled | ⟨-, owes⟩
    · exact .inl settled
    · simp [State.owes, call, Wiring.owes] at owes
  case fresh =>
    rintro (made | ⟨_, fresh⟩)
    · cases made
    · exact absurd (Call.running.inj fresh).2 (by simp)
  case reading => exact fun _ _ =>
    ⟨by simp [Pipe.openBoth], .inl (by simpa [Pipe.openBoth] using empty)⟩
  case unopened => exact fun _ _ _ _ => tended.unopened up .fresh call rfl
  case settingUp | toAnswer | answering =>
    rintro _ _ ⟨⟩

theorem Tended.writesAnswer (att : Attended s t) (met : Met s)
    (ready : (s.readyPipe s.readyPath).writer = .opened) {pipe : Pipe Answer}
    (wrote : (s.readyPipe s.readyPath).write .wired = some pipe) (up : Bool) :
    Tended ((s.wiringAt up (.closing .wired)).setReadyPipe s.readyPath pipe) := by
  have opened : (s.readyPipe s.readyPath).reader = .opened := by
    rcases met with ⟨opening, -⟩ | ⟨-, opened⟩
    · cases ready.symm.trans opening
    · exact opened
  have holding : t.two = .holding s.readyPath := by
    rcases att.waits with ⟨-, closed⟩ | ⟨holding, -⟩
    · cases closed.symm.trans opened
    · exact holding
  obtain rfl : { s.readyPipe s.readyPath with buffer := [.wired] } = pipe := by
    simpa [Pipe.write, opened, att.empty] using wrote
  apply tended_of_quiet
  · rfl
  · intro t' hit
    obtain rfl := att.same hit
    exact ⟨att.one, .inr (.inr ⟨s.readyPath, le_refl _, holding, by simpa using opened, by simp⟩)⟩
  · rintro ⟨⟩

theorem Tended.closesReady (tended : Tended s) {up : Bool} {answer : Answer}
    (call : s.call = .running up (.closing answer)) :
    Tended ((s.wiringAt up .ended).setReadyPipe s.readyPath
      (s.readyPipe s.readyPath).closeWriter) := by
  apply tended_of_quiet
  · rfl
  · intro t hit
    obtain ⟨one, settled⟩ := tended.settled
      (by simp [State.quiet, State.awaits, State.owes, call, Wiring.owes, Wiring.pastDeadline])
      hit
    refine ⟨one, ?_⟩
    rcases settled with passed | gone | ⟨g, older, holding, opened, sent⟩
    · exact .inl passed
    · exact .inr (.inl gone)
    · refine .inr (.inr ⟨g, older, holding, ?_⟩)
      by_cases eq : g = s.readyPath
      · subst eq
        simpa [Pipe.closeWriter, opened] using sent
      · simpa [eq] using And.intro opened sent
  · rintro ⟨⟩

theorem awaits_cases (awaits : s.awaits = true) :
    ∃ up, s.call = .running up .fresh ∨ s.call = .running up .reading := by
  unfold State.awaits at awaits
  cases call : s.call with
  | running up wiring =>
    rw [call] at awaits
    cases wiring with
    | fresh => exact ⟨up, .inl rfl⟩
    | reading => exact ⟨up, .inr rfl⟩
    | _ => simp [Wiring.pastDeadline] at awaits
  | _ =>
    rw [call] at awaits
    cases awaits

theorem tended_of_awaits (awaits : s.awaits = true)
    (unannounced : ∀ t, s.trampoline = some t → t.one ≠ .waiting →
      (t.one = .announcing ∨ t.one = .holding s.pidPath) ∧ Waits s t ∧
        (s.pidPipe s.pidPath).buffer = [])
    (announced : ∀ t, s.trampoline = some t → t.one = .waiting →
      Settled s t ∨ Waits s t ∧ s.owes = true)
    (fresh : ∀ up, s.call = .running up .fresh →
      (s.pidPipe s.pidPath).reader = .closed ∧ (s.pidPipe s.pidPath).buffer = [])
    (reading : ∀ up, s.call = .running up .reading →
      (s.pidPipe s.pidPath).reader = .opened ∧
        ((s.pidPipe s.pidPath).buffer = [] ∨
          ∃ t, s.trampoline = some t ∧ t.one = .waiting ∧ Waits s t ∧
            (s.pidPipe s.pidPath).buffer = [t.pid]))
    (unopened : Unopened s ∧ (s.readyPipe s.readyPath).buffer = []) : Tended s := by
  have early {up : Bool} {wiring : Wiring} (call : s.call = .running up wiring) :
      wiring.pastDeadline = false := by
    simpa [State.awaits, call] using awaits
  constructor
  case unannounced => exact fun t hit one => ⟨awaits, unannounced t hit one⟩
  case announced => exact announced
  case fresh =>
    rintro (made | ⟨up, call⟩)
    · simp [State.awaits, made] at awaits
    · exact fresh up call
  case reading => exact reading
  case unopened => exact fun _ _ _ _ => unopened
  case settingUp => exact fun _ _ call => absurd (early call) (by simp [Wiring.pastDeadline])
  case toAnswer => exact fun _ _ call => absurd (early call) (by simp [Wiring.pastDeadline])
  case answering => exact fun _ _ call => absurd (early call) (by simp [Wiring.pastDeadline])

theorem Tended.unopened_of_awaits (tended : Tended s) (awaits : s.awaits = true) :
    Unopened s ∧ (s.readyPipe s.readyPath).buffer = [] := by
  obtain ⟨up, call | call⟩ := awaits_cases awaits
  · exact tended.unopened up .fresh call rfl
  · exact tended.unopened up .reading call rfl

theorem Tended.oneOpens (tended : Tended s) (hit : s.trampoline = some t)
    (announcing : t.one = .announcing) :
    Tended ({ s with trampoline := some { t with one := .holding s.pidPath } }.setPidPipe s.pidPath
      (s.pidPipe s.pidPath).openWriter) := by
  obtain ⟨awaits, -, waits, empty⟩ := tended.unannounced t hit (by simp [announcing])
  apply tended_of_awaits
  · exact awaits
  · rintro t' ⟨⟩ _
    exact ⟨.inr rfl, waits, by simpa [Pipe.openWriter] using empty⟩
  · rintro t' ⟨⟩ announced
    cases announced
  · intro up call
    obtain ⟨closed, -⟩ := tended.fresh (.inr ⟨up, call⟩)
    exact ⟨by simp [Pipe.openWriter, closed], by simpa [Pipe.openWriter] using empty⟩
  · intro up call
    obtain ⟨opened, -⟩ := tended.reading up call
    exact ⟨by simp [Pipe.openWriter, opened, Side.woken],
      .inl (by simpa [Pipe.openWriter] using empty)⟩
  · exact tended.unopened_of_awaits awaits

theorem Tended.oneWrites (tended : Tended s) (hit : s.trampoline = some t) {g : Nat}
    {pipe : Pipe Nat} (holding : t.one = .holding g)
    (wrote : (s.pidPipe g).write t.pid = some pipe) :
    Tended ({ s with trampoline := some { t with one := .waiting } }.setPidPipe g
      pipe.closeWriter) := by
  obtain ⟨awaits, one, waits, empty⟩ := tended.unannounced t hit (by simp [holding])
  obtain rfl : g = s.pidPath := by simpa [holding] using one
  unfold Pipe.write at wrote
  split at wrote
  case isTrue => cases wrote
  case isFalse readable =>
    cases wrote
    -- the pipe has a reader, so the goroutine reads
    have owes : s.owes = true := by
      obtain ⟨up, call | call⟩ := awaits_cases awaits
      · exact absurd (tended.fresh (.inr ⟨up, call⟩)).1 readable
      · simp [State.owes, call, Wiring.owes]
    apply tended_of_awaits
    · exact awaits
    · rintro t' ⟨⟩ silent
      contradiction
    · rintro t' ⟨⟩ _
      exact .inr ⟨waits, owes⟩
    · intro up call
      exact absurd (tended.fresh (.inr ⟨up, call⟩)).1 readable
    · intro up call
      obtain ⟨opened, -⟩ := tended.reading up call
      refine ⟨by simpa [Pipe.closeWriter] using opened, .inr ⟨_, rfl, rfl, waits, ?_⟩⟩
      simp [Pipe.closeWriter, opened, empty]
    · exact tended.unopened_of_awaits awaits

theorem Tended.spawns (tended : Tended s) (held : Held s) (gone : s.trampoline = none)
    (awaits : s.awaits = true) :
    Tended { s with trampoline := some { pid := s.spawned }, spawned := s.spawned + 1 } := by
  have unread : (s.readyPipe s.readyPath).reader = .closed := by
    by_contra read
    obtain ⟨t, hit, -⟩ := held s.readyPath read
    cases gone.symm.trans hit
  have silent (up : Bool) (call : s.call = .running up .reading) :
      (s.pidPipe s.pidPath).buffer = [] := by
    obtain ⟨-, empty | ⟨t, hit, -⟩⟩ := tended.reading up call
    · exact empty
    · cases gone.symm.trans hit
  apply tended_of_awaits
  · exact awaits
  · rintro t' ⟨⟩ _
    refine ⟨.inl rfl, .inl ⟨rfl, unread⟩, ?_⟩
    obtain ⟨up, call | call⟩ := awaits_cases awaits
    · exact (tended.fresh (.inr ⟨up, call⟩)).2
    · exact silent up call
  · rintro t' ⟨⟩ announced
    cases announced
  · exact fun up call => tended.fresh (.inr ⟨up, call⟩)
  · exact fun up call => ⟨(tended.reading up call).1, .inl (silent up call)⟩
  · exact tended.unopened_of_awaits awaits

/-- Nobody finds the pipe of its answer left empty. -/
theorem Tended.not_ended (tended : Tended s) (hit : s.trampoline = some t) {g : Nat}
    (holding : t.two = .holding g) (opened : (s.readyPipe g).reader = .opened)
    (left : (s.readyPipe g).writer = .closed) (empty : (s.readyPipe g).buffer = []) : False := by
  -- on the latest pipe the two sides meet before either is opened
  have notWaits (engaged : s.awaits = true ∨ s.owes = true) : ¬ Waits s t := by
    rintro (⟨starting, -⟩ | ⟨latest, -⟩)
    · cases holding.symm.trans starting
    · obtain rfl : g = s.readyPath := StageTwo.holding.inj (holding.symm.trans latest)
      cases call : s.call with
      | running up wiring =>
        cases wiring with
        | fresh | reading | settingUp _ | toAnswer _ =>
          exact (tended.unopened up _ call rfl).1.2 opened
        | answering answer =>
          obtain ⟨-, _, -, ⟨opening, -⟩ | ⟨met, -⟩⟩ := tended.answering up answer call
          · cases left.symm.trans opening
          · cases left.symm.trans met
        | closing _ | ended =>
          exact absurd engaged (by simp [State.awaits, State.owes, call, Wiring.pastDeadline,
            Wiring.owes])
      | _ => simp [State.awaits, State.owes, call] at engaged
  by_cases announced : t.one = .waiting
  · rcases tended.announced t hit announced with settled | ⟨waits, owes⟩
    · rcases settled with passed | gone | ⟨g', -, held, -, sent⟩
      · cases holding.symm.trans passed
      · cases holding.symm.trans gone
      · obtain rfl : g = g' := StageTwo.holding.inj (holding.symm.trans held)
        cases empty.symm.trans sent
    · exact notWaits (.inr owes) waits
  obtain ⟨awaits, -, waits, -⟩ := tended.unannounced t hit announced
  exact notWaits (.inl awaits) waits

/-- **One orderly step leaves everybody tended.** -/
theorem Tended.moves (tended : Tended s) (held : Held s) (moved : Moves s event s')
    (inOrder : orderly s event = true) : Tended s' := by
  cases moved with
  | stops call =>
    apply tended_of_quiet
    · rfl
    · intro t hit
      cases (vacate_trampoline s).symm.trans hit
    · rintro ⟨⟩
  | cannotStop call =>
    apply tended_of_quiet
    · rfl
    · exact fun t hit =>
        tended.settled (by simp [State.quiet, State.awaits, State.owes, call]) hit
    · rintro ⟨⟩
  | makesPidPipe call =>
    apply tended_of_quiet
    · rfl
    · exact fun t hit =>
        tended.settled (by simp [State.quiet, State.awaits, State.owes, call]) hit
    · exact fun _ => by simp
  | makesReadyPipe call => exact tended.makesReadyPipe call
  | starts call _ => exact (tended.starts call).congr rfl rfl rfl rfl rfl rfl
  | returns call =>
    apply tended_of_quiet
    · rfl
    · exact fun t hit => tended.settled
        (by simp [State.quiet, State.awaits, State.owes, call, Wiring.owes, Wiring.pastDeadline])
        hit
    · rintro ⟨⟩
  | opensPid call => exact tended.opensPid call
  | @readsPid up pid rest call announced =>
    obtain ⟨-, empty | ⟨t, hit, one, waits, sent⟩⟩ := tended.reading up call
    · cases announced.symm.trans empty
    cases announced.symm.trans sent
    obtain ⟨unopened, empty⟩ := tended.unopened up .reading call rfl
    have att : Attended s t := ⟨hit, one, waits, empty⟩
    exact tended_of_attended (att.congr rfl rfl rfl) rfl
      (.inl ⟨.inl ⟨t.pid, rfl⟩, unopened.congr rfl rfl⟩)
  | deadline | setupFails => simp [orderly] at inOrder
  | @setupSucceeds up pid _ call _ _ _ =>
    obtain ⟨t, att⟩ := tended.settingUp up pid call
    have unopened := (tended.unopened up _ call rfl).1
    exact tended_of_attended (att.congr rfl rfl rfl) rfl
      (.inl ⟨.inr rfl, unopened.congr rfl rfl⟩)
  | @opensReady up answer call =>
    obtain ⟨rfl, t, att⟩ := tended.toAnswer up answer call
    obtain ⟨att', met⟩ := att.opensReady (tended.unopened up _ call rfl).1 up
      .wired
    exact tended_of_attended att' rfl (.inr ⟨rfl, met⟩)
  | @writesAnswer up answer pipe call ready written =>
    obtain ⟨rfl, t, att, met⟩ := tended.answering up answer call
    exact Tended.writesAnswer att met ready written up
  | @answerRefused up answer call ready refused =>
    obtain ⟨-, t, att, met⟩ := tended.answering up answer call
    rcases met with ⟨opening, -⟩ | ⟨-, opened⟩
    · cases ready.symm.trans opening
    · simp [Pipe.write, opened] at refused
  | closesReady call => exact tended.closesReady call
  | oneOpens hit one => exact tended.oneOpens hit one
  | oneWrites hit one _ written => exact tended.oneWrites hit one written
  | oneRefused hit one _ _ => exact tended.vacate hit (.inl (by simp [one]))
  | oneExits hit _ two =>
    refine tended.vacate hit (.inr (.inl ?_))
    rintro (⟨starting, -⟩ | ⟨holding, -⟩)
    · cases two.symm.trans starting
    · cases two.symm.trans holding
  | twoOpens hit two => exact tended.twoOpens hit two
  | twoPasses hit two _ sent => exact tended.twoPasses hit two (by simp [sent])
  | @twoFails t g _ hit two _ sent =>
    rcases (tended.settled_of_sent hit two (by simp [sent])).2 with
      passed | gone | ⟨g', -, holding, -, wired⟩
    · cases two.symm.trans passed
    · cases two.symm.trans gone
    · obtain rfl : g = g' := StageTwo.holding.inj (two.symm.trans holding)
      cases sent.symm.trans wired
  | twoEnds hit two ready left empty => exact (tended.not_ended hit two ready left empty).elim
  | @dies t hit =>
    refine tended.vacate hit ?_
    by_cases announced : t.one = .waiting
    · have alone : s.shaking = false := by
        simpa [orderly, State.announced, hit, announced] using inOrder
      exact .inr (.inr (quiet_of_not_shaking alone))
    · exact .inl announced
  | twoDies hit _ =>
    have quiet := quiet_of_not_shaking (s := s) (by simpa [orderly] using inOrder)
    apply tended_of_quiet
    · exact quiet
    · rintro t' ⟨⟩
      exact ⟨(tended.settled quiet hit).1, .inr (.inl rfl)⟩
    · exact fun made => tended.fresh (.inl made)
  | spawns absent _ => exact tended.spawns held absent inOrder
  | unloads => exact tended.congr rfl rfl rfl rfl rfl rfl

end

/-! ## Whole runs -/

theorem tended_start : Tended {} := tended_of_quiet rfl (by rintro _ ⟨⟩) (by rintro ⟨⟩)

/-- **Every call returns and nobody is stranded.** -/
theorem handshake_ends_of_orderly {s : State} (reached : Reachable step orderly {} s) :
    (s.pastDeadline = true → Inevitable step progress (fun s => s.call = .idle) s) ∧
      ∀ r answers runs app rendered, ¬ Stranded r answers runs app rendered s := by
  have invariant := reached.invariant (fun s => Held s ∧ Tended s)
    ⟨fun _ read => absurd rfl read, tended_start⟩
    (by
      rintro s s' event ⟨held, tended⟩ inOrder happened
      have moved := moves_of_step happened
      exact ⟨held.moves moved, tended.moves held moved inOrder⟩)
  obtain ⟨-, tended⟩ := invariant
  exact ⟨fun past => returns_of_served (tended.served past),
    fun r answers runs app rendered stranded => tended.not_blocked stranded.alone stranded.blocked⟩

/-- A start up to the point where the second stage waits and its helper is asked. -/
def startToSetup : List Event :=
  [.begins true, .makesPidPipe, .makesReadyPipe, .opensPid, .starts true, .spawns, .oneOpens,
    .oneWrites, .readsPid, .twoOpens]

theorem handshake_ends_of_orderly_start :
    ∃ s, run step orderly {} startToSetup = some s ∧ s.pastDeadline = true ∧
      Inevitable step progress (fun s => s.call = .idle) s := by
  have ran : (run step orderly {} startToSetup).map (·.pastDeadline) = some true := by decide
  obtain ⟨s, reached, past⟩ := Option.map_eq_some_iff.mp ran
  exact ⟨s, reached, past, (handshake_ends_of_orderly (Reachable.start.run reached)).1 past⟩

/-! ## Disorderly runs -/

/-- The trampoline never comes: the read times out, and the answer waits for a reader. -/
def neverStarts : List Event :=
  [.begins true, .makesPidPipe, .makesReadyPipe, .opensPid, .starts true, .deadline, .opensReady]

/-- A workload that was wired exits, and the manager starts its trampoline again. -/
def restarted : List Event :=
  startToSetup ++ [.setsUp true, .opensReady, .writesAnswer, .twoReads, .closesReady, .returns,
    .twoDies, .oneExits, .spawns, .oneOpens, .twoOpens]

def routedService : App where
  uid := "0d9c2f6e-3b1a-4c5d-9e8f-7a6b5c4d3e2f"
  name := "web"
  ns := "team"
  hostNetwork := false
  address := "10.1.0.7"

def routedRendered : Rendered where
  rotated := false
  sum := "7f"
  properties := plainRuntime.unitProperties routedService.uid "7f" routedService

/-- **A call never returns, and a restarted service is never released**: two runs. -/
theorem handshake_hangs :
    (∃ s, Reachable step anytime {} s ∧ s.pastDeadline = true ∧
      ¬ Inevitable step progress (fun s => s.call = .idle) s) ∧
    ∃ s, Reachable step anytime {} s ∧
      Stranded plainRuntime {} {} routedService routedRendered s := by
  constructor
  · let s : State := (run step anytime {} neverStarts).getD {}
    have ran : run step anytime {} neverStarts = some s := rfl
    have waits : s.call = .running true (.answering .failed) := rfl
    refine ⟨s, Reachable.start.run ran, rfl, not_inevitable_of_stuck (by simp [waits]) ?_⟩
    intro event progresses
    cases event <;> first | rfl | simp [progress] at progresses
  let s : State := (run step anytime {} restarted).getD {}
  have ran : run step anytime {} restarted = some s := rfl
  exact ⟨s, Reachable.start.run ran, ⟨.inl ⟨_, _, rfl, rfl, rfl⟩, rfl, by decide +kernel⟩⟩

end Horchestra.Agent.Handshake
