import Horchestra.Agent.Handshake

/-!
# When a call of `Apply` returns

The read of the announcement has a deadline, but the open of the answer's pipe has none: it waits
until somebody comes to read.  `Attended` says that somebody will: the trampoline that is alive has
announced itself and has yet to be answered, on the latest pipe.  From there on every step of
progress brings the goroutine closer to its end (`size_lt_of_moves`) and some step can always be
taken (`exists_progress`), so that the call returns along every schedule (`returns_of_served`).
-/

namespace Horchestra.Agent.Handshake

open Foundations NamedPipe Transitions

/-! ## Progress -/

/-- The steps somebody takes of their own accord; the rest is up to the surroundings. -/
def progress : Event → Bool
  | .begins _ => false
  | .spawns => false
  | .dies => false
  | .twoDies => false
  | .unloads => false
  | _ => true

def Wiring.pastDeadline : Wiring → Bool
  | .fresh => false
  | .reading => false
  | _ => true

def State.pastDeadline (s : State) : Bool :=
  match s.call with
  | .running _ wiring => wiring.pastDeadline
  | _ => false

/-! ## Who waits for the answer -/

/-- The second stage has yet to be answered, on the latest pipe. -/
def Waits (s : State) (t : Trampoline) : Prop :=
  (t.two = .starting ∧ (s.readyPipe s.readyPath).reader = .closed) ∨
    (t.two = .holding s.readyPath ∧ (s.readyPipe s.readyPath).reader ≠ .closed)

/-- Somebody waits for the answer the goroutine is about to give. -/
structure Attended (s : State) (t : Trampoline) : Prop where
  present : s.trampoline = some t
  one : t.one = .waiting
  waits : Waits s t
  empty : (s.readyPipe s.readyPath).buffer = []

/-- The pipe of the answer before it is opened for writing. -/
def Unopened (s : State) : Prop :=
  (s.readyPipe s.readyPath).writer = .closed ∧ (s.readyPipe s.readyPath).reader ≠ .opened

/-- The pipe of the answer while it is being written: the two sides have met, or neither has. -/
def Met (s : State) : Prop :=
  ((s.readyPipe s.readyPath).writer = .opening ∧ (s.readyPipe s.readyPath).reader = .closed) ∨
    ((s.readyPipe s.readyPath).writer = .opened ∧ (s.readyPipe s.readyPath).reader = .opened)

/-- The goroutine can come to its end. -/
def Wiring.Served (s : State) : Wiring → Prop
  | .fresh => False
  | .reading => False
  | .settingUp _ => ∃ t, Attended s t ∧ Unopened s
  | .toAnswer _ => ∃ t, Attended s t ∧ Unopened s
  | .answering _ => ∃ t, Attended s t ∧ Met s
  | .closing _ => True
  | .ended => True

/-- The call has returned, or can. -/
def Call.Served (s : State) : Call → Prop
  | .idle => True
  | .stopped => False
  | .pidPipeMade => False
  | .running _ wiring => wiring.Served s

/-- How far the goroutine is from its end. -/
def Wiring.size : Wiring → Nat
  | .fresh => 11
  | .reading => 10
  | .settingUp _ => 9
  | .toAnswer .wired => 8
  | .answering .wired => 7
  | .toAnswer .failed => 5
  | .answering .failed => 4
  | .closing _ => 3
  | .ended => 2

def Call.size : Call → Nat
  | .idle => 0
  | .stopped => 15
  | .pidPipeMade => 14
  | .running started wiring => wiring.size + if started then 0 else 1

def StageOne.size : StageOne → Nat
  | .announcing => 2
  | .holding _ => 1
  | .waiting => 0

def StageTwo.size : StageTwo → Nat
  | .starting => 2
  | .holding _ => 1
  | .passed => 0
  | .gone => 0

/-- How many steps are left without a new call or a new trampoline, at most. -/
def State.size (s : State) : Nat :=
  s.call.size + match s.trampoline with
    | some t => 1 + t.one.size + t.two.size
    | none => 0

section

variable {s s' : State} {t : Trampoline} {ev : Event}

theorem vacate_size (hit : s.trampoline = some t) : s.vacate.size < s.size := by
  simp only [State.size, vacate_call, vacate_trampoline, hit]
  omega

/-- **Every step of progress brings the system closer to a halt.** -/
theorem size_lt_of_moves (moved : Moves s ev s') (progresses : progress ev = true) :
    s'.size < s.size := by
  cases moved with
  | stops | cannotStop | dies | twoDies | spawns | unloads => simp [progress] at progresses
  | makesPidPipe call | starts call _ => simp [State.size, call, Call.size]
  | makesReadyPipe call => simp [State.size, call, Call.size, Wiring.size]
  | returns call => simp [State.size, call, Call.size, Wiring.size]
  | opensPid call => simp [State.size, call, Call.size, Wiring.size]
  | @readsPid _ _ rest call _ => cases rest <;> simp [State.size, call, Call.size, Wiring.size]
  | deadline call => simp [State.size, call, Call.size, Wiring.size]
  | setupFails call => simp [State.size, call, Call.size, Wiring.size]
  | setupSucceeds call => simp [State.size, call, Call.size, Wiring.size]
  | @opensReady _ answer call => cases answer <;> simp [State.size, call, Call.size, Wiring.size]
  | @writesAnswer _ answer _ call _ _ | @answerRefused _ answer call _ _ =>
    cases answer <;> simp [State.size, call, Call.size, Wiring.size]
  | closesReady call => simp [State.size, call, Call.size, Wiring.size]
  | oneOpens hit one => simp [State.size, hit, one, StageOne.size]
  | oneWrites hit one _ _ => simp [State.size, hit, one, StageOne.size]
  | oneRefused hit _ _ _ | oneExits hit _ _ => exact vacate_size hit
  | twoOpens hit two => simp [State.size, hit, two, StageTwo.size]
  | twoPasses hit two _ _ => simp [State.size, hit, two, StageTwo.size]
  | twoFails hit two _ _ => simp [State.size, hit, two, StageTwo.size]
  | twoEnds hit two _ _ _ => simp [State.size, hit, two, StageTwo.size]

theorem Attended.congr (att : Attended s t) (trampoline : s'.trampoline = s.trampoline)
    (path : s'.readyPath = s.readyPath) (pipes : s'.readyPipe = s.readyPipe) : Attended s' t where
  present := trampoline.trans att.present
  one := att.one
  waits := by
    have waits := att.waits
    unfold Waits at waits ⊢
    rwa [path, pipes]
  empty := by rw [path, pipes, att.empty]

theorem Unopened.congr (unopened : Unopened s) (path : s'.readyPath = s.readyPath)
    (pipes : s'.readyPipe = s.readyPipe) : Unopened s' := by
  unfold Unopened at unopened ⊢
  rwa [path, pipes]

theorem Attended.opensReady (att : Attended s t) (unopened : Unopened s) (up : Bool)
    (answer : Answer) :
    Attended ((s.wiringAt up (.answering answer)).setReadyPipe s.readyPath
      (s.readyPipe s.readyPath).openWriter) t ∧
    Met ((s.wiringAt up (.answering answer)).setReadyPipe s.readyPath
      (s.readyPipe s.readyPath).openWriter) := by
  obtain ⟨-, notOpened⟩ := unopened
  refine ⟨⟨att.present, att.one, ?_, ?_⟩, ?_⟩
  · simpa [Waits, Pipe.openWriter] using att.waits
  · simpa [Pipe.openWriter] using att.empty
  · cases reader : (s.readyPipe s.readyPath).reader with
    | closed => exact .inl (by simp [Pipe.openWriter, reader, Side.facing, Side.woken])
    | opening => exact .inr (by simp [Pipe.openWriter, reader, Side.facing, Side.woken])
    | opened => contradiction

theorem Attended.twoOpens (att : Attended s t) :
    Attended ({ s with trampoline := some { t with two := .holding s.readyPath } }.setReadyPipe
      s.readyPath (s.readyPipe s.readyPath).openReader) { t with two := .holding s.readyPath } where
  present := rfl
  one := att.one
  waits := .inr ⟨rfl, by simp [Pipe.openReader]⟩
  empty := by simpa [Pipe.openReader] using att.empty

theorem Unopened.twoOpens (unopened : Unopened s) :
    Unopened ({ s with trampoline := some { t with two := .holding s.readyPath } }.setReadyPipe
      s.readyPath (s.readyPipe s.readyPath).openReader) := by
  obtain ⟨closed, -⟩ := unopened
  simp [Unopened, Pipe.openReader, closed, Side.facing, Side.woken]

theorem Met.twoOpens (met : Met s) (unread : (s.readyPipe s.readyPath).reader = .closed) :
    Met ({ s with trampoline := some { t with two := .holding s.readyPath } }.setReadyPipe
      s.readyPath (s.readyPipe s.readyPath).openReader) := by
  rcases met with ⟨opening, -⟩ | ⟨-, opened⟩
  · exact .inr (by simp [Pipe.openReader, opening, Side.facing, Side.woken])
  · cases unread.symm.trans opened

theorem Attended.unread (att : Attended s t) (starting : t.two = .starting) :
    (s.readyPipe s.readyPath).reader = .closed := by
  rcases att.waits with ⟨-, closed⟩ | ⟨holding, -⟩
  · exact closed
  · cases starting.symm.trans holding

theorem Attended.latest (att : Attended s t) {g : Nat} (holding : t.two = .holding g) :
    g = s.readyPath := by
  rcases att.waits with ⟨starting, -⟩ | ⟨latest, -⟩
  · cases starting.symm.trans holding
  · exact StageTwo.holding.inj (holding.symm.trans latest)

theorem Attended.same (att : Attended s t) {t' : Trampoline} (hit : s.trampoline = some t') :
    t' = t :=
  Option.mem_unique hit att.present

theorem Call.Served.congr {call : Call} (served : call.Served s)
    (kept : ∀ t, Attended s t → Unopened s ∨ Met s →
      ∃ t', Attended s' t' ∧ (Unopened s → Unopened s') ∧ (Met s → Met s')) : call.Served s' := by
  cases call with
  | running up wiring =>
    cases wiring with
    | settingUp _ | toAnswer _ =>
      obtain ⟨t, att, unopened⟩ := served
      obtain ⟨t', att', keeps, -⟩ := kept t att (.inl unopened)
      exact ⟨t', att', keeps unopened⟩
    | answering _ =>
      obtain ⟨t, att, met⟩ := served
      obtain ⟨t', att', -, keeps⟩ := kept t att (.inr met)
      exact ⟨t', att', keeps met⟩
    | _ => exact served
  | _ => exact served

theorem Call.Served.same {call : Call} (served : call.Served s)
    (trampoline : s'.trampoline = s.trampoline) (path : s'.readyPath = s.readyPath)
    (pipes : s'.readyPipe = s.readyPipe) : call.Served s' := by
  apply served.congr
  intro t att _
  refine ⟨t, att.congr trampoline path pipes, fun unopened => unopened.congr path pipes, ?_⟩
  intro met
  unfold Met at met ⊢
  rwa [path, pipes]

/-- **Progress keeps a call on its way to its end.** -/
theorem served_moves (served : s.call.Served s) (moved : Moves s ev s')
    (progresses : progress ev = true) : s'.call.Served s' := by
  cases moved with
  | stops | cannotStop | dies | twoDies | spawns | unloads => simp [progress] at progresses
  | makesPidPipe call | makesReadyPipe call | opensPid call | readsPid call _ | deadline call =>
    rw [call] at served
    exact served.elim
  | @starts wiring _ call _ =>
    rw [call] at served
    have served : (Call.running true wiring).Served s := served
    exact served.same rfl rfl rfl
  | returns call | writesAnswer call _ _ | closesReady call => trivial
  | @setupFails up _ call =>
    rw [call] at served
    have served : (Call.running up (.toAnswer .failed)).Served s := served
    exact served.same rfl rfl rfl
  | @setupSucceeds up _ _ call _ _ _ =>
    rw [call] at served
    have served : (Call.running up (.toAnswer .wired)).Served s := served
    exact served.same rfl rfl rfl
  | @opensReady up answer call =>
    rw [call] at served
    obtain ⟨t, att, unopened⟩ := served
    exact ⟨t, att.opensReady unopened up answer⟩
  | answerRefused call ready refused =>
    rw [call] at served
    obtain ⟨t, att, met⟩ := served
    rcases met with ⟨opening, -⟩ | ⟨-, opened⟩
    · cases ready.symm.trans opening
    · simp [Pipe.write, opened] at refused
  | oneOpens hit one | oneWrites hit one _ _ =>
    apply served.congr
    intro t att _
    obtain rfl := att.same hit
    cases one.symm.trans att.one
  | oneRefused hit one _ _ =>
    rw [vacate_call]
    apply served.congr
    intro t att _
    obtain rfl := att.same hit
    cases one.symm.trans att.one
  | oneExits hit _ two =>
    rw [vacate_call]
    apply served.congr
    intro t att _
    obtain rfl := att.same hit
    rcases att.waits with ⟨starting, -⟩ | ⟨holding, -⟩
    · cases two.symm.trans starting
    · cases two.symm.trans holding
  | twoOpens hit two =>
    apply served.congr
    intro t att _
    obtain rfl := att.same hit
    exact ⟨_, att.twoOpens, fun unopened => unopened.twoOpens,
      fun met => met.twoOpens (att.unread two)⟩
  | twoPasses hit two _ sent | twoFails hit two _ sent =>
    apply served.congr
    intro t att _
    obtain rfl := att.same hit
    obtain rfl := att.latest two
    cases sent.symm.trans att.empty
  | twoEnds hit two ready left _ =>
    apply served.congr
    intro t att pipe
    obtain rfl := att.same hit
    obtain rfl := att.latest two
    rcases pipe with ⟨-, unopened⟩ | ⟨opening, -⟩ | ⟨opened, -⟩
    · contradiction
    · cases left.symm.trans opening
    · cases left.symm.trans opened

/-- **A call that has not returned can go on**: the goroutine, or whoever it waits for. -/
theorem exists_progress (served : s.call.Served s) (busy : s.call ≠ .idle) :
    ∃ ev, progress ev = true ∧ (step s ev).isSome = true := by
  cases call : s.call with
  | idle => contradiction
  | stopped | pidPipeMade =>
    rw [call] at served
    exact served.elim
  | running up wiring =>
    rw [call] at served
    cases wiring with
    | fresh | reading => exact served.elim
    | settingUp pid => exact ⟨.setsUp false, rfl, by simp [step, applyStep, wiringStep, call]⟩
    | toAnswer answer => exact ⟨.opensReady, rfl, by simp [step, applyStep, wiringStep, call]⟩
    | answering answer =>
      obtain ⟨t, att, ⟨opening, unread⟩ | ⟨opened, ready⟩⟩ := served
      · have starting : t.two = .starting := by
          rcases att.waits with ⟨starting, -⟩ | ⟨-, held⟩
          · exact starting
          · contradiction
        exact ⟨.twoOpens, rfl, by
          simp [step, applyStep, wiringStep, att.present, trampolineStep, starting]⟩
      exact ⟨.writesAnswer, rfl, by
        simp [step, applyStep, wiringStep, call, opened, Pipe.write, ready]⟩
    | closing answer => exact ⟨.closesReady, rfl, by simp [step, applyStep, wiringStep, call]⟩
    | ended =>
      cases up with
      | false => exact ⟨.starts false, rfl, by simp [step, applyStep, call]⟩
      | true => exact ⟨.returns, rfl, by simp [step, applyStep, call]⟩

/-- **Where somebody waits for the answer, the call returns.** -/
theorem returns_of_served (served : s.call.Served s) :
    Inevitable step progress (fun s => s.call = .idle) s := by
  apply inevitable_of_measure State.size (fun s => s.call.Served s) _ _ _ served
  · intro s s' ev progresses moved
    exact size_lt_of_moves (moves_of_step moved) progresses
  · intro s s' ev served progresses moved
    exact served_moves served (moves_of_step moved) progresses
  · intro s served busy
    exact exists_progress served busy

end

end Horchestra.Agent.Handshake
