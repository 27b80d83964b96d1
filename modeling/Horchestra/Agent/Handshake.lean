import Horchestra.Agent.Runtime
import Horchestra.Foundations.NamedPipe
import Horchestra.Foundations.Transitions

/-!
# The wiring handshake

A routed workload is wired while it starts.  The agent makes two named pipes and starts the unit.
The trampoline's first stage forks the second one into a fresh network namespace and writes its
process id into the first pipe; a goroutine of the agent reads it, has the helper wire that
process, and answers on the second pipe, where the second stage waits before it becomes the
workload.  Meanwhile the service manager may kill the trampoline and start it again.

The model is one workload: a call of `Apply` with its goroutine, the unit, and the trampoline that
is alive, if any.  An event is one step of one of them; any interleaving of events is a run.  A
pipe is made anew by every call, while a process keeps the pipe it has opened, so the pipes are
numbered and the two paths name the latest ones.
-/

namespace Horchestra.Agent.Handshake

open Function Foundations.NamedPipe

/-! ## The parties -/

inductive Answer where
  | wired
  | failed
  deriving DecidableEq

/-- Where the goroutine is: `wireWorkload`, and the answer given when it fails. -/
inductive Wiring where
  | fresh
  | reading
  | settingUp (pid : Nat)
  | toAnswer (answer : Answer)
  | answering (answer : Answer)
  | closing (answer : Answer)
  | ended
  deriving DecidableEq

/-- Where `Apply` is.  It returns only when its goroutine is over. -/
inductive Call where
  | idle
  | stopped
  | pidPipeMade
  | running (started : Bool) (wiring : Wiring)

/-- `reexec`: it announces the second stage and waits for it. -/
inductive StageOne where
  | announcing
  | holding (pipe : Nat)
  | waiting
  deriving DecidableEq

/-- `enter`: it waits for the answer, and goes on to become the workload. -/
inductive StageTwo where
  | starting
  | holding (pipe : Nat)
  | passed
  | gone
  deriving DecidableEq

/-- The two processes of a unit; `pid` is the second one's. -/
structure Trampoline where
  pid : Nat
  one : StageOne := .announcing
  two : StageTwo := .starting

structure State where
  call : Call := .idle
  /-- The manager holds the unit and may start its trampoline. -/
  unit : Bool := false
  trampoline : Option Trampoline := none
  spawned : Nat := 0
  pidPath : Nat := 0
  readyPath : Nat := 0
  pidPipe : Nat → Pipe Nat := fun _ => {}
  readyPipe : Nat → Pipe Answer := fun _ => {}
  /-- The processes `Network.Setup` has succeeded for. -/
  wired : List Nat := []
  /-- The processes that have passed `awaitNetwork`. -/
  released : List Nat := []

/-! ## Events -/

inductive Event where
  /-- `Apply` asks the manager to stop the unit, with or without success. -/
  | begins (stops : Bool)
  | makesPidPipe
  | makesReadyPipe
  | starts (accepted : Bool)
  | returns
  /-- `readPID` opens its pipe. -/
  | opensPid
  | readsPid
  /-- The read deadline passes. -/
  | deadline
  | setsUp (succeeds : Bool)
  /-- `answerFIFO` opens its pipe, which may have to wait. -/
  | opensReady
  | writesAnswer
  | closesReady
  /-- `announceNetns` opens its pipe, which may have to wait. -/
  | oneOpens
  | oneWrites
  | oneExits
  /-- `awaitNetwork` opens its pipe, which may have to wait. -/
  | twoOpens
  | twoReads
  /-- The answer's pipe ends with nothing in it. -/
  | twoEnds
  /-- The manager starts the trampoline, for the first time or again. -/
  | spawns
  /-- Both stages are killed. -/
  | dies
  /-- The second stage is killed, or the workload it became exits. -/
  | twoDies
  /-- The manager gives the unit up. -/
  | unloads

/-- Whatever the first stage holds is closed when it goes. -/
def StageOne.release : StageOne → (Nat → Pipe Nat) → Nat → Pipe Nat
  | .holding g, pipes => update pipes g (pipes g).closeWriter
  | .announcing, pipes => pipes
  | .waiting, pipes => pipes

/-- Whatever the second stage holds is closed when it goes. -/
def StageTwo.release : StageTwo → (Nat → Pipe Answer) → Nat → Pipe Answer
  | .holding g, pipes => update pipes g (pipes g).closeReader
  | .starting, pipes => pipes
  | .passed, pipes => pipes
  | .gone, pipes => pipes

/-- The trampoline is gone with both its stages. -/
def State.vacate (s : State) : State :=
  match s.trampoline with
  | none => s
  | some t =>
    { s with
      trampoline := none
      pidPipe := t.one.release s.pidPipe
      readyPipe := t.two.release s.readyPipe }

/-- The second stage is gone. -/
@[simps] def State.loseTwo (s : State) (t : Trampoline) : State :=
  { s with trampoline := some { t with two := .gone }, readyPipe := t.two.release s.readyPipe }

/-- The goroutine goes on. -/
@[simps] def State.wiringAt (s : State) (started : Bool) (wiring : Wiring) : State :=
  { s with call := .running started wiring }

@[simps] def State.setPidPipe (s : State) (g : Nat) (pipe : Pipe Nat) : State :=
  { s with pidPipe := update s.pidPipe g pipe }

@[simps] def State.setReadyPipe (s : State) (g : Nat) (pipe : Pipe Answer) : State :=
  { s with readyPipe := update s.readyPipe g pipe }

/-- A new pipe for the announcement, under its path. -/
@[simps] def State.makePidPipe (s : State) : State :=
  { s with
    call := .pidPipeMade
    pidPath := s.pidPath + 1
    pidPipe := update s.pidPipe (s.pidPath + 1) {} }

/-- A new pipe for the answer, under its path, and a goroutine to give one. -/
@[simps] def State.makeReadyPipe (s : State) : State :=
  { s with
    call := .running false .fresh
    readyPath := s.readyPath + 1
    readyPipe := update s.readyPipe (s.readyPath + 1) {} }

/-- The second stage takes an answer and lets go of its pipe. -/
@[simps] def State.readTwo (s : State) (t : Trampoline) (g : Nat) (two : StageTwo) : State :=
  { s with
    trampoline := some { t with two }
    readyPipe := t.two.release (update s.readyPipe g (s.readyPipe g).take) }

/-! ## Steps of the agent -/

/-- `Apply`, from the stop to its return. -/
def applyStep (s : State) : Event → Option State
  | .begins stops =>
    match s.call with
    | .idle =>
      if stops then some { s.vacate with call := .stopped, unit := false }
      else some { s with call := .stopped }
    | _ => none
  | .makesPidPipe =>
    match s.call with
    | .stopped => some s.makePidPipe
    | _ => none
  | .makesReadyPipe =>
    match s.call with
    | .pidPipeMade => some s.makeReadyPipe
    | _ => none
  | .starts accepted =>
    match s.call with
    | .running false wiring =>
      -- a unit that is still held cannot be started
      if accepted && s.unit then none
      else some { s with call := .running true wiring, unit := s.unit || accepted }
    | _ => none
  | .returns =>
    match s.call with
    | .running true .ended => some { s with call := .idle }
    | _ => none
  | _ => none

/-- The goroutine: `readPID`, `Network.Setup`, `answerFIFO`, and `answerFIFO` once more when one of
them fails. -/
def wiringStep (s : State) : Event → Option State
  | .opensPid =>
    match s.call with
    | .running started .fresh =>
      some ((s.wiringAt started .reading).setPidPipe s.pidPath (s.pidPipe s.pidPath).openBoth)
    | _ => none
  | .readsPid =>
    match s.call, (s.pidPipe s.pidPath).buffer with
    | .running started .reading, pid :: rest =>
      -- two announcements in one read are not a number
      let next := if rest = [] then .settingUp pid else .toAnswer .failed
      some ((s.wiringAt started next).setPidPipe s.pidPath
        { (s.pidPipe s.pidPath) with buffer := [] }.closeReader)
    | _, _ => none
  | .deadline =>
    match s.call with
    | .running started .reading =>
      some ((s.wiringAt started (.toAnswer .failed)).setPidPipe s.pidPath
        (s.pidPipe s.pidPath).closeReader)
    | _ => none
  | .setsUp succeeds =>
    match s.call with
    | .running started (.settingUp pid) =>
      if !succeeds then some (s.wiringAt started (.toAnswer .failed))
      else
        -- the helper looks the namespace up by the process, which has to be there
        match s.trampoline with
        | some t =>
          if t.pid = pid ∧ t.two ≠ .gone then
            some { s.wiringAt started (.toAnswer .wired) with wired := pid :: s.wired }
          else none
        | none => none
    | _ => none
  | .opensReady =>
    match s.call with
    | .running started (.toAnswer answer) =>
      some ((s.wiringAt started (.answering answer)).setReadyPipe s.readyPath
        (s.readyPipe s.readyPath).openWriter)
    | _ => none
  | .writesAnswer =>
    match s.call with
    | .running started (.answering answer) =>
      if (s.readyPipe s.readyPath).writer = .opened then
        match (s.readyPipe s.readyPath).write answer with
        | some pipe => some ((s.wiringAt started (.closing answer)).setReadyPipe s.readyPath pipe)
        | none =>
          let next := if answer = .wired then .toAnswer .failed else .ended
          some ((s.wiringAt started next).setReadyPipe s.readyPath
            (s.readyPipe s.readyPath).closeWriter)
      else none
    | _ => none
  | .closesReady =>
    match s.call with
    | .running started (.closing _) =>
      some ((s.wiringAt started .ended).setReadyPipe s.readyPath
        (s.readyPipe s.readyPath).closeWriter)
    | _ => none
  | _ => none

/-! ## Steps of the trampoline and of the manager -/

def trampolineStep (s : State) (t : Trampoline) : Event → Option State
  | .oneOpens =>
    match t.one with
    | .announcing =>
      some ({ s with trampoline := some { t with one := .holding s.pidPath } }.setPidPipe
        s.pidPath (s.pidPipe s.pidPath).openWriter)
    | _ => none
  | .oneWrites =>
    match t.one with
    | .holding g =>
      if (s.pidPipe g).writer = .opened then
        match (s.pidPipe g).write t.pid with
        | some pipe =>
          some ({ s with trampoline := some { t with one := .waiting } }.setPidPipe g
            pipe.closeWriter)
        -- the second stage is killed and the first one gives up
        | none => some s.vacate
      else none
    | _ => none
  | .oneExits =>
    match t.one, t.two with
    | .waiting, .gone => some s.vacate
    | _, _ => none
  | .twoOpens =>
    match t.two with
    | .starting =>
      some ({ s with trampoline := some { t with two := .holding s.readyPath } }.setReadyPipe
        s.readyPath (s.readyPipe s.readyPath).openReader)
    | _ => none
  | .twoReads =>
    match t.two with
    | .holding g =>
      if (s.readyPipe g).reader = .opened then
        match (s.readyPipe g).buffer with
        | [] => none
        | .wired :: _ => some { s.readTwo t g .passed with released := t.pid :: s.released }
        | .failed :: _ => some (s.readTwo t g .gone)
      else none
    | _ => none
  | .twoEnds =>
    match t.two with
    | .holding g =>
      if (s.readyPipe g).reader = .opened ∧ (s.readyPipe g).writer = .closed ∧
          (s.readyPipe g).buffer = [] then
        some (s.loseTwo t)
      else none
    | _ => none
  | .dies => some s.vacate
  | .twoDies => if t.two = .gone then none else some (s.loseTwo t)
  | _ => none

def managerStep (s : State) : Event → Option State
  | .spawns =>
    if s.unit then
      some { s with trampoline := some { pid := s.spawned }, spawned := s.spawned + 1 }
    else none
  | .unloads => some { s with unit := false }
  | _ => none

/-- **One step of the system.**  The manager acts on a unit that has no trampoline. -/
def step (s : State) (event : Event) : Option State :=
  (applyStep s event).orElse fun _ =>
  (wiringStep s event).orElse fun _ =>
  match s.trampoline with
  | some t => trampolineStep s t event
  | none => managerStep s event

/-! ## What one step can do -/

/-- Every way a step can go, with what it takes. -/
inductive Moves (s : State) : Event → State → Prop
  | stops (call : s.call = .idle) :
      Moves s (.begins true) { s.vacate with call := .stopped, unit := false }
  | cannotStop (call : s.call = .idle) : Moves s (.begins false) { s with call := .stopped }
  | makesPidPipe (call : s.call = .stopped) : Moves s .makesPidPipe s.makePidPipe
  | makesReadyPipe (call : s.call = .pidPipeMade) : Moves s .makesReadyPipe s.makeReadyPipe
  | starts {wiring : Wiring} {accepted : Bool} (call : s.call = .running false wiring)
      (free : accepted = true → s.unit = false) :
      Moves s (.starts accepted)
        { s with call := .running true wiring, unit := s.unit || accepted }
  | returns (call : s.call = .running true .ended) : Moves s .returns { s with call := .idle }
  | opensPid {started : Bool} (call : s.call = .running started .fresh) :
      Moves s .opensPid
        ((s.wiringAt started .reading).setPidPipe s.pidPath (s.pidPipe s.pidPath).openBoth)
  | readsPid {started : Bool} {pid : Nat} {rest : List Nat}
      (call : s.call = .running started .reading)
      (announced : (s.pidPipe s.pidPath).buffer = pid :: rest) :
      Moves s .readsPid
        ((s.wiringAt started (if rest = [] then .settingUp pid else .toAnswer .failed)).setPidPipe
          s.pidPath { (s.pidPipe s.pidPath) with buffer := [] }.closeReader)
  | deadline {started : Bool} (call : s.call = .running started .reading) :
      Moves s .deadline
        ((s.wiringAt started (.toAnswer .failed)).setPidPipe s.pidPath
          (s.pidPipe s.pidPath).closeReader)
  | setupFails {started : Bool} {pid : Nat} (call : s.call = .running started (.settingUp pid)) :
      Moves s (.setsUp false) (s.wiringAt started (.toAnswer .failed))
  | setupSucceeds {started : Bool} {pid : Nat} {t : Trampoline}
      (call : s.call = .running started (.settingUp pid)) (present : s.trampoline = some t)
      (named : t.pid = pid) (alive : t.two ≠ .gone) :
      Moves s (.setsUp true)
        { s.wiringAt started (.toAnswer .wired) with wired := pid :: s.wired }
  | opensReady {started : Bool} {answer : Answer}
      (call : s.call = .running started (.toAnswer answer)) :
      Moves s .opensReady
        ((s.wiringAt started (.answering answer)).setReadyPipe s.readyPath
          (s.readyPipe s.readyPath).openWriter)
  | writesAnswer {started : Bool} {answer : Answer} {pipe : Pipe Answer}
      (call : s.call = .running started (.answering answer))
      (ready : (s.readyPipe s.readyPath).writer = .opened)
      (written : (s.readyPipe s.readyPath).write answer = some pipe) :
      Moves s .writesAnswer
        ((s.wiringAt started (.closing answer)).setReadyPipe s.readyPath pipe)
  | answerRefused {started : Bool} {answer : Answer}
      (call : s.call = .running started (.answering answer))
      (ready : (s.readyPipe s.readyPath).writer = .opened)
      (refused : (s.readyPipe s.readyPath).write answer = none) :
      Moves s .writesAnswer
        ((s.wiringAt started (if answer = .wired then .toAnswer .failed else .ended)).setReadyPipe
          s.readyPath (s.readyPipe s.readyPath).closeWriter)
  | closesReady {started : Bool} {answer : Answer}
      (call : s.call = .running started (.closing answer)) :
      Moves s .closesReady
        ((s.wiringAt started .ended).setReadyPipe s.readyPath
          (s.readyPipe s.readyPath).closeWriter)
  | oneOpens {t : Trampoline} (present : s.trampoline = some t) (one : t.one = .announcing) :
      Moves s .oneOpens
        ({ s with trampoline := some { t with one := .holding s.pidPath } }.setPidPipe s.pidPath
          (s.pidPipe s.pidPath).openWriter)
  | oneWrites {t : Trampoline} {g : Nat} {pipe : Pipe Nat} (present : s.trampoline = some t)
      (one : t.one = .holding g) (ready : (s.pidPipe g).writer = .opened)
      (written : (s.pidPipe g).write t.pid = some pipe) :
      Moves s .oneWrites
        ({ s with trampoline := some { t with one := .waiting } }.setPidPipe g pipe.closeWriter)
  | oneRefused {t : Trampoline} {g : Nat} (present : s.trampoline = some t)
      (one : t.one = .holding g) (ready : (s.pidPipe g).writer = .opened)
      (refused : (s.pidPipe g).write t.pid = none) : Moves s .oneWrites s.vacate
  | oneExits {t : Trampoline} (present : s.trampoline = some t) (one : t.one = .waiting)
      (two : t.two = .gone) : Moves s .oneExits s.vacate
  | twoOpens {t : Trampoline} (present : s.trampoline = some t) (two : t.two = .starting) :
      Moves s .twoOpens
        ({ s with trampoline := some { t with two := .holding s.readyPath } }.setReadyPipe
          s.readyPath (s.readyPipe s.readyPath).openReader)
  | twoPasses {t : Trampoline} {g : Nat} {rest : List Answer} (present : s.trampoline = some t)
      (two : t.two = .holding g) (ready : (s.readyPipe g).reader = .opened)
      (sent : (s.readyPipe g).buffer = .wired :: rest) :
      Moves s .twoReads { s.readTwo t g .passed with released := t.pid :: s.released }
  | twoFails {t : Trampoline} {g : Nat} {rest : List Answer} (present : s.trampoline = some t)
      (two : t.two = .holding g) (ready : (s.readyPipe g).reader = .opened)
      (sent : (s.readyPipe g).buffer = .failed :: rest) :
      Moves s .twoReads (s.readTwo t g .gone)
  | twoEnds {t : Trampoline} {g : Nat} (present : s.trampoline = some t)
      (two : t.two = .holding g) (ready : (s.readyPipe g).reader = .opened)
      (left : (s.readyPipe g).writer = .closed) (empty : (s.readyPipe g).buffer = []) :
      Moves s .twoEnds (s.loseTwo t)
  | dies {t : Trampoline} (present : s.trampoline = some t) : Moves s .dies s.vacate
  | twoDies {t : Trampoline} (present : s.trampoline = some t) (alive : t.two ≠ .gone) :
      Moves s .twoDies (s.loseTwo t)
  | spawns (absent : s.trampoline = none) (held : s.unit = true) :
      Moves s .spawns
        { s with trampoline := some { pid := s.spawned }, spawned := s.spawned + 1 }
  | unloads (absent : s.trampoline = none) : Moves s .unloads { s with unit := false }

section

variable {s s' : State} {event : Event}

theorem moves_of_applyStep (moved : applyStep s event = some s') : Moves s event s' := by
  unfold applyStep at moved
  split at moved
  case h_1 stops =>
    split at moved
    case h_2 => cases moved
    case h_1 call =>
      cases stops
      · cases moved
        exact .cannotStop call
      cases moved
      exact .stops call
  case h_2 =>
    split at moved
    case h_2 => cases moved
    case h_1 call =>
      cases moved
      exact .makesPidPipe call
  case h_3 =>
    split at moved
    case h_2 => cases moved
    case h_1 call =>
      cases moved
      exact .makesReadyPipe call
  case h_4 ok =>
    split at moved
    case h_2 => cases moved
    case h_1 wiring call =>
      split at moved
      case isTrue => cases moved
      case isFalse free =>
        cases moved
        exact .starts call (by simpa using free)
  case h_5 =>
    split at moved
    case h_2 => cases moved
    case h_1 call =>
      cases moved
      exact .returns call
  case h_6 => cases moved

theorem moves_of_wiringStep (moved : wiringStep s event = some s') : Moves s event s' := by
  unfold wiringStep at moved
  split at moved
  case h_1 =>
    split at moved
    case h_2 => cases moved
    case h_1 call =>
      cases moved
      exact .opensPid call
  case h_2 =>
    split at moved
    case h_2 => cases moved
    case h_1 call announced =>
      cases moved
      exact .readsPid call announced
  case h_3 =>
    split at moved
    case h_2 => cases moved
    case h_1 call =>
      cases moved
      exact .deadline call
  case h_4 ok =>
    split at moved
    case h_2 => cases moved
    case h_1 call =>
      cases ok
      · cases moved
        exact .setupFails call
      simp only [Bool.not_true, Bool.false_eq_true, if_false] at moved
      split at moved
      case h_2 => cases moved
      case h_1 t hit =>
        split at moved
        case isFalse => cases moved
        case isTrue found =>
          cases moved
          exact .setupSucceeds call hit found.1 found.2
  case h_5 =>
    split at moved
    case h_2 => cases moved
    case h_1 call =>
      cases moved
      exact .opensReady call
  case h_6 =>
    split at moved
    case h_2 => cases moved
    case h_1 call =>
      split at moved
      case isFalse => cases moved
      case isTrue ready =>
        split at moved
        case h_1 written =>
          cases moved
          exact .writesAnswer call ready written
        case h_2 refused =>
          cases moved
          exact .answerRefused call ready refused
  case h_7 =>
    split at moved
    case h_2 => cases moved
    case h_1 call =>
      cases moved
      exact .closesReady call
  case h_8 => cases moved

theorem moves_of_trampolineStep {t : Trampoline} (hit : s.trampoline = some t)
    (moved : trampolineStep s t event = some s') : Moves s event s' := by
  unfold trampolineStep at moved
  split at moved
  case h_1 =>
    split at moved
    case h_2 => cases moved
    case h_1 one =>
      cases moved
      exact .oneOpens hit one
  case h_2 =>
    split at moved
    case h_2 => cases moved
    case h_1 g one =>
      split at moved
      case isFalse => cases moved
      case isTrue ready =>
        split at moved
        case h_1 written =>
          cases moved
          exact .oneWrites hit one ready written
        case h_2 refused =>
          cases moved
          exact .oneRefused hit one ready refused
  case h_3 =>
    split at moved
    case h_2 => cases moved
    case h_1 one two =>
      cases moved
      exact .oneExits hit one two
  case h_4 =>
    split at moved
    case h_2 => cases moved
    case h_1 two =>
      cases moved
      exact .twoOpens hit two
  case h_5 =>
    split at moved
    case h_2 => cases moved
    case h_1 g two =>
      split at moved
      case isFalse => cases moved
      case isTrue ready =>
        split at moved
        case h_1 => cases moved
        case h_2 sent =>
          cases moved
          exact .twoPasses hit two ready sent
        case h_3 sent =>
          cases moved
          exact .twoFails hit two ready sent
  case h_6 =>
    split at moved
    case h_2 => cases moved
    case h_1 g two =>
      split at moved
      case isFalse => cases moved
      case isTrue ended =>
        cases moved
        exact .twoEnds hit two ended.1 ended.2.1 ended.2.2
  case h_7 =>
    cases moved
    exact .dies hit
  case h_8 =>
    split at moved
    case isTrue => cases moved
    case isFalse alive =>
      cases moved
      exact .twoDies hit alive
  case h_9 => cases moved

theorem moves_of_managerStep (gone : s.trampoline = none)
    (moved : managerStep s event = some s') : Moves s event s' := by
  unfold managerStep at moved
  split at moved
  case h_1 =>
    split at moved
    case isFalse => cases moved
    case isTrue held =>
      cases moved
      exact .spawns gone held
  case h_2 =>
    cases moved
    exact .unloads gone
  case h_3 => cases moved

theorem moves_of_step (moved : step s event = some s') : Moves s event s' := by
  unfold step at moved
  cases applied : applyStep s event with
  | some next =>
    rw [applied] at moved
    cases moved
    exact moves_of_applyStep applied
  | none =>
    cases wired : wiringStep s event with
    | some next =>
      rw [applied, wired] at moved
      cases moved
      exact moves_of_wiringStep wired
    | none =>
      rw [applied, wired] at moved
      cases hit : s.trampoline with
      | some t =>
        rw [hit] at moved
        exact moves_of_trampolineStep hit moved
      | none =>
        rw [hit] at moved
        exact moves_of_managerStep hit moved

end

/-- No rule but that of the interleaving. -/
def anytime (_ : State) (_ : Event) : Bool := true

/-! ## The trampoline's going -/

theorem vacate_trampoline (s : State) : s.vacate.trampoline = none := by
  unfold State.vacate
  split
  case h_1 gone => exact gone
  case h_2 => rfl

theorem vacate_call (s : State) : s.vacate.call = s.call := by
  unfold State.vacate
  split <;> rfl

theorem vacate_wired (s : State) : s.vacate.wired = s.wired := by
  unfold State.vacate
  split <;> rfl

theorem vacate_released (s : State) : s.vacate.released = s.released := by
  unfold State.vacate
  split <;> rfl

section

variable (two : StageTwo) (pipes : Nat → Pipe Answer) (g : Nat)

theorem release_eq :
    two.release pipes g = if two = .holding g then (pipes g).closeReader else pipes g := by
  cases two with
  | holding held =>
    by_cases eq : g = held
    · subst eq
      simp [StageTwo.release]
    · simp [StageTwo.release, eq, Ne.symm eq]
  | _ => rfl

theorem release_reader :
    (two.release pipes g).reader = if two = .holding g then .closed else (pipes g).reader := by
  rw [release_eq]
  split <;> rfl

theorem release_writer : (two.release pipes g).writer = (pipes g).writer := by
  rw [release_eq]
  split <;> rfl

theorem release_buffer : (two.release pipes g).buffer =
    if two = .holding g ∧ (pipes g).writer = .closed then [] else (pipes g).buffer := by
  rw [release_eq, ite_and]
  split <;> rfl

end

/-! ## Who reads an answer -/

/-- **A pipe with a reader is held by the trampoline that is alive.** -/
def Held (s : State) : Prop :=
  ∀ g, (s.readyPipe g).reader ≠ .closed → ∃ t, s.trampoline = some t ∧ t.two = .holding g

section

variable {s s' : State} {t : Trampoline} {event : Event}

/-- Writing, and opening or closing for writing, do not change who reads. -/
theorem Held.setReadyPipe (held : Held s) (up : Bool) (wiring : Wiring) {pipe : Pipe Answer}
    (same : pipe.reader ≠ .closed → (s.readyPipe s.readyPath).reader ≠ .closed) :
    Held ((s.wiringAt up wiring).setReadyPipe s.readyPath pipe) := by
  intro g read
  by_cases eq : g = s.readyPath
  · subst eq
    exact held _ (same (by simpa using read))
  · exact held g (by simpa [eq] using read)

/-- Whatever the second stage held is read by nobody once it has let go. -/
theorem Held.release (held : Held s) (hit : s.trampoline = some t) (g : Nat) :
    (t.two.release s.readyPipe g).reader = .closed := by
  rw [release_reader]
  split
  case isTrue => rfl
  case isFalse ne =>
    by_contra read
    obtain ⟨t', eq, holds⟩ := held g read
    obtain rfl : t = t' := Option.mem_unique hit eq
    exact ne holds

theorem Held.vacate (held : Held s) : Held s.vacate := by
  unfold State.vacate
  split
  case h_1 => exact held
  case h_2 t hit => exact fun g read => absurd (held.release hit g) read

theorem Held.moves (held : Held s) (moved : Moves s event s') : Held s' := by
  cases moved with
  | stops | oneRefused | oneExits | dies => exact held.vacate
  | makesReadyPipe =>
    intro g read
    by_cases eq : g = s.readyPath + 1
    · subst eq
      exact absurd read (by simp)
    · exact held g (by simpa [eq] using read)
  | opensReady => exact held.setReadyPipe _ _ (by simp [Pipe.openWriter])
  | writesAnswer _ _ written =>
    refine held.setReadyPipe _ _ ?_
    unfold Pipe.write at written
    split at written
    case isTrue => cases written
    case isFalse =>
      cases written
      exact id
  | answerRefused | closesReady => exact held.setReadyPipe _ _ (by simp [Pipe.closeWriter])
  | oneOpens hit _ | oneWrites hit _ _ _ =>
    intro g read
    obtain ⟨t', same, holds⟩ := held g read
    cases hit.symm.trans same
    exact ⟨_, rfl, holds⟩
  | twoOpens hit two =>
    intro g read
    by_cases eq : g = s.readyPath
    · exact ⟨_, rfl, congrArg StageTwo.holding eq.symm⟩
    obtain ⟨t', same, holds⟩ := held g (by simpa [eq] using read)
    cases hit.symm.trans same
    cases two.symm.trans holds
  | @twoPasses t g _ hit two _ _ | @twoFails t g _ hit two _ _ =>
    intro g' read
    refine absurd ?_ read
    have released := held.release hit g'
    rw [release_reader] at released
    simp only [State.readTwo_readyPipe, release_reader]
    split
    case isTrue => rfl
    case isFalse ne =>
      have other : g' ≠ g := fun same => ne (two.trans (congrArg StageTwo.holding same.symm))
      simpa [ne, other] using released
  | twoEnds hit _ _ _ _ | twoDies hit _ =>
    exact fun g read => absurd (held.release hit g) read
  | spawns gone _ =>
    intro g read
    obtain ⟨t', same, -⟩ := held g read
    cases gone.symm.trans same
  | _ => exact held

end

end Horchestra.Agent.Handshake
