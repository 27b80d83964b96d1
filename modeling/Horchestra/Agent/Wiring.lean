import Horchestra.Agent.Handshake

/-!
# Who is released by an answer

The answer of the handshake names nobody: it releases whichever second stage reads it.  When the
trampoline that was wired dies before it has read the answer, the manager starts another one, and
that one reads it.

* `released_wired_of_calm`: in every run in which the second stage that was wired stays alive until
  its answer is delivered, whoever passes `awaitNetwork` was wired.
* `stale_answer_releases_unwired`: a run in which it does not, and an unwired workload starts.
-/

namespace Horchestra.Agent.Handshake

open Function Foundations NamedPipe Transitions

/-! ## Where an answer is under way -/

def State.stageTwoAlive (s : State) : Bool :=
  match s.trampoline with
  | some t => t.two ≠ .gone
  | none => false

/-- Between a successful `Network.Setup` and the close of the answer's pipe. -/
def Wiring.releasing : Wiring → Bool
  | .toAnswer answer => answer = .wired
  | .answering answer => answer = .wired
  | .closing answer => answer = .wired
  | _ => false

def State.releasing (s : State) : Bool :=
  match s.call with
  | .running _ wiring => wiring.releasing
  | _ => false

/-- **While an answer is under way the second stage that was wired is alive.** -/
def calm (s : State) (_ : Event) : Bool := !s.releasing || s.stageTwoAlive

/-- The goroutine holds the pipe of the answer. -/
def Wiring.holdsReady : Wiring → Bool
  | .answering _ => true
  | .closing _ => true
  | _ => false

def Call.holdsReady : Call → Bool
  | .running _ wiring => wiring.holdsReady
  | _ => false

def Wiring.answered : Wiring → Bool
  | .closing _ => true
  | .ended => true
  | _ => false

/-- The call has written its answer, or has none to write. -/
def Call.answered : Call → Bool
  | .running _ wiring => wiring.answered
  | _ => true

/-- What ties the answers in the pipes to the trampoline that is alive. -/
structure Core (s : State) : Prop where
  writer : ∀ g, (s.readyPipe g).writer ≠ .closed → g = s.readyPath ∧ s.call.holdsReady = true
  single : ∀ g, (s.readyPipe g).buffer.length ≤ 1
  content : ∀ g, .wired ∈ (s.readyPipe g).buffer →
    ∃ t, s.trampoline = some t ∧ t.two = .holding g ∧ t.pid ∈ s.wired
  past : (s.readyPipe s.readyPath).buffer ≠ [] → s.call.answered = true
  closing : ∀ started answer, s.call = .running started (.closing answer) →
    ∀ sent ∈ (s.readyPipe s.readyPath).buffer, sent = answer
  releasing : s.releasing = true → ∃ t, s.trampoline = some t ∧ t.pid ∈ s.wired

section

variable {s s' : State} {t : Trampoline}

variable {g : Nat}

/-- An answer that is still held by its writer is one that is under way. -/
theorem Core.releasing_of_held (core : Core s) (sent : .wired ∈ (s.readyPipe g).buffer)
    (held : (s.readyPipe g).writer ≠ .closed) : s.releasing = true := by
  obtain ⟨rfl, holds⟩ := core.writer g held
  have answered := core.past (List.ne_nil_of_mem sent)
  -- the goroutine holds the pipe and has written: it is about to close
  obtain ⟨started, answer, call⟩ : ∃ started answer, s.call = .running started (.closing answer) := by
    cases call : s.call with
    | running started wiring =>
      rw [call] at holds answered
      cases wiring with
      | closing answer => exact ⟨started, answer, rfl⟩
      | answering _ => simp [Call.answered, Wiring.answered] at answered
      | _ => simp [Call.holdsReady, Wiring.holdsReady] at holds
    | _ =>
      rw [call] at holds
      simp [Call.holdsReady] at holds
  obtain rfl := core.closing started answer call .wired sent
  simp [State.releasing, call, Wiring.releasing]

theorem Core.congr (core : Core s) (pipes : s'.readyPipe = s.readyPipe)
    (path : s'.readyPath = s.readyPath) (call : s'.call = s.call)
    (trampoline : s'.trampoline = s.trampoline) (wired : s'.wired = s.wired) : Core s' := by
  obtain ⟨_, _, _, _, _, _, _, _, _, _⟩ := s
  obtain ⟨_, _, _, _, _, _, _, _, _, _⟩ := s'
  cases pipes
  cases path
  cases call
  cases trampoline
  cases wired
  exact ⟨core.writer, core.single, core.content, core.past, core.closing, core.releasing⟩

theorem Core.recall (core : Core s) (call : Call)
    (holds : s.call.holdsReady = true → call.holdsReady = true)
    (answered : s.call.answered = true → call.answered = true)
    (closing : ∀ started answer, call = .running started (.closing answer) →
      ∃ earlier, s.call = .running earlier (.closing answer))
    (releasing : State.releasing { s with call } = true → s.releasing = true) :
    Core { s with call } where
  writer g held := ⟨(core.writer g held).1, holds (core.writer g held).2⟩
  single := core.single
  content := core.content
  past nonempty := answered (core.past nonempty)
  closing started answer same := by
    obtain ⟨earlier, pre⟩ := closing started answer same
    exact core.closing earlier answer pre
  releasing under := core.releasing (releasing under)

theorem Core.advanceOne (core : Core s) (hit : s.trampoline = some t) (one : StageOne) :
    Core { s with trampoline := some { t with one } } where
  writer := core.writer
  single := core.single
  content g sent := by
    obtain ⟨t', eq, holds⟩ := core.content g sent
    obtain rfl : t = t' := Option.mem_unique hit eq
    exact ⟨_, rfl, holds⟩
  past := core.past
  closing := core.closing
  releasing under := by
    obtain ⟨t', eq, wired⟩ := core.releasing under
    obtain rfl : t = t' := Option.mem_unique hit eq
    exact ⟨_, rfl, wired⟩

/-! ## Letting go of a pipe -/

theorem mem_release_buffer {two : StageTwo} {pipes : Nat → Pipe Answer} {sent : Answer}
    (mem : sent ∈ (two.release pipes g).buffer) :
    sent ∈ (pipes g).buffer ∧ (two = .holding g → (pipes g).writer ≠ .closed) := by
  rw [release_buffer] at mem
  split at mem
  case isTrue => cases mem
  case isFalse kept => exact ⟨mem, fun holds closed => kept ⟨holds, closed⟩⟩

/-- The second stage lets go of its pipe, where that does not lose an answer under way. -/
theorem Core.release (core : Core s) (hit : s.trampoline = some t)
    (trampoline : Option Trampoline)
    (unsent : ∀ g, t.two = .holding g → .wired ∈ (s.readyPipe g).buffer → s.releasing = false)
    (stays : s.releasing = true → ∃ t', trampoline = some t' ∧ t'.pid ∈ s.wired) :
    Core { s with trampoline, readyPipe := t.two.release s.readyPipe } where
  writer g held := core.writer g (by rwa [release_writer] at held)
  single g := by
    rw [release_buffer]
    split
    · exact Nat.zero_le 1
    · exact core.single g
  content g sent := by
    obtain ⟨pre, held⟩ := mem_release_buffer sent
    obtain ⟨t', eq, holds, -⟩ := core.content g pre
    obtain rfl : t = t' := Option.mem_unique hit eq
    have under := core.releasing_of_held pre (held holds)
    simp [unsent g holds pre] at under
  past nonempty := by
    obtain ⟨sent, member⟩ := List.exists_mem_of_ne_nil _ nonempty
    exact core.past (List.ne_nil_of_mem (mem_release_buffer member).1)
  closing started answer call sent member :=
    core.closing started answer call sent (mem_release_buffer member).1
  releasing := stays

theorem Core.take (core : Core s) (g : Nat) :
    Core { s with readyPipe := update s.readyPipe g (s.readyPipe g).take } := by
  have pipes (g' : Nat) :
      (update s.readyPipe g (s.readyPipe g).take g').writer = (s.readyPipe g').writer ∧
      (update s.readyPipe g (s.readyPipe g).take g').buffer.Sublist
        (s.readyPipe g').buffer := by
    by_cases eq : g' = g
    · subst eq
      simp [Pipe.take, List.tail_sublist]
    · simp [eq]
  constructor
  case writer => exact fun g' held => core.writer g' (by rwa [(pipes g').1] at held)
  case single => exact fun g' => (pipes g').2.length_le.trans (core.single g')
  case content => exact fun g' sent => core.content g' ((pipes g').2.subset sent)
  case past =>
    intro ne
    obtain ⟨sent, mem⟩ := List.exists_mem_of_ne_nil _ ne
    exact core.past (List.ne_nil_of_mem ((pipes s.readyPath).2.subset mem))
  case closing =>
    exact fun started answer call sent mem =>
      core.closing started answer call sent ((pipes s.readyPath).2.subset mem)
  case releasing => exact core.releasing

theorem Core.vacate (core : Core s) (quiet : s.releasing = false) : Core s.vacate := by
  unfold State.vacate
  split
  case h_1 => exact core
  case h_2 t hit =>
    have released := core.release hit none (fun _ _ _ => quiet)
      (fun under => absurd under (by simp [quiet]))
    exact released.congr rfl rfl rfl rfl rfl

theorem vacate_releasing (s : State) : s.vacate.releasing = s.releasing := by
  simp only [State.releasing, vacate_call]

theorem Core.makeReadyPipe (core : Core s) (free : s.call.holdsReady = false) :
    Core s.makeReadyPipe where
  writer g held := by
    by_cases eq : g = s.readyPath + 1
    · subst eq
      exact absurd held (by simp)
    have holds := (core.writer g (by simpa [eq] using held)).2
    simp [free] at holds
  single g := by
    by_cases eq : g = s.readyPath + 1
    · subst eq
      simp
    · simpa [eq] using core.single g
  content g sent := by
    by_cases eq : g = s.readyPath + 1
    · subst eq
      exact absurd sent (by simp)
    · exact core.content g (by simpa [eq] using sent)
  past nonempty := absurd nonempty (by simp [State.makeReadyPipe])
  closing := by rintro _ _ ⟨⟩
  releasing under := absurd under (by simp [State.releasing, State.makeReadyPipe, Wiring.releasing])

/-! ## One step -/

variable {started : Bool} {after : Wiring}

theorem Core.wire (core : Core s) {pre : Wiring} (call : s.call = .running started pre)
    (free : pre.holdsReady = false) (waits : pre.answered = false)
    (closing : ∀ answer, after ≠ .closing answer)
    (quiet : after.releasing = true → pre.releasing = true) : Core (s.wiringAt started after) :=
  core.recall (.running started after) (by simp [call, Call.holdsReady, free])
    (by simp [call, Call.answered, waits])
    (fun _ answer eq => absurd (Call.running.inj eq).2 (closing answer))
    (by simpa [State.releasing, call] using quiet)

theorem Core.setUp (core : Core s) {pid : Nat} (call : s.call = .running started (.settingUp pid))
    (hit : s.trampoline = some t) (named : t.pid = pid) :
    Core { s.wiringAt started (.toAnswer .wired) with wired := pid :: s.wired } where
  writer g held := by
    have holds := (core.writer g held).2
    rw [call] at holds
    simp [Call.holdsReady, Wiring.holdsReady] at holds
  single := core.single
  content g sent := by
    obtain ⟨t', eq, holds, wired⟩ := core.content g sent
    exact ⟨t', eq, holds, .tail _ wired⟩
  past nonempty := by
    have answered := core.past nonempty
    rw [call] at answered
    simp [Call.answered, Wiring.answered] at answered
  closing := by rintro _ _ ⟨⟩
  releasing _ := ⟨t, hit, named ▸ (.head _)⟩

theorem Core.buffer_eq_nil (core : Core s) (waiting : s.call.answered = false) :
    (s.readyPipe s.readyPath).buffer = [] := by
  by_contra nonempty
  cases (core.past nonempty).symm.trans waiting

variable {answer : Answer} {pipe : Pipe Answer}

theorem Core.put (core : Core s) (started : Bool)
    (held : pipe.writer ≠ .closed → after.holdsReady = true) (single : pipe.buffer.length ≤ 1)
    (content : .wired ∈ pipe.buffer →
      ∃ t, s.trampoline = some t ∧ t.two = .holding s.readyPath ∧ t.pid ∈ s.wired)
    (past : pipe.buffer ≠ [] → after.answered = true)
    (closing : ∀ answer, after = .closing answer → ∀ sent ∈ pipe.buffer, sent = answer)
    (releasing : after.releasing = true → ∃ t, s.trampoline = some t ∧ t.pid ∈ s.wired) :
    Core ((s.wiringAt started after).setReadyPipe s.readyPath pipe) where
  writer g held' := by
    by_cases eq : g = s.readyPath
    · subst eq
      exact ⟨rfl, held (by simpa using held')⟩
    · exact absurd (core.writer g (by simpa [eq] using held')).1 eq
  single g := by
    by_cases eq : g = s.readyPath
    · subst eq
      simpa using single
    · simpa [eq] using core.single g
  content g sent := by
    by_cases eq : g = s.readyPath
    · subst eq
      exact content (by simpa using sent)
    · exact core.content g (by simpa [eq] using sent)
  past nonempty := past (by simpa [State.wiringAt] using nonempty)
  closing _ answer same sent mem :=
    closing answer (Call.running.inj same).2 sent (by simpa [State.wiringAt] using mem)
  releasing under := releasing (by simpa [State.releasing, State.wiringAt] using under)

theorem Core.openWriter (core : Core s) (call : s.call = .running started (.toAnswer answer)) :
    Core ((s.wiringAt started (.answering answer)).setReadyPipe s.readyPath
      (s.readyPipe s.readyPath).openWriter) := by
  have empty := core.buffer_eq_nil (by rw [call]; rfl)
  refine core.put started (fun _ => rfl) (core.single _) (core.content _)
    (fun ne => absurd empty ne) (by rintro _ ⟨⟩) fun under => core.releasing ?_
  simpa [State.releasing, call, Wiring.releasing] using under

theorem Core.write (core : Core s) (held : Held s)
    (call : s.call = .running started (.answering answer))
    (wrote : (s.readyPipe s.readyPath).write answer = some pipe) :
    Core ((s.wiringAt started (.closing answer)).setReadyPipe s.readyPath pipe) := by
  have empty := core.buffer_eq_nil (by rw [call]; rfl)
  unfold Pipe.write at wrote
  split at wrote
  case isTrue => cases wrote
  case isFalse readable =>
    cases wrote
    refine core.put started (fun _ => rfl) (by simp [empty]) ?_ (fun _ => rfl) ?_ ?_
    · intro sent
      obtain rfl : answer = .wired := by simpa [empty, eq_comm] using sent
      obtain ⟨t, hit, holds⟩ := held _ readable
      obtain ⟨t', eq, wired⟩ := core.releasing (by simp [State.releasing, call, Wiring.releasing])
      obtain rfl : t = t' := Option.mem_unique hit eq
      exact ⟨t, hit, holds, wired⟩
    · rintro _ ⟨⟩ sent mem
      simpa [empty] using mem
    · intro under
      exact core.releasing (by simpa [State.releasing, call, Wiring.releasing] using under)

theorem Core.closeWriter (core : Core s) (started : Bool)
    (answered : after.answered = true ∨ (s.readyPipe s.readyPath).reader = .closed)
    (closing : ∀ answer, after ≠ .closing answer) (quiet : after.releasing = false) :
    Core ((s.wiringAt started after).setReadyPipe s.readyPath
      (s.readyPipe s.readyPath).closeWriter) := by
  have kept : (s.readyPipe s.readyPath).closeWriter.buffer.Sublist
      (s.readyPipe s.readyPath).buffer := by
    simp only [Pipe.closeWriter]
    split
    · exact List.nil_sublist _
    · exact List.Sublist.refl _
  refine core.put started (by simp [Pipe.closeWriter]) (kept.length_le.trans (core.single _))
    (fun sent => core.content _ (kept.subset sent)) (fun ne => ?_)
    (fun answer eq => absurd eq (closing answer)) (by simp [quiet])
  rcases answered with answered | closed
  · exact answered
  · simp [Pipe.closeWriter, closed] at ne

theorem Core.openReader (core : Core s) (hit : s.trampoline = some t)
    (starting : t.two = .starting) :
    Core ({ s with trampoline := some { t with two := .holding s.readyPath } }.setReadyPipe
      s.readyPath (s.readyPipe s.readyPath).openReader) := by
  -- a second stage that holds no pipe leaves none with an answer in it
  have unheld (g : Nat) {t' : Trampoline} (same : s.trampoline = some t')
      (holds : t'.two = .holding g) : False := by
    obtain rfl : t = t' := Option.mem_unique hit same
    cases starting.symm.trans holds
  constructor
  case writer =>
    intro g held
    by_cases eq : g = s.readyPath
    · subst eq
      exact core.writer _ (by simpa [Pipe.openReader] using held)
    · exact core.writer g (by simpa [eq] using held)
  case single =>
    intro g
    by_cases eq : g = s.readyPath
    · subst eq
      simpa [Pipe.openReader] using core.single s.readyPath
    · simpa [eq] using core.single g
  case content =>
    intro g sent
    have pre : .wired ∈ (s.readyPipe g).buffer := by
      by_cases eq : g = s.readyPath
      · subst eq
        simpa [Pipe.openReader] using sent
      · simpa [eq] using sent
    obtain ⟨t', same, holds, -⟩ := core.content g pre
    exact (unheld g same holds).elim
  case past =>
    intro ne
    exact core.past (by simpa [Pipe.openReader] using ne)
  case closing =>
    intro started answer call sent mem
    exact core.closing started answer call sent (by simpa [Pipe.openReader] using mem)
  case releasing =>
    intro under
    obtain ⟨t', same, wired⟩ := core.releasing under
    obtain rfl : t = t' := Option.mem_unique hit same
    exact ⟨_, rfl, wired⟩

variable {event : Event}

/-- Without a second stage that is alive, a calm state has no answer under way. -/
theorem quiet_of_calm (calmly : calm s event = true) (lost : s.stageTwoAlive = false) :
    s.releasing = false := by
  simpa [calm, lost] using calmly

theorem Core.loseTwo (core : Core s) (hit : s.trampoline = some t)
    (quiet : s.releasing = false) : Core (s.loseTwo t) :=
  core.release hit (some { t with two := .gone }) (fun _ _ _ => quiet)
    (fun under => absurd under (by simp [quiet]))

/-- The second stage takes an answer: its own, or any while none is under way. -/
theorem Core.readTwo (core : Core s) (hit : s.trampoline = some t) (g : Nat) (two : StageTwo)
    (unsent : ∀ g', t.two = .holding g' →
      .wired ∈ (update s.readyPipe g (s.readyPipe g).take g').buffer →
      s.releasing = false)
    (stays : s.releasing = true → t.pid ∈ s.wired) : Core (s.readTwo t g two) :=
  ((core.take g).release hit (some { t with two }) unsent
    fun under => ⟨_, rfl, stays under⟩).congr rfl rfl rfl rfl rfl

theorem Core.spawn (core : Core s) (gone : s.trampoline = none) (t : Trampoline) :
    Core { s with trampoline := some t } := by
  have nobody {t' : Trampoline} (eq : s.trampoline = some t') : False :=
    by cases gone.symm.trans eq
  constructor
  case writer => exact core.writer
  case single => exact core.single
  case content =>
    intro g sent
    obtain ⟨_, eq, _⟩ := core.content g sent
    exact (nobody eq).elim
  case past => exact core.past
  case closing => exact core.closing
  case releasing =>
    intro under
    obtain ⟨_, eq, _⟩ := core.releasing under
    exact (nobody eq).elim

/-! ## One step -/

/-- **One step keeps the answers where they belong**, as long as the state it leads to is calm. -/
theorem Core.moves (core : Core s) (held : Held s) {later : Event} (moved : Moves s event s')
    (calmly : calm s' later = true) : Core s' := by
  -- the whole trampoline goes only while no answer is under way
  have vacated (eq : s' = s.vacate) : Core s.vacate := by
    have quiet := quiet_of_calm calmly
      (by simp [eq, State.stageTwoAlive, vacate_trampoline])
    exact core.vacate (by rwa [eq, vacate_releasing] at quiet)
  cases moved with
  | stops call =>
    have vacated := core.vacate (by simp [State.releasing, call])
    have recalled := vacated.recall .stopped (by simp [vacate_call, call, Call.holdsReady])
      (fun _ => rfl) (by simp) (by simp [State.releasing])
    exact recalled.congr rfl rfl rfl rfl rfl
  | cannotStop call =>
    exact core.recall .stopped (by simp [call, Call.holdsReady]) (fun _ => rfl) (by simp)
      (by simp [State.releasing])
  | makesPidPipe call =>
    have recalled := core.recall .pidPipeMade (by simp [call, Call.holdsReady]) (fun _ => rfl)
      (by simp) (by simp [State.releasing])
    exact recalled.congr rfl rfl rfl rfl rfl
  | makesReadyPipe call => exact core.makeReadyPipe (by simp [call, Call.holdsReady])
  | @starts wiring _ call _ =>
    have recalled := core.recall (.running true wiring) (by simp [call, Call.holdsReady])
      (by simp [call, Call.answered]) (by simp [call]) (by simp [State.releasing, call])
    exact recalled.congr rfl rfl rfl rfl rfl
  | returns call =>
    exact core.recall .idle (by simp [call, Call.holdsReady, Wiring.holdsReady]) (fun _ => rfl)
      (by simp) (by simp [State.releasing])
  | opensPid call | deadline call =>
    exact (core.wire call rfl rfl (by simp) (by simp [Wiring.releasing])).congr rfl rfl rfl rfl rfl
  | @readsPid started pid rest call _ =>
    have wired : Core (s.wiringAt started
        (if rest = [] then .settingUp pid else .toAnswer .failed)) := by
      split
      · exact core.wire call rfl rfl (by simp) (by simp [Wiring.releasing])
      · exact core.wire call rfl rfl (by simp) (by simp [Wiring.releasing])
    exact wired.congr rfl rfl rfl rfl rfl
  | setupFails call => exact core.wire call rfl rfl (by simp) (by simp [Wiring.releasing])
  | setupSucceeds call hit named _ => exact core.setUp call hit named
  | opensReady call => exact core.openWriter call
  | writesAnswer call _ written => exact core.write held call written
  | @answerRefused started answer call _ refused =>
    have closed : (s.readyPipe s.readyPath).reader = .closed := by
      by_contra held
      simp [Pipe.write, held] at refused
    apply core.closeWriter started (.inr closed)
    · intro other
      split <;> simp
    · split <;> rfl
  | @closesReady started _ call => exact core.closeWriter started (.inl rfl) (by simp) rfl
  | oneOpens hit _ => exact (core.advanceOne hit _).congr rfl rfl rfl rfl rfl
  | oneWrites hit _ _ _ => exact (core.advanceOne hit _).congr rfl rfl rfl rfl rfl
  | oneRefused _ _ _ _ | oneExits _ _ _ | dies _ => exact vacated rfl
  | twoOpens hit two => exact core.openReader hit two
  | @twoPasses t g rest hit two _ sent =>
    obtain ⟨t', eq, -, wired⟩ := core.content g (by simp [sent])
    obtain rfl : t = t' := Option.mem_unique hit eq
    obtain rfl : rest = [] := by simpa [sent] using core.single g
    have taken := core.readTwo hit g .passed
      (by
        intro g' holds left
        obtain rfl : g = g' := StageTwo.holding.inj (two.symm.trans holds)
        exact absurd left (by simp [Pipe.take, sent]))
      (fun _ => wired)
    exact taken.congr rfl rfl rfl rfl rfl
  | @twoFails t g _ hit _ _ _ =>
    have quiet : (s.readTwo t g .gone).releasing = false := quiet_of_calm calmly rfl
    exact core.readTwo hit g .gone (fun _ _ _ => quiet)
      (fun under => by cases quiet.symm.trans under)
  | @twoEnds t _ hit _ _ _ _ | @twoDies t hit _ =>
    have quiet : (s.loseTwo t).releasing = false := quiet_of_calm calmly rfl
    exact core.loseTwo hit quiet
  | spawns gone _ => exact (core.spawn gone _).congr rfl rfl rfl rfl rfl
  | unloads _ => exact core.congr rfl rfl rfl rfl rfl

/-- A step releases nobody but a second stage that was wired. -/
theorem released_moves (core : Core s) (moved : Moves s event s')
    (pre : ∀ pid ∈ s.released, pid ∈ s.wired) : ∀ pid ∈ s'.released, pid ∈ s'.wired := by
  cases moved with
  | @twoPasses t g rest hit two _ sent =>
    obtain ⟨t', eq, -, wired⟩ := core.content g (by simp [sent])
    obtain rfl : t = t' := Option.mem_unique hit eq
    intro pid mem
    rcases List.mem_cons.mp mem with rfl | past
    · exact wired
    · exact pre pid past
  | setupSucceeds => exact fun pid mem => .tail _ (pre pid mem)
  | stops | oneRefused | oneExits | dies => simpa only [vacate_released, vacate_wired] using pre
  | _ => exact pre

end

/-! ## Whole runs -/

theorem core_start : Core {} where
  writer _ held := absurd rfl held
  single _ := Nat.zero_le 1
  content _ sent := absurd sent List.not_mem_nil
  past nonempty := absurd rfl nonempty
  closing := by rintro _ _ ⟨⟩
  releasing under := absurd under (by simp [State.releasing])

/-- **A routed workload runs only in a namespace that was wired.** -/
theorem released_wired_of_calm {s : State} (reached : Reachable step calm {} s) :
    ∀ pid ∈ s.released, pid ∈ s.wired := by
  -- the state a run ends in need not be calm, and then its pipes do not matter any more
  have invariant := reached.invariant
    (fun s => (∀ pid ∈ s.released, pid ∈ s.wired) ∧ Held s ∧ ∀ later, calm s later = true → Core s)
    ⟨by simp, fun _ read => absurd rfl read, fun _ _ => core_start⟩
    (by
      rintro s s' event ⟨released, held, core⟩ calmly happened
      have moved := moves_of_step happened
      have now := core event calmly
      exact ⟨released_moves now moved released, held.moves moved,
        fun later next => now.moves held moved next⟩)
  exact invariant.1

/-- A start that goes as it should: the workload is wired, answered and released. -/
def orderlyStart : List Event :=
  [.begins true, .makesPidPipe, .makesReadyPipe, .opensPid, .starts true, .spawns, .oneOpens,
    .oneWrites, .readsPid, .setsUp true, .twoOpens, .opensReady, .writesAnswer, .twoReads,
    .closesReady, .returns]

theorem released_wired_of_calm_orderly :
    ∃ s, run step calm {} orderlyStart = some s ∧ s.released = [0] ∧
      ∀ pid ∈ s.released, pid ∈ s.wired := by
  have ran : (run step calm {} orderlyStart).map (·.released) = some [0] := by decide
  obtain ⟨s, reached, released⟩ := Option.map_eq_some_iff.mp ran
  exact ⟨s, reached, released, released_wired_of_calm (Reachable.start.run reached)⟩

/-- The wired trampoline dies before it reads its answer, and the next one reads it. -/
def staleAnswer : List Event :=
  [.begins true, .makesPidPipe, .makesReadyPipe, .opensPid, .starts true, .spawns, .oneOpens,
    .oneWrites, .readsPid, .setsUp true, .dies, .spawns, .twoOpens, .opensReady, .writesAnswer,
    .twoReads]

/-- **An answer meant for a dead trampoline releases the next one**, which nobody has wired. -/
theorem stale_answer_releases_unwired :
    ∃ s, Reachable step anytime {} s ∧ ∃ pid ∈ s.released, pid ∉ s.wired :=
  exists_of_run staleAnswer (by decide)

end Horchestra.Agent.Handshake
