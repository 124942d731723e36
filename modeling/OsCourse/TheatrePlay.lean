/-
The play of Section2/L2.  A director forks an actor and cues it with SIGUSR1;
the actor answers with SIGUSR2.  Both wait in `pause`, which returns only when a
handler runs while the process is suspended there.
-/
import OsCourse.TransitionSystem

namespace OsCourse

namespace Play

open TransitionSystem

/-- How stdio holds back what is printed: line buffered on a terminal, fully
buffered in a file or a pipe. -/
inductive Buffering where
  | line
  | full
deriving Repr, DecidableEq

/-- The lines of the actor and then those of the director. -/
inductive Line where
  | ready
  | receivedUsr1
  | toBeOrNotToBe
  | sendingUsr2
  | aboutToBegin
  | willSendUsr1
  | receivedUsr2
  | ending
deriving Repr, DecidableEq

/-- The next statement of the actor. -/
inductive ActorPlace where
  | unborn
  | ready
  | sigaction
  | pause
  | paused
  | ifReady
  | received
  | monologue
  | finished
  | kill
  | exit
  | exited
  | killed
deriving Repr, DecidableEq

/-- The next statement of the director. -/
inductive DirectorPlace where
  | fork
  | begin
  | sigaction
  | announce
  | kill
  | pause
  | paused
  | ifReady
  | received
  | ending
  | sigkill
  | waitpid
  | exit
  | returned
  | forkFailed
  | killed
deriving Repr, DecidableEq

/-- The two processes: where they are, whether their handlers are installed,
the flags the handlers set, the signals that are pending, what stdio holds back
for each, and what has been written. -/
structure State where
  director : DirectorPlace
  actor : ActorPlace
  directorHandles : Bool
  actorHandles : Bool
  directorReady : Bool
  actorReady : Bool
  sigusr1 : Bool
  sigusr2 : Bool
  sigkill : Bool
  directorBuffer : List Line
  actorBuffer : List Line
  screen : List Line
deriving Repr, DecidableEq

/-- The system decides whether `fork` succeeds, which process runs and when a
pending signal is delivered. -/
inductive Action where
  | fork (succeeds : Bool)
  | director
  | actor
  | sigusr1
  | sigusr2
  | sigkill
deriving Repr, DecidableEq

@[simp] def ActorPlace.alive (place : ActorPlace) : Bool :=
  place ∉ [.unborn, .exited, .killed]

@[simp] def DirectorPlace.alive (place : DirectorPlace) : Bool :=
  place ∉ [.returned, .forkFailed, .killed]

namespace State

def start : State :=
  ⟨.fork, .unborn, false, false, false, false, false, false, false, [], [], []⟩

def actorSays (mode : Buffering) (state : State) (line : Line)
    (place : ActorPlace) : State :=
  match mode with
  | .line => { state with screen := state.screen ++ [line], actor := place }
  | .full =>
      { state with actorBuffer := state.actorBuffer ++ [line], actor := place }

def directorSays (mode : Buffering) (state : State) (line : Line)
    (place : DirectorPlace) : State :=
  match mode with
  | .line => { state with screen := state.screen ++ [line], director := place }
  | .full =>
      { state with
        directorBuffer := state.directorBuffer ++ [line], director := place }

/-- The child starts with a copy of what stdio holds back for the parent. -/
def fork (state : State) (succeeds : Bool) : Option State :=
  if state.director = .fork then
    if succeeds then
      some { state with
        director := .begin, actor := .ready,
        actorBuffer := state.directorBuffer }
    else some { state with director := .forkFailed }
  else none

def runActor (mode : Buffering) (state : State) : Option State :=
  match state.actor with
  | .ready => some (state.actorSays mode .ready .sigaction)
  | .sigaction => some { state with actorHandles := true, actor := .pause }
  | .pause => some { state with actor := .paused }
  | .ifReady =>
      some { state with
        actor := if state.actorReady then .received else .exit }
  | .received => some (state.actorSays mode .receivedUsr1 .monologue)
  | .monologue => some (state.actorSays mode .toBeOrNotToBe .finished)
  | .finished => some (state.actorSays mode .sendingUsr2 .kill)
  -- a parent that has ended is not the process that `getppid` names
  | .kill =>
      some { state with
        sigusr2 := state.sigusr2 || state.director.alive, actor := .exit }
  -- `exit` writes what stdio holds back and ends the process in one step
  | .exit =>
      some { state with
        screen := state.screen ++ state.actorBuffer, actorBuffer := [],
        actor := .exited }
  | .unborn | .paused | .exited | .killed => none

def runDirector (mode : Buffering) (state : State) : Option State :=
  match state.director with
  | .begin => some (state.directorSays mode .aboutToBegin .sigaction)
  | .sigaction =>
      some { state with directorHandles := true, director := .announce }
  | .announce => some (state.directorSays mode .willSendUsr1 .kill)
  -- a signal to a child that has ended succeeds and does nothing
  | .kill =>
      some { state with
        sigusr1 := state.sigusr1 || state.actor.alive, director := .pause }
  | .pause => some { state with director := .paused }
  | .ifReady =>
      some { state with
        director := if state.directorReady then .received else .sigkill }
  | .received => some (state.directorSays mode .receivedUsr2 .ending)
  | .ending => some (state.directorSays mode .ending .sigkill)
  | .sigkill =>
      some { state with
        sigkill := state.sigkill || state.actor.alive, director := .waitpid }
  | .waitpid =>
      if state.actor.alive then none
      else some { state with director := .exit }
  | .exit =>
      some { state with
        screen := state.screen ++ state.directorBuffer, directorBuffer := [],
        director := .returned }
  | .fork | .paused | .returned | .forkFailed | .killed => none

/-- `Handle_sigusr1`, or the default action before it is installed. -/
def deliverUsr1 (state : State) : Option State :=
  if state.sigusr1 && state.actor.alive then
    if state.actorHandles then
      some { state with
        sigusr1 := false, actorReady := true,
        actor := if state.actor = .paused then .ifReady else state.actor }
    else some { state with sigusr1 := false, actor := .killed }
  else none

/-- `Handle_sigusr2`, or the default action before it is installed. -/
def deliverUsr2 (state : State) : Option State :=
  if state.sigusr2 && state.director.alive then
    if state.directorHandles then
      some { state with
        sigusr2 := false, directorReady := true,
        director :=
          if state.director = .paused then .ifReady else state.director }
    else some { state with sigusr2 := false, director := .killed }
  else none

def deliverKill (state : State) : Option State :=
  if state.sigkill && state.actor.alive then
    some { state with sigkill := false, actor := .killed }
  else none

def step (mode : Buffering) (state : State) : Action → Option State
  | .fork succeeds => state.fork succeeds
  | .director => state.runDirector mode
  | .actor => state.runActor mode
  | .sigusr1 => state.deliverUsr1
  | .sigusr2 => state.deliverUsr2
  | .sigkill => state.deliverKill

end State

def play (mode : Buffering) : System State Action where
  start := State.start
  step := State.step mode

/-- The actor is past the installation of its handler. -/
@[simp] def ActorPlace.installed (place : ActorPlace) : Bool :=
  place ∉ [.unborn, .ready, .sigaction, .killed]

/-- The actor has come back from `pause`. -/
@[simp] def ActorPlace.cued (place : ActorPlace) : Bool :=
  place ∈ [.ifReady, .received, .monologue, .finished, .kill, .exit,
    .exited]

/-- The actor has sent SIGUSR2. -/
@[simp] def ActorPlace.answered (place : ActorPlace) : Bool :=
  place ∈ [.exit, .exited]

@[simp] def DirectorPlace.forked (place : DirectorPlace) : Bool :=
  place ∉ [.fork, .forkFailed]

@[simp] def DirectorPlace.installed (place : DirectorPlace) : Bool :=
  place ∉ [.fork, .begin, .sigaction, .forkFailed, .killed]

/-- The director has sent SIGUSR1. -/
@[simp] def DirectorPlace.sent (place : DirectorPlace) : Bool :=
  place ∈ [.pause, .paused, .ifReady, .received, .ending, .sigkill,
    .waitpid, .exit, .returned]

/-- The director has come back from `pause`. -/
@[simp] def DirectorPlace.resumed (place : DirectorPlace) : Bool :=
  place ∈ [.ifReady, .received, .ending, .sigkill, .waitpid, .exit,
    .returned]

/-- The director has sent SIGKILL. -/
@[simp] def DirectorPlace.struck (place : DirectorPlace) : Bool :=
  place ∈ [.waitpid, .exit, .returned]

/-- What a signal that is pending, or was caught, says about the two
processes. -/
structure Sound (state : State) : Prop where
  born : state.actor = .unborn ↔ state.director.forked = false
  directorAlive : state.director ≠ .killed
  actorHandles : state.actor ≠ .killed →
    state.actorHandles = state.actor.installed
  directorHandles : state.directorHandles = state.director.installed
  sent : state.sigusr1 = true ∨ state.actorReady = true ∨
    state.actor = .killed → state.director.sent = true
  kept : state.director.sent = true → state.sigusr1 = true ∨
    state.actorReady = true ∨ state.actor = .killed
  once : state.sigusr1 = true → state.actorReady = false
  actorReady : state.actorReady = true →
    state.actor.installed = true ∨ state.actor = .killed
  cued : state.actor.cued = true → state.actorReady = true
  answered : state.sigusr2 = true → state.actor.answered = true
  either : state.actor.answered = true → state.sigusr2 = !state.directorReady
  directorReady : state.directorReady = true →
    state.actor.answered = true ∨
      (state.actor = .killed ∧ state.director.struck = true)
  resumed : state.director.resumed = true → state.directorReady = true
  sigkill : state.sigkill = true → state.director.struck = true
  waited : state.director = .exit ∨ state.director = .returned →
    state.actor.alive = false

variable {mode : Buffering} {state next : State}

theorem actorSays_eq (mode : Buffering) (state : State) (line : Line)
    (place : ActorPlace) :
    ∃ buffer screen, state.actorSays mode line place =
      { state with actor := place, actorBuffer := buffer, screen := screen } := by
  cases mode <;> exact ⟨_, _, rfl⟩

theorem directorSays_eq (mode : Buffering) (state : State) (line : Line)
    (place : DirectorPlace) :
    ∃ buffer screen, state.directorSays mode line place =
      { state with
        director := place, directorBuffer := buffer, screen := screen } := by
  cases mode <;> exact ⟨_, _, rfl⟩

section Moves

variable {actor : ActorPlace} {director : DirectorPlace}
  {buffer screen : List Line}

/-- A move between two places of the actor that the signals do not tell
apart. -/
theorem Sound.actor_moves (hsound : Sound state)
    (halive : state.actor.alive = true) (hdest : actor.alive = true)
    (hinstalled : actor.installed = state.actor.installed)
    (hcued : actor.cued = state.actor.cued)
    (hanswered : actor.answered = state.actor.answered) :
    Sound { state with
      actor := actor, actorBuffer := buffer, screen := screen } := by
  have hunborn : state.actor ≠ .unborn := fun heq => by
    simp [heq, ActorPlace.alive] at halive
  have hkilled : state.actor ≠ .killed := fun heq => by
    simp [heq, ActorPlace.alive] at halive
  have hunborn' : actor ≠ .unborn := fun heq => by
    simp [heq, ActorPlace.alive] at hdest
  have hkilled' : actor ≠ .killed := fun heq => by
    simp [heq, ActorPlace.alive] at hdest
  constructor
  case born => exact iff_of_false hunborn' (mt hsound.born.mpr hunborn)
  case directorAlive => exact hsound.directorAlive
  case actorHandles =>
    exact fun _ => (hsound.actorHandles hkilled).trans hinstalled.symm
  case directorHandles => exact hsound.directorHandles
  case sent =>
    rintro (hpending | hready | heq)
    · exact hsound.sent (.inl hpending)
    · exact hsound.sent (.inr (.inl hready))
    · exact absurd heq hkilled'
  case kept =>
    intro hsent
    rcases hsound.kept hsent with hpending | hready | heq
    · exact .inl hpending
    · exact .inr (.inl hready)
    · exact absurd heq hkilled
  case once => exact hsound.once
  case actorReady =>
    intro hready
    have := (hsound.actorReady hready).resolve_right hkilled
    exact .inl (hinstalled.trans this)
  case cued => exact fun hplace => hsound.cued (hcued ▸ hplace)
  case answered =>
    exact fun hpending => hanswered.trans (hsound.answered hpending)
  case either => exact fun hplace => hsound.either (hanswered ▸ hplace)
  case directorReady =>
    intro hready
    have := (hsound.directorReady hready).resolve_right
      fun hboth => hkilled hboth.1
    exact .inl (hanswered.trans this)
  case resumed => exact hsound.resumed
  case sigkill => exact hsound.sigkill
  case waited =>
    intro hplace
    rw [hsound.waited hplace] at halive
    contradiction

/-- A move between two places of the director that the signals do not tell
apart. -/
theorem Sound.director_moves (hsound : Sound state)
    (hforked : state.director.forked = true)
    (hdest : director.forked = true) (hlives : director ≠ .killed)
    (hinstalled : director.installed = state.director.installed)
    (hsent : director.sent = state.director.sent)
    (hresumed : director.resumed = state.director.resumed)
    (hstruck : director.struck = state.director.struck)
    (hwaited : director = .exit ∨ director = .returned →
      state.actor.alive = false) :
    Sound { state with
      director := director, directorBuffer := buffer, screen := screen } := by
  have hborn : state.actor ≠ .unborn := by
    rw [Ne, hsound.born, hforked]
    simp
  constructor
  case born => exact iff_of_false hborn (by rw [hdest]; simp)
  case directorAlive => exact hlives
  case actorHandles => exact hsound.actorHandles
  case directorHandles => exact hsound.directorHandles.trans hinstalled.symm
  case sent => exact fun hcue => hsent.trans (hsound.sent hcue)
  case kept => exact fun hplace => hsound.kept (hsent ▸ hplace)
  case once => exact hsound.once
  case actorReady => exact hsound.actorReady
  case cued => exact hsound.cued
  case answered => exact hsound.answered
  case either => exact hsound.either
  case directorReady =>
    intro hready
    rcases hsound.directorReady hready with hanswered | ⟨hkilled, hafter⟩
    · exact .inl hanswered
    · exact .inr ⟨hkilled, hstruck.trans hafter⟩
  case resumed => exact fun hplace => hsound.resumed (hresumed ▸ hplace)
  case sigkill => exact fun hpending => hstruck.trans (hsound.sigkill hpending)
  case waited => exact hwaited

end Moves

/-- As long as the actor runs, so does the director. -/
theorem Sound.director_alive (hsound : Sound state)
    (halive : state.actor.alive = true) : state.director.alive = true := by
  have hborn := hsound.born
  have hlives := hsound.directorAlive
  have hwaited := hsound.waited
  cases hdirector : state.director <;> simp_all

section Signals

variable (hsound : Sound state)

include hsound

theorem Sound.actor_installs (hactor : state.actor = .sigaction) :
    Sound { state with actorHandles := true, actor := .pause } := by
  obtain ⟨⟩ := hsound
  constructor <;> simp_all

/-- The director is there to be answered. -/
theorem Sound.actor_answers (hactor : state.actor = .kill) :
    Sound { state with
      sigusr2 := state.sigusr2 || state.director.alive, actor := .exit } := by
  have halive := hsound.director_alive (by simp [hactor])
  rw [halive, Bool.or_true]
  obtain ⟨⟩ := hsound
  constructor <;> simp_all

theorem Sound.actor_exits {buffer screen : List Line}
    (hactor : state.actor = .exit) :
    Sound { state with
      screen := screen, actorBuffer := buffer, actor := .exited } := by
  obtain ⟨⟩ := hsound
  constructor <;> simp_all

theorem Sound.director_installs (hdirector : state.director = .sigaction) :
    Sound { state with directorHandles := true, director := .announce } := by
  obtain ⟨⟩ := hsound
  constructor <;> simp_all

/-- A cue is pending, or there is no actor any more. -/
theorem Sound.director_cues (hdirector : state.director = .kill) :
    Sound { state with
      sigusr1 := state.sigusr1 || state.actor.alive, director := .pause } := by
  obtain ⟨⟩ := hsound
  constructor <;> simp_all

theorem Sound.director_strikes (hdirector : state.director = .sigkill) :
    Sound { state with
      sigkill := state.sigkill || state.actor.alive, director := .waitpid } := by
  obtain ⟨⟩ := hsound
  constructor <;> simp_all

end Signals

theorem Sound.runActor (hsound : Sound state)
    (hstep : state.runActor mode = some next) : Sound next := by
  unfold State.runActor at hstep
  cases hactor : state.actor with
  | unborn | paused | exited | killed => simp [hactor] at hstep
  | ready | received | monologue | finished =>
      simp only [hactor, Option.some.injEq] at hstep
      subst next
      obtain ⟨buffer, screen, heq⟩ := actorSays_eq mode state _ _
      rw [heq]
      apply hsound.actor_moves <;> simp [hactor]
  | pause =>
      simp only [hactor, Option.some.injEq] at hstep
      subst next
      apply hsound.actor_moves <;> simp [hactor]
  | ifReady =>
      have hready : state.actorReady = true := hsound.cued (by simp [hactor])
      simp only [hactor, Option.some.injEq] at hstep
      subst next
      rw [if_pos hready]
      apply hsound.actor_moves <;> simp [hactor]
  | sigaction =>
      simp only [hactor, Option.some.injEq] at hstep
      subst next
      exact hsound.actor_installs hactor
  | kill =>
      simp only [hactor, Option.some.injEq] at hstep
      subst next
      exact hsound.actor_answers hactor
  | exit =>
      simp only [hactor, Option.some.injEq] at hstep
      subst next
      exact hsound.actor_exits hactor

theorem Sound.runDirector (hsound : Sound state)
    (hstep : state.runDirector mode = some next) : Sound next := by
  unfold State.runDirector at hstep
  cases hdirector : state.director with
  | fork | paused | returned | forkFailed | killed =>
      simp [hdirector] at hstep
  | begin | announce | received | ending =>
      simp only [hdirector, Option.some.injEq] at hstep
      subst next
      obtain ⟨buffer, screen, heq⟩ := directorSays_eq mode state _ _
      rw [heq]
      apply hsound.director_moves <;> simp [hdirector]
  | pause =>
      simp only [hdirector, Option.some.injEq] at hstep
      subst next
      apply hsound.director_moves <;> simp [hdirector]
  | ifReady =>
      have hready : state.directorReady = true :=
        hsound.resumed (by simp [hdirector])
      simp only [hdirector, Option.some.injEq] at hstep
      subst next
      rw [if_pos hready]
      apply hsound.director_moves <;> simp [hdirector]
  | waitpid =>
      simp only [hdirector, Option.ite_none_left_eq_some,
        Option.some.injEq] at hstep
      obtain ⟨hdead, rfl⟩ := hstep
      obtain ⟨⟩ := hsound
      constructor <;> simp_all
  | exit =>
      simp only [hdirector, Option.some.injEq] at hstep
      subst next
      have hdead := hsound.waited (.inl hdirector)
      apply hsound.director_moves <;> simp_all
  | sigaction =>
      simp only [hdirector, Option.some.injEq] at hstep
      subst next
      exact hsound.director_installs hdirector
  | kill =>
      simp only [hdirector, Option.some.injEq] at hstep
      subst next
      exact hsound.director_cues hdirector
  | sigkill =>
      simp only [hdirector, Option.some.injEq] at hstep
      subst next
      exact hsound.director_strikes hdirector

theorem Sound.fork (hsound : Sound state) {succeeds : Bool}
    (hstep : state.fork succeeds = some next) : Sound next := by
  simp only [State.fork, Option.ite_none_right_eq_some] at hstep
  obtain ⟨hdirector, hstep⟩ := hstep
  have hunborn : state.actor = .unborn := hsound.born.mpr (by simp [hdirector])
  cases succeeds with
  | true
  | false =>
      simp only [if_true, Bool.false_eq_true, if_false,
        Option.some.injEq] at hstep
      subst next
      obtain ⟨⟩ := hsound
      constructor <;> simp_all

/-- SIGUSR1 meets the actor before its handler is installed, before `pause`, or
in `pause`. -/
theorem Sound.deliverUsr1_cases (hsound : Sound state)
    (hstep : state.deliverUsr1 = some next) :
    state.sigusr1 = true ∧ state.actorReady = false ∧
      (((state.actor = .ready ∨ state.actor = .sigaction) ∧
          next = { state with sigusr1 := false, actor := .killed }) ∨
        (state.actor = .pause ∧
          next = { state with sigusr1 := false, actorReady := true }) ∨
        (state.actor = .paused ∧
          next = { state with
            sigusr1 := false, actorReady := true, actor := .ifReady })) := by
  simp only [State.deliverUsr1, Option.ite_none_right_eq_some,
    Bool.and_eq_true] at hstep
  obtain ⟨⟨hpending, halive⟩, hstep⟩ := hstep
  have honce := hsound.once hpending
  have hnotCued : state.actor.cued = false := by
    rw [← Bool.not_eq_true]
    intro hcued
    rw [hsound.cued hcued] at honce
    contradiction
  have hhandles := hsound.actorHandles
  refine ⟨hpending, honce, ?_⟩
  cases hactor : state.actor <;> simp_all

section Cue

variable (hsound : Sound state) (hpending : state.sigusr1 = true)

include hsound hpending

/-- A cue before the handler is installed is fatal. -/
theorem Sound.dies_of_cue
    (hactor : state.actor = .ready ∨ state.actor = .sigaction) :
    Sound { state with sigusr1 := false, actor := .killed } := by
  have hsent := hsound.sent (.inl hpending)
  obtain ⟨⟩ := hsound
  rcases hactor with hactor | hactor <;> constructor <;> simp_all

/-- The handler runs before the actor is suspended. -/
theorem Sound.misses_cue (hactor : state.actor = .pause) :
    Sound { state with sigusr1 := false, actorReady := true } := by
  have hsent := hsound.sent (.inl hpending)
  obtain ⟨⟩ := hsound
  constructor <;> simp_all

/-- The handler runs, and `pause` returns. -/
theorem Sound.wakes_on_cue (hactor : state.actor = .paused) :
    Sound { state with
      sigusr1 := false, actorReady := true, actor := .ifReady } := by
  have hsent := hsound.sent (.inl hpending)
  obtain ⟨⟩ := hsound
  constructor <;> simp_all

end Cue

theorem Sound.deliverUsr1 (hsound : Sound state)
    (hstep : state.deliverUsr1 = some next) : Sound next := by
  obtain ⟨hpending, -, ⟨hactor, rfl⟩ | ⟨hactor, rfl⟩ | ⟨hactor, rfl⟩⟩ :=
    hsound.deliverUsr1_cases hstep
  · exact hsound.dies_of_cue hpending hactor
  · exact hsound.misses_cue hpending hactor
  · exact hsound.wakes_on_cue hpending hactor

/-- SIGUSR2 always finds its handler installed. -/
theorem Sound.deliverUsr2_eq (hsound : Sound state)
    (hstep : state.deliverUsr2 = some next) :
    state.sigusr2 = true ∧ state.actor.answered = true ∧
      state.director.sent = true ∧ next = { state with
        sigusr2 := false, directorReady := true,
        director :=
          if state.director = .paused then .ifReady else state.director } := by
  simp only [State.deliverUsr2, Option.ite_none_right_eq_some,
    Bool.and_eq_true] at hstep
  obtain ⟨⟨hpending, -⟩, hstep⟩ := hstep
  have hanswered := hsound.answered hpending
  have hready : state.actorReady = true := hsound.cued (by simp_all)
  have hsent := hsound.sent (.inr (.inl hready))
  have hhandles : state.directorHandles = true := by
    rw [hsound.directorHandles]
    cases hdirector : state.director <;> simp_all
  rw [if_pos hhandles, Option.some.injEq] at hstep
  exact ⟨hpending, hanswered, hsent, hstep.symm⟩

theorem Sound.deliverUsr2 (hsound : Sound state)
    (hstep : state.deliverUsr2 = some next) : Sound next := by
  obtain ⟨hpending, hanswered, hsent, rfl⟩ := hsound.deliverUsr2_eq hstep
  by_cases hpaused : state.director = .paused
  · rw [if_pos hpaused]
    obtain ⟨⟩ := hsound
    constructor <;> simp_all
  · rw [if_neg hpaused]
    obtain ⟨⟩ := hsound
    constructor <;> simp_all

/-- SIGKILL reaches an actor that has sent SIGUSR2. -/
theorem Sound.deliverKill_eq (hsound : Sound state)
    (hstep : state.deliverKill = some next) :
    state.sigkill = true ∧ state.directorReady = true ∧
      state.actor = .exit ∧
      next = { state with sigkill := false, actor := .killed } := by
  simp only [State.deliverKill, Option.ite_none_right_eq_some,
    Bool.and_eq_true, Option.some.injEq] at hstep
  obtain ⟨⟨hpending, halive⟩, rfl⟩ := hstep
  have hstruck := hsound.sigkill hpending
  have hready : state.directorReady = true := hsound.resumed (by simp_all)
  have hanswered := hsound.directorReady hready
  exact ⟨hpending, hready, by simp_all, rfl⟩

theorem Sound.deliverKill (hsound : Sound state)
    (hstep : state.deliverKill = some next) : Sound next := by
  obtain ⟨hpending, hready, hactor, rfl⟩ := hsound.deliverKill_eq hstep
  have hstruck := hsound.sigkill hpending
  obtain ⟨⟩ := hsound
  constructor <;> simp_all

theorem sound_invariant (mode : Buffering) : Invariant (play mode) Sound where
  start := by constructor <;> simp [play, State.start]
  step := by
    intro state next action hsound hstep
    cases action with
    | fork succeeds => exact hsound.fork hstep
    | director => exact hsound.runDirector hstep
    | actor => exact hsound.runActor hstep
    | sigusr1 => exact hsound.deliverUsr1 hstep
    | sigusr2 => exact hsound.deliverUsr2 hstep
    | sigkill => exact hsound.deliverKill hstep

/-- A signal is delivered only while its process is suspended, and `fork`
succeeds. -/
def Timely (state : State) : Action → Prop
  | .fork succeeds => succeeds = true
  | .sigusr1 => state.actor = .paused
  | .sigusr2 => state.director = .paused
  | .director | .actor | .sigkill => True

instance (state : State) : (action : Action) → Decidable (Timely state action)
  | .fork succeeds => inferInstanceAs (Decidable (succeeds = true))
  | .sigusr1 => inferInstanceAs (Decidable (state.actor = .paused))
  | .sigusr2 => inferInstanceAs (Decidable (state.director = .paused))
  | .director | .actor | .sigkill => isTrue trivial

/-- Nothing will wake a process up: there is no actor, the cue was fatal, or a
handler ran before its process was suspended. -/
def Lost (state : State) : Prop :=
  state.director = .forkFailed ∨
    (state.actor = .killed ∧ state.directorReady = false) ∨
    (state.actorReady = true ∧
      (state.actor = .pause ∨ state.actor = .paused)) ∨
    (state.directorReady = true ∧
      (state.director = .pause ∨ state.director = .paused))

theorem lost_runActor (hsound : Sound state)
    (hstep : state.runActor mode = some next) : Lost next ↔ Lost state := by
  unfold State.runActor at hstep
  cases hactor : state.actor with
  | unborn | paused | exited | killed => simp [hactor] at hstep
  | ready | received | monologue | finished =>
      simp only [hactor, Option.some.injEq] at hstep
      subst next
      obtain ⟨buffer, screen, heq⟩ := actorSays_eq mode state _ _
      rw [heq]
      simp [Lost, hactor]
  | sigaction =>
      simp only [hactor, Option.some.injEq] at hstep
      subst next
      have hready := hsound.actorReady
      simp_all [Lost]
  | pause | kill | exit =>
      simp only [hactor, Option.some.injEq] at hstep
      subst next
      simp [Lost, hactor]
  | ifReady =>
      have hready : state.actorReady = true := hsound.cued (by simp [hactor])
      simp only [hactor, if_pos hready, Option.some.injEq] at hstep
      subst next
      simp [Lost, hactor]

theorem lost_runDirector (hsound : Sound state)
    (hstep : state.runDirector mode = some next) : Lost next ↔ Lost state := by
  unfold State.runDirector at hstep
  cases hdirector : state.director with
  | fork | paused | returned | forkFailed | killed =>
      simp [hdirector] at hstep
  | begin | announce | received | ending =>
      simp only [hdirector, Option.some.injEq] at hstep
      subst next
      obtain ⟨buffer, screen, heq⟩ := directorSays_eq mode state _ _
      rw [heq]
      simp [Lost, hdirector]
  | waitpid =>
      simp only [hdirector, Option.ite_none_left_eq_some,
        Option.some.injEq] at hstep
      obtain ⟨hdead, rfl⟩ := hstep
      simp [Lost, hdirector]
  | kill =>
      simp only [hdirector, Option.some.injEq] at hstep
      subst next
      have hready := hsound.directorReady
      have hsent := hsound.sent
      have hcued := hsound.cued
      simp_all [Lost]
  | sigaction | pause | sigkill | exit =>
      simp only [hdirector, Option.some.injEq] at hstep
      subst next
      simp [Lost, hdirector]
  | ifReady =>
      have hready : state.directorReady = true :=
        hsound.resumed (by simp [hdirector])
      simp only [hdirector, if_pos hready, Option.some.injEq] at hstep
      subst next
      simp [Lost, hdirector]

theorem lost_deliverUsr1 (hsound : Sound state)
    (hstep : state.deliverUsr1 = some next) :
    ¬ Lost next ↔ ¬ Lost state ∧ state.actor = .paused := by
  obtain ⟨hpending, honce, hcases⟩ := hsound.deliverUsr1_cases hstep
  have hdirectorReady := hsound.directorReady
  rcases hcases with ⟨hactor | hactor, rfl⟩ | ⟨hactor, rfl⟩ | ⟨hactor, rfl⟩ <;>
    simp_all [Lost]

theorem lost_deliverUsr2 (hsound : Sound state)
    (hstep : state.deliverUsr2 = some next) :
    ¬ Lost next ↔ ¬ Lost state ∧ state.director = .paused := by
  obtain ⟨hpending, hanswered, hsent, rfl⟩ := hsound.deliverUsr2_eq hstep
  have hready := hsound.either hanswered
  rw [hpending] at hready
  have hresumed : state.director.resumed = false := by
    rw [← Bool.not_eq_true]
    intro hplace
    rw [hsound.resumed hplace] at hready
    contradiction
  cases hdirector : state.director <;> simp_all [Lost]
  all_goals grind

theorem lost_step (hsound : Sound state) {action : Action}
    (hstep : state.step mode action = some next) :
    ¬ Lost next ↔ ¬ Lost state ∧ Timely state action := by
  cases action with
  | fork succeeds =>
      simp only [State.step, State.fork, Option.ite_none_right_eq_some] at hstep
      obtain ⟨hdirector, hstep⟩ := hstep
      have hunborn : state.actor = .unborn :=
        hsound.born.mpr (by simp [hdirector])
      cases succeeds <;> simp at hstep <;> subst next <;>
        simp_all [Lost, Timely]
  | director =>
      rw [lost_runDirector hsound hstep]
      exact (and_iff_left trivial).symm
  | actor =>
      rw [lost_runActor hsound hstep]
      exact (and_iff_left trivial).symm
  | sigusr1 => exact lost_deliverUsr1 hsound hstep
  | sigusr2 => exact lost_deliverUsr2 hsound hstep
  | sigkill =>
      obtain ⟨-, hready, hactor, rfl⟩ := hsound.deliverKill_eq hstep
      simp [Lost, Timely, hready, hactor]

/-- The statements that a process has left to run. -/
def ActorPlace.left : ActorPlace → Nat
  | .unborn => 11
  | .ready => 10
  | .sigaction => 9
  | .pause => 8
  | .paused => 7
  | .ifReady => 6
  | .received => 5
  | .monologue => 4
  | .finished => 3
  | .kill => 2
  | .exit => 1
  | .exited | .killed => 0

def DirectorPlace.left : DirectorPlace → Nat
  | .fork => 13
  | .begin => 12
  | .sigaction => 11
  | .announce => 10
  | .kill => 9
  | .pause => 8
  | .paused => 7
  | .ifReady => 6
  | .received => 5
  | .ending => 4
  | .sigkill => 3
  | .waitpid => 2
  | .exit => 1
  | .returned | .forkFailed | .killed => 0

/-- A statement sends at most one signal. -/
def State.left (state : State) : Nat :=
  2 * state.director.left + 2 * state.actor.left + state.sigusr1.toNat +
    state.sigusr2.toNat + state.sigkill.toNat

theorem left_runActor (hstep : state.runActor mode = some next) :
    next.left < state.left := by
  unfold State.runActor at hstep
  cases hactor : state.actor with
  | unborn | paused | exited | killed => simp [hactor] at hstep
  | ready | received | monologue | finished =>
      simp only [hactor, Option.some.injEq] at hstep
      subst next
      obtain ⟨buffer, screen, heq⟩ := actorSays_eq mode state _ _
      rw [heq]
      simp [State.left, hactor, ActorPlace.left]
  | sigaction | pause | exit =>
      simp only [hactor, Option.some.injEq] at hstep
      subst next
      simp [State.left, hactor, ActorPlace.left]
  | ifReady =>
      simp only [hactor, Option.some.injEq] at hstep
      subst next
      cases hready : state.actorReady <;>
        simp [State.left, hactor, ActorPlace.left]
  | kill =>
      simp only [hactor, Option.some.injEq] at hstep
      subst next
      have hpending := Bool.toNat_le (state.sigusr2 || state.director.alive)
      simp only [State.left, hactor, ActorPlace.left]
      omega

theorem left_runDirector (hstep : state.runDirector mode = some next) :
    next.left < state.left := by
  unfold State.runDirector at hstep
  cases hdirector : state.director with
  | fork | paused | returned | forkFailed | killed =>
      simp [hdirector] at hstep
  | begin | announce | received | ending =>
      simp only [hdirector, Option.some.injEq] at hstep
      subst next
      obtain ⟨buffer, screen, heq⟩ := directorSays_eq mode state _ _
      rw [heq]
      simp [State.left, hdirector, DirectorPlace.left]
  | sigaction | pause | exit =>
      simp only [hdirector, Option.some.injEq] at hstep
      subst next
      simp [State.left, hdirector, DirectorPlace.left]
  | ifReady =>
      simp only [hdirector, Option.some.injEq] at hstep
      subst next
      cases hready : state.directorReady <;>
        simp [State.left, hdirector, DirectorPlace.left]
  | waitpid =>
      simp only [hdirector, Option.ite_none_left_eq_some,
        Option.some.injEq] at hstep
      obtain ⟨-, rfl⟩ := hstep
      simp [State.left, hdirector, DirectorPlace.left]
  | kill =>
      simp only [hdirector, Option.some.injEq] at hstep
      subst next
      have hpending := Bool.toNat_le (state.sigusr1 || state.actor.alive)
      simp only [State.left, hdirector, DirectorPlace.left]
      omega
  | sigkill =>
      simp only [hdirector, Option.some.injEq] at hstep
      subst next
      have hpending := Bool.toNat_le (state.sigkill || state.actor.alive)
      simp only [State.left, hdirector, DirectorPlace.left]
      omega

theorem left_lt (hsound : Sound state) {action : Action}
    (hstep : state.step mode action = some next) : next.left < state.left := by
  cases action with
  | director => exact left_runDirector hstep
  | actor => exact left_runActor hstep
  | fork succeeds =>
      simp only [State.step, State.fork, Option.ite_none_right_eq_some] at hstep
      obtain ⟨hdirector, hstep⟩ := hstep
      have hunborn : state.actor = .unborn :=
        hsound.born.mpr (by simp [hdirector])
      cases succeeds <;> simp at hstep <;> subst next <;>
        simp [State.left, hdirector, hunborn, DirectorPlace.left,
          ActorPlace.left]
  | sigusr1 =>
      obtain ⟨hpending, -, hcases⟩ := hsound.deliverUsr1_cases hstep
      rcases hcases with ⟨hactor | hactor, rfl⟩ | ⟨hactor, rfl⟩ |
        ⟨hactor, rfl⟩
      all_goals
        simp only [State.left, hactor, hpending, ActorPlace.left,
          Bool.toNat_true, Bool.toNat_false]
        omega
  | sigusr2 =>
      obtain ⟨hpending, -, -, rfl⟩ := hsound.deliverUsr2_eq hstep
      by_cases hpaused : state.director = .paused
      · simp only [State.left, hpaused, hpending, DirectorPlace.left, if_true,
          Bool.toNat_true, Bool.toNat_false]
        omega
      · simp only [State.left, hpaused, hpending, if_false, Bool.toNat_true,
          Bool.toNat_false]
        omega
  | sigkill =>
      obtain ⟨hpending, -, hactor, rfl⟩ := hsound.deliverKill_eq hstep
      simp only [State.left, hpending, hactor, ActorPlace.left,
        Bool.toNat_true, Bool.toNat_false]
      omega

theorem runActor_eq_none_iff : state.runActor mode = none ↔
    state.actor.alive = false ∨ state.actor = .paused := by
  unfold State.runActor
  cases hactor : state.actor <;> simp

theorem runDirector_eq_none_iff : state.runDirector mode = none ↔
    state.director.alive = false ∨ state.director = .fork ∨
      state.director = .paused ∨
      (state.director = .waitpid ∧ state.actor.alive = true) := by
  unfold State.runDirector
  cases hdirector : state.director <;> simp

theorem deliverUsr1_eq_none_iff : state.deliverUsr1 = none ↔
    (state.sigusr1 && state.actor.alive) = false := by
  unfold State.deliverUsr1
  split
  · split <;> simp_all
  · simp_all

theorem deliverUsr2_eq_none_iff : state.deliverUsr2 = none ↔
    (state.sigusr2 && state.director.alive) = false := by
  unfold State.deliverUsr2
  split
  · split <;> simp_all
  · simp_all

/-- A director that sleeps for good has lost a wake-up. -/
theorem lost_of_paused (hsound : Sound state)
    (hstuck : (play mode).Stuck state) (hpaused : state.director = .paused) :
    Lost state := by
  have husr1 := deliverUsr1_eq_none_iff.mp (hstuck .sigusr1)
  have husr2 := deliverUsr2_eq_none_iff.mp (hstuck .sigusr2)
  by_contra hkept
  have hdirectorReady : state.directorReady = false := by
    rw [← Bool.not_eq_true]
    exact fun hready => hkept (.inr (.inr (.inr ⟨hready, .inr hpaused⟩)))
  rcases runActor_eq_none_iff.mp (hstuck .actor) with hdead | hactor
  · have hborn : state.actor ≠ .unborn := by simp [hsound.born, hpaused]
    have hkilled : state.actor ≠ .killed := fun heq =>
      hkept (.inr (.inl ⟨heq, hdirectorReady⟩))
    have hexited : state.actor = .exited := by simp_all
    have hpending := hsound.either (by simp [hexited])
    simp [hpending, hdirectorReady, hpaused] at husr2
  · rcases hsound.kept (by simp [hpaused]) with hpending | hready | hkilled
    · simp [hpending, hactor] at husr1
    · exact hkept (.inr (.inr (.inl ⟨hready, .inr hactor⟩)))
    · simp [hactor] at hkilled

theorem director_of_stuck (hsound : Sound state)
    (hstuck : (play mode).Stuck state) :
    state.director = .returned ∨ state.director = .forkFailed ∨
      state.director = .paused := by
  rcases runDirector_eq_none_iff.mp (hstuck .director) with
    hdead | heq | hpaused | ⟨hwaiting, halive⟩
  · have hlives := hsound.directorAlive
    simp_all
    grind
  · have hfork := hstuck (.fork true)
    simp [play, State.step, State.fork, heq] at hfork
  · exact .inr (.inr hpaused)
  · have hready := hsound.resumed (by simp [hwaiting])
    have hanswered := hsound.directorReady hready
    have hactor := runActor_eq_none_iff.mp (hstuck .actor)
    simp_all

/-- A stuck play is over, or a wake-up was lost. -/
theorem returned_iff_of_stuck (hsound : Sound state)
    (hstuck : (play mode).Stuck state) :
    state.director = .returned ↔ ¬ Lost state := by
  constructor
  · intro hreturned
    have hresumed := hsound.resumed
    have hwaited := hsound.waited (.inr hreturned)
    rintro (heq | ⟨-, hready⟩ | ⟨-, heq | heq⟩ | ⟨-, heq | heq⟩) <;> simp_all
  · intro hkept
    rcases director_of_stuck hsound hstuck with hreturned | hfailed | hpaused
    · exact hreturned
    · exact absurd (.inl hfailed) hkept
    · exact absurd (lost_of_paused hsound hstuck hpaused) hkept

/-- However the processes and the deliveries are interleaved, the play stops
within 48 steps.  It stops with the director's return exactly if both signals
were delivered to a suspended process, and else with the director asleep. -/
theorem returned_iff_timely (mode : Buffering) {schedule : List Action}
    {last : State} (hrun : (play mode).run schedule = some last) :
    schedule.length ≤ 48 ∧
      ((play mode).Stuck last →
        (last.director = .returned ↔ (play mode).Meets Timely schedule) ∧
        (last.director = .returned ∨ last.director = .forkFailed ∨
          last.director = .paused)) := by
  have hsound := (sound_invariant mode).run hrun
  constructor
  · have hlength := length_add_measure_le (sound_invariant mode) State.left
      (fun hsound hstep => left_lt hsound hstep) hrun
    have hstart : (play mode).start.left = 48 := rfl
    omega
  · intro hstuck
    refine ⟨?_, director_of_stuck hsound hstuck⟩
    rw [returned_iff_of_stuck hsound hstuck]
    apply last_iff_meets (sound_invariant mode) _ _ hrun
    · simp [Lost, play, State.start]
    · exact fun hstate hstep => lost_step hstate hstep

/-- An evening without a mishap; the actor is suspended before its cue, and the
director before the answer. -/
def evening : List Action :=
  [.fork true, .actor, .actor, .actor, .director, .director, .director,
    .director, .director, .sigusr1, .actor, .actor, .actor, .actor, .actor,
    .actor, .sigusr2, .director, .director, .director, .director, .director,
    .director]

theorem returned_iff_timely_evening :
    ∃ last, (play .line).run evening = some last ∧
      last.director = .returned ∧ (play .line).Meets Timely evening := by
  have hrun : ∃ last, (play .line).run evening = some last ∧
      last.director = .returned ∧ (play .line).Stuck last := by
    refine ⟨_, rfl, rfl, ?_⟩
    rintro (_ | _ | _ | _ | _ | _) <;> rfl
  obtain ⟨last, hlast, hreturned, hstuck⟩ := hrun
  have hends := (returned_iff_timely .line hlast).2 hstuck
  exact ⟨last, hlast, hreturned, hends.1.mp hreturned⟩

section Transcript

/-- The play as it is told, but for the actor's first line. -/
def script : List Line :=
  [.aboutToBegin, .willSendUsr1, .receivedUsr1, .toBeOrNotToBe, .sendingUsr2,
    .receivedUsr2, .ending]

/-- The lines from the actor's first one on, but for the director's first
two. -/
def cast : List Line :=
  [.ready, .receivedUsr1, .toBeOrNotToBe, .sendingUsr2, .receivedUsr2, .ending]

def actorLines : List Line :=
  [.ready, .receivedUsr1, .toBeOrNotToBe, .sendingUsr2]

def directorLines : List Line :=
  [.aboutToBegin, .willSendUsr1, .receivedUsr2, .ending]

/-- The lines that the director has said. -/
def DirectorPlace.said : DirectorPlace → Nat
  | .fork | .begin | .forkFailed | .killed => 0
  | .sigaction | .announce => 1
  | .kill | .pause | .paused | .ifReady | .received => 2
  | .ending => 3
  | .sigkill | .waitpid | .exit | .returned => 4

/-- The lines that the actor has said; SIGKILL finds it after the last one. -/
def ActorPlace.said (ready : Bool) : ActorPlace → Nat
  | .unborn | .ready => 0
  | .sigaction | .pause | .paused | .ifReady | .received => 1
  | .monologue => 2
  | .finished => 3
  | .kill | .exit | .exited => 4
  | .killed => if ready then 4 else 1

def Line.inScript (line : Line) : Bool := line ≠ .ready

def Line.inCast (line : Line) : Bool :=
  line ∉ [.aboutToBegin, .willSendUsr1]

/-- What a terminal shows in each place. -/
structure Told (state : State) : Prop where
  scripted : state.screen.filter Line.inScript =
    script.take (state.director.said +
      (state.actor.said state.directorReady - 1))
  played : (state.screen.filter Line.inCast = cast.take
      (state.actor.said state.directorReady + (state.director.said - 2))) ∨
    (state.actor = .killed ∧ state.directorReady = false ∧
      state.screen.filter Line.inCast = [])
  actorBuffer : state.actorBuffer = []
  directorBuffer : state.directorBuffer = []

/-- Until the actor is cued the director has said two lines at most. -/
theorem Sound.said_le_two (hsound : Sound state)
    (hactor : state.actor.answered = false) (hkilled : state.actor ≠ .killed) :
    state.director.said ≤ 2 := by
  have hready := hsound.directorReady
  have hresumed := hsound.resumed
  cases hdirector : state.director <;> simp_all [DirectorPlace.said]

/-- A cued actor plays after the director's second line. -/
theorem Sound.said_eq_two (hsound : Sound state)
    (hcued : state.actor.cued = true)
    (hactor : state.actor.answered = false) : state.director.said = 2 := by
  have hkilled : state.actor ≠ .killed := fun heq => by simp [heq] at hcued
  have hle := hsound.said_le_two hactor hkilled
  have hsent := hsound.sent (.inr (.inl (hsound.cued hcued)))
  cases hdirector : state.director <;> simp_all [DirectorPlace.said]

/-- Before SIGUSR1 is sent the actor has said its first line at most. -/
theorem Sound.actor_said (hsound : Sound state)
    (hsent : state.director.sent = false) :
    state.actor.said state.directorReady ≤ 1 := by
  have hcued := hsound.cued
  have hnotSent : ¬ (state.sigusr1 = true ∨ state.actorReady = true ∨
      state.actor = .killed) := fun hcue => by
    rw [hsound.sent hcue] at hsent
    contradiction
  cases hactor : state.actor <;> simp_all [ActorPlace.said]

/-- The director comes back from `pause` after the actor's last line. -/
theorem Sound.actor_said_eq (hsound : Sound state)
    (hresumed : state.director.resumed = true) :
    state.actor.said state.directorReady = 4 := by
  have hready := hsound.resumed hresumed
  have hanswered := hsound.directorReady hready
  cases hactor : state.actor <;> simp_all [ActorPlace.said]

theorem told_runActor (hsound : Sound state) (htold : Told state)
    (hstep : state.runActor .line = some next) : Told next := by
  obtain ⟨hlines, hcast, hactorBuffer, hdirectorBuffer⟩ := htold
  unfold State.runActor at hstep
  cases hactor : state.actor with
  | unborn | paused | exited | killed => simp [hactor] at hstep
  | ready =>
      simp only [hactor, Option.some.injEq, State.actorSays] at hstep
      subst next
      have hsaid := hsound.said_le_two (by simp [hactor]) (by simp [hactor])
      have hnone : state.director.said - 2 = 0 := by omega
      constructor <;> simp_all [ActorPlace.said, Line.inScript, Line.inCast]
      simpa [cast, Line.inCast] using hcast
  | received | monologue | finished =>
      simp only [hactor, Option.some.injEq, State.actorSays] at hstep
      subst next
      have hsaid := hsound.said_eq_two (by simp [hactor]) (by simp [hactor])
      constructor <;> simp_all [ActorPlace.said, Line.inScript, Line.inCast]
      all_goals simp [script, cast]
  | sigaction | pause | kill | exit =>
      simp only [hactor, Option.some.injEq] at hstep
      subst next
      constructor <;> simp_all [ActorPlace.said]
  | ifReady =>
      have hready : state.actorReady = true := hsound.cued (by simp [hactor])
      simp only [hactor, hready, if_true, Option.some.injEq] at hstep
      subst next
      constructor <;> simp_all [ActorPlace.said]

theorem told_runDirector (hsound : Sound state) (htold : Told state)
    (hstep : state.runDirector .line = some next) : Told next := by
  obtain ⟨hlines, hcast, hactorBuffer, hdirectorBuffer⟩ := htold
  unfold State.runDirector at hstep
  cases hdirector : state.director with
  | fork | paused | returned | forkFailed | killed =>
      simp [hdirector] at hstep
  | begin =>
      simp only [hdirector, Option.some.injEq, State.directorSays] at hstep
      subst next
      have hsaid := hsound.actor_said (by simp [hdirector])
      have hnone : state.actor.said state.directorReady - 1 = 0 := by omega
      constructor <;>
        simp_all [DirectorPlace.said, Line.inScript, Line.inCast]
      simpa [script, Line.inScript] using hlines
  | announce =>
      simp only [hdirector, Option.some.injEq, State.directorSays] at hstep
      subst next
      have hsaid := hsound.actor_said (by simp [hdirector])
      have hnone : state.actor.said state.directorReady - 1 = 0 := by omega
      constructor <;>
        simp_all [DirectorPlace.said, Line.inScript, Line.inCast]
      simp [script]
  | received | ending =>
      simp only [hdirector, Option.some.injEq, State.directorSays] at hstep
      subst next
      have hsaid := hsound.actor_said_eq (by simp [hdirector])
      have hready := hsound.resumed (by simp [hdirector])
      constructor <;>
        simp_all [DirectorPlace.said, Line.inScript, Line.inCast]
      all_goals simp [script, cast]
  | ifReady =>
      have hready := hsound.resumed (by simp [hdirector])
      simp only [hdirector, hready, if_true, Option.some.injEq] at hstep
      subst next
      constructor <;> simp_all [DirectorPlace.said]
  | waitpid =>
      simp only [hdirector, Option.ite_none_left_eq_some,
        Option.some.injEq] at hstep
      obtain ⟨-, rfl⟩ := hstep
      constructor <;> simp_all [DirectorPlace.said]
  | sigaction | kill | pause | sigkill | exit =>
      simp only [hdirector, Option.some.injEq] at hstep
      subst next
      constructor <;> simp_all [DirectorPlace.said]

theorem told_invariant :
    Invariant (play .line) fun state => Sound state ∧ Told state where
  start := by
    refine ⟨(sound_invariant .line).start, ?_⟩
    constructor <;> simp [play, State.start, DirectorPlace.said, ActorPlace.said]
  step := by
    rintro state next action ⟨hsound, htold⟩ hstep
    refine ⟨(sound_invariant .line).step hsound hstep, ?_⟩
    cases action with
    | actor => exact told_runActor hsound htold hstep
    | director => exact told_runDirector hsound htold hstep
    | fork succeeds =>
        obtain ⟨hlines, hcast, hactorBuffer, hdirectorBuffer⟩ := htold
        simp only [play, State.step, State.fork,
          Option.ite_none_right_eq_some] at hstep
        obtain ⟨hdirector, hstep⟩ := hstep
        have hunborn : state.actor = .unborn :=
          hsound.born.mpr (by simp [hdirector])
        cases succeeds <;> simp at hstep <;> subst next <;>
          constructor <;> simp_all [DirectorPlace.said, ActorPlace.said]
    | sigusr1 =>
        obtain ⟨hlines, hcast, hactorBuffer, hdirectorBuffer⟩ := htold
        obtain ⟨hpending, hready, hcases⟩ := hsound.deliverUsr1_cases hstep
        have hdirectorReady := hsound.directorReady
        have hsaid := hsound.said_le_two
        rcases hcases with ⟨hactor | hactor, rfl⟩ | ⟨hactor, rfl⟩ |
          ⟨hactor, rfl⟩
        all_goals
          constructor <;> simp_all [ActorPlace.said]
    | sigusr2 =>
        obtain ⟨hlines, hcast, hactorBuffer, hdirectorBuffer⟩ := htold
        obtain ⟨-, hanswered, hsent, rfl⟩ := hsound.deliverUsr2_eq hstep
        by_cases hpaused : state.director = .paused <;>
          cases hactor : state.actor <;>
          constructor <;> simp_all [DirectorPlace.said, ActorPlace.said]
    | sigkill =>
        obtain ⟨hlines, hcast, hactorBuffer, hdirectorBuffer⟩ := htold
        obtain ⟨-, hready, hactor, rfl⟩ := hsound.deliverKill_eq hstep
        constructor <;> simp_all [ActorPlace.said]

/-- On a terminal the lines come in the order of the play, they are all there when
the director returns, and SIGUSR2 never ends the director. -/
theorem told_in_order {state : State} (hreach : (play .line).Reachable state) :
    state.screen.filter Line.inScript <+: script ∧
      state.screen.filter Line.inCast <+: cast ∧
      (state.director = .returned →
        state.screen.filter Line.inScript = script ∧
          state.screen.filter Line.inCast = cast) ∧
      state.director ≠ .killed := by
  obtain ⟨hsound, htold⟩ := told_invariant.reachable hreach
  refine ⟨?_, ?_, ?_, hsound.directorAlive⟩
  · rw [htold.scripted]
    exact List.take_prefix _ _
  · rcases htold.played with hplayed | ⟨-, -, hnone⟩
    · rw [hplayed]
      exact List.take_prefix _ _
    · rw [hnone]
      exact List.nil_prefix
  · intro hreturned
    have hsaid := hsound.actor_said_eq (by simp [hreturned])
    have hready := hsound.resumed (by simp [hreturned])
    have hlines := htold.scripted
    have hcast := htold.played
    simp_all [DirectorPlace.said]
    decide

theorem told_in_order_evening :
    ∃ state, (play .line).run evening = some state ∧
      state.screen.filter Line.inScript = script ∧
      state.screen.filter Line.inCast = cast := by
  have hrun : ∃ last, (play .line).run evening = some last ∧
      last.director = .returned := ⟨_, rfl, rfl⟩
  obtain ⟨last, hlast, hreturned⟩ := hrun
  exact ⟨last, hlast,
    (told_in_order ⟨evening, hlast⟩).2.2.1 hreturned⟩

/-- What a file gets: nothing until a process exits. -/
structure Held (state : State) : Prop where
  screen : state.screen =
    (if state.actor = .exited then actorLines else []) ++
      (if state.director = .returned then directorLines else [])
  actorBuffer : state.actor ≠ .exited → state.actor ≠ .killed →
    state.actorBuffer =
      actorLines.take (state.actor.said state.directorReady)
  directorBuffer : state.director ≠ .returned →
    state.directorBuffer = directorLines.take state.director.said

theorem held_runActor (hsound : Sound state) (hheld : Held state)
    (hstep : state.runActor .full = some next) : Held next := by
  obtain ⟨hscreen, hactorBuffer, hdirectorBuffer⟩ := hheld
  have hwaited := hsound.waited
  unfold State.runActor at hstep
  cases hactor : state.actor with
  | unborn | paused | exited | killed => simp [hactor] at hstep
  | ready | received | monologue | finished =>
      simp only [hactor, Option.some.injEq, State.actorSays] at hstep
      subst next
      constructor <;> simp_all [ActorPlace.said]
      simp [actorLines]
  | exit =>
      simp only [hactor, Option.some.injEq] at hstep
      subst next
      constructor <;> simp_all [ActorPlace.said]
      simp [actorLines]
  | sigaction | pause | kill =>
      simp only [hactor, Option.some.injEq] at hstep
      subst next
      constructor <;> simp_all [ActorPlace.said]
  | ifReady =>
      have hready : state.actorReady = true := hsound.cued (by simp [hactor])
      simp only [hactor, hready, if_true, Option.some.injEq] at hstep
      subst next
      constructor <;> simp_all [ActorPlace.said]

theorem held_runDirector (hsound : Sound state) (hheld : Held state)
    (hstep : state.runDirector .full = some next) : Held next := by
  obtain ⟨hscreen, hactorBuffer, hdirectorBuffer⟩ := hheld
  unfold State.runDirector at hstep
  cases hdirector : state.director with
  | fork | paused | returned | forkFailed | killed =>
      simp [hdirector] at hstep
  | begin | announce | received | ending =>
      simp only [hdirector, Option.some.injEq, State.directorSays] at hstep
      subst next
      constructor <;> simp_all [DirectorPlace.said]
      simp [directorLines]
  | exit =>
      simp only [hdirector, Option.some.injEq] at hstep
      subst next
      constructor <;> simp_all [DirectorPlace.said]
      simp [directorLines]
  | ifReady =>
      have hready := hsound.resumed (by simp [hdirector])
      simp only [hdirector, hready, if_true, Option.some.injEq] at hstep
      subst next
      constructor <;> simp_all [DirectorPlace.said]
  | waitpid =>
      simp only [hdirector, Option.ite_none_left_eq_some,
        Option.some.injEq] at hstep
      obtain ⟨-, rfl⟩ := hstep
      constructor <;> simp_all [DirectorPlace.said]
  | sigaction | kill | pause | sigkill =>
      simp only [hdirector, Option.some.injEq] at hstep
      subst next
      constructor <;> simp_all [DirectorPlace.said]

theorem held_invariant :
    Invariant (play .full) fun state => Sound state ∧ Held state where
  start := by
    refine ⟨(sound_invariant .full).start, ?_⟩
    constructor <;>
      simp [play, State.start, DirectorPlace.said, ActorPlace.said]
  step := by
    rintro state next action ⟨hsound, hheld⟩ hstep
    refine ⟨(sound_invariant .full).step hsound hstep, ?_⟩
    cases action with
    | actor => exact held_runActor hsound hheld hstep
    | director => exact held_runDirector hsound hheld hstep
    | fork succeeds =>
        obtain ⟨hscreen, hactorBuffer, hdirectorBuffer⟩ := hheld
        simp only [play, State.step, State.fork,
          Option.ite_none_right_eq_some] at hstep
        obtain ⟨hdirector, hstep⟩ := hstep
        have hunborn : state.actor = .unborn :=
          hsound.born.mpr (by simp [hdirector])
        cases succeeds <;> simp at hstep <;> subst next <;>
          constructor <;> simp_all [DirectorPlace.said, ActorPlace.said]
    | sigusr1 =>
        obtain ⟨hscreen, hactorBuffer, hdirectorBuffer⟩ := hheld
        obtain ⟨-, -, hcases⟩ := hsound.deliverUsr1_cases hstep
        rcases hcases with ⟨hactor | hactor, rfl⟩ | ⟨hactor, rfl⟩ |
          ⟨hactor, rfl⟩
        all_goals
          constructor <;> simp_all [ActorPlace.said]
    | sigusr2 =>
        obtain ⟨hscreen, hactorBuffer, hdirectorBuffer⟩ := hheld
        obtain ⟨-, hanswered, hsent, rfl⟩ := hsound.deliverUsr2_eq hstep
        by_cases hpaused : state.director = .paused <;>
          cases hactor : state.actor <;>
          constructor <;> simp_all [DirectorPlace.said, ActorPlace.said]
    | sigkill =>
        obtain ⟨hscreen, hactorBuffer, hdirectorBuffer⟩ := hheld
        obtain ⟨-, -, hactor, rfl⟩ := hsound.deliverKill_eq hstep
        constructor <;> simp_all [ActorPlace.said]

/-- In a file the play is not told in order: the actor's lines come in one piece
when it exits and the director's after them, and the lines of an actor that a
signal ends are lost. -/
theorem held_until_exit {state : State}
    (hreach : (play .full).Reachable state) :
    state.screen = (if state.actor = .exited then actorLines else []) ++
      (if state.director = .returned then directorLines else []) :=
  (held_invariant.reachable hreach).2.screen

theorem held_until_exit_evening :
    ∃ state, (play .full).run evening = some state ∧
      state.screen = actorLines ++ directorLines := by
  have hrun : ∃ last, (play .full).run evening = some last ∧
      last.actor = .exited ∧ last.director = .returned := ⟨_, rfl, rfl, rfl⟩
  obtain ⟨last, hlast, hactor, hdirector⟩ := hrun
  refine ⟨last, hlast, ?_⟩
  have hscreen := held_until_exit ⟨evening, hlast⟩
  rw [hscreen, if_pos hactor, if_pos hdirector]

end Transcript

end Play

end OsCourse
