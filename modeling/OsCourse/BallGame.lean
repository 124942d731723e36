/-
The ball game of Bono/C2: a keyboard thread moves the ball, another thread moves
the X at random, a third one looks whether they have met, and `main` draws.  The
positions are shared under `pos_mtx`; `running` and `won` are not.
-/
import OsCourse.TransitionSystem
import OsCourse.LockOwnership

namespace OsCourse

namespace BallGame

open TransitionSystem LockOwnership

structure Pos where
  x : Int
  y : Int
deriving Repr, DecidableEq

/-- `max_rows` and `max_cols`. -/
structure Screen where
  rows : Int
  cols : Int
deriving Repr, DecidableEq

/-- `clamp_ball`, and the end of `random_step`. -/
def Screen.clamp (screen : Screen) (pos : Pos) : Pos :=
  let pos := if pos.x < 1 then { pos with x := 1 } else pos
  let pos := if pos.y < 1 then { pos with y := 1 } else pos
  let pos := if pos.x > screen.cols - 2 then { pos with x := screen.cols - 2 }
    else pos
  if pos.y > screen.rows - 2 then { pos with y := screen.rows - 2 } else pos

/-- `random_step`, with what the two calls of `rand` return. -/
def Screen.randomStep (screen : Screen) (pos : Pos) (first second : Nat) : Pos :=
  screen.clamp ⟨pos.x + (first % 3 : Nat) - 1, pos.y + (second % 3 : Nat) - 1⟩

/-- What `getch` returns, ERR apart; `quit` is 'q' or 'Q'. -/
inductive Key where
  | left
  | right
  | up
  | down
  | quit
  | other
deriving Repr, DecidableEq

def Key.move (key : Key) (pos : Pos) : Pos :=
  match key with
  | .left => { pos with x := pos.x - 1 }
  | .right => { pos with x := pos.x + 1 }
  | .up => { pos with y := pos.y - 1 }
  | .down => { pos with y := pos.y + 1 }
  | .quit | .other => pos

inductive Message where
  | youWin
  | bye
deriving Repr, DecidableEq

/-- The statement of `main` from the creation of the threads on. -/
inductive MainPlace where
  | createKeys
  | createX
  | createCol
  | test
  | lock
  | copyBall
  | copyX
  | unlock
  | draw
  | showResult
  | joinKeys
  | joinX
  | joinCol
  | returned
deriving Repr, DecidableEq

inductive KeyPlace where
  | unstarted
  | test
  | getch
  | lock (key : Key)
  | switch (key : Key)
  | clamp
  | unlock
  | ended
deriving Repr, DecidableEq

inductive XPlace where
  | unstarted
  | test
  | lock
  | step
  | unlock
  | ended
deriving Repr, DecidableEq

inductive ColPlace where
  | unstarted
  | test
  | lock
  | compare
  | setWon
  | stopRunning
  | unlock
  | ended
deriving Repr, DecidableEq

inductive Thread where
  | main
  | keyboard
  | xMover
  | collision
deriving Repr, DecidableEq

/-- The threads, the mutex with its owner, the shared variables, the copies that
`main` makes, the frames it has drawn and the keys that were handled. -/
structure State where
  main : MainPlace
  keyboard : KeyPlace
  xMover : XPlace
  collision : ColPlace
  owner : Option Thread
  ball : Pos
  xPos : Pos
  running : Bool
  won : Bool
  b : Pos
  x : Pos
  frames : List (Pos × Pos)
  message : Option Message
  keys : List Key
deriving Repr, DecidableEq

/-- `key` is what `getch` returns and `first` and `second` what `rand` does, if
the thread calls them. -/
inductive Action where
  | main
  | keyboard (key : Option Key)
  | xMover (first second : Nat)
  | collision
deriving Repr, DecidableEq

namespace State

variable (screen : Screen)

/-- The positions that `main` sets before it makes the threads. -/
def start : State where
  main := .createKeys
  keyboard := .unstarted
  xMover := .unstarted
  collision := .unstarted
  owner := none
  ball := ⟨screen.cols / 4, screen.rows / 2⟩
  xPos := ⟨3 * screen.cols / 4, screen.rows / 2⟩
  running := true
  won := false
  b := ⟨0, 0⟩
  x := ⟨0, 0⟩
  frames := []
  message := none
  keys := []

def runMain (state : State) : Option State :=
  match state.main with
  | .createKeys => some { state with keyboard := .test, main := .createX }
  | .createX => some { state with xMover := .test, main := .createCol }
  | .createCol => some { state with collision := .test, main := .test }
  | .test =>
      some { state with main := if state.running then .lock else .showResult }
  | .lock =>
      if state.owner = none then
        some { state with owner := some .main, main := .copyBall }
      else none
  | .copyBall => some { state with b := state.ball, main := .copyX }
  | .copyX => some { state with x := state.xPos, main := .unlock }
  | .unlock => some { state with owner := none, main := .draw }
  | .draw =>
      some { state with
        frames := state.frames ++ [(state.b, state.x)], main := .test }
  | .showResult =>
      some { state with
        message := some (if state.won then .youWin else .bye),
        main := .joinKeys }
  | .joinKeys =>
      if state.keyboard = .ended then some { state with main := .joinX }
      else none
  | .joinX =>
      if state.xMover = .ended then some { state with main := .joinCol }
      else none
  | .joinCol =>
      if state.collision = .ended then some { state with main := .returned }
      else none
  | .returned => none

/-- `keyboard_thread`. -/
def runKeyboard (state : State) (key : Option Key) : Option State :=
  match state.keyboard with
  | .unstarted | .ended => none
  | .test =>
      some { state with keyboard := if state.running then .getch else .ended }
  | .getch =>
      some { state with
        keyboard := match key with
          | none => .test
          | some key => .lock key }
  | .lock key =>
      if state.owner = none then
        some { state with owner := some .keyboard, keyboard := .switch key }
      else none
  | .switch key =>
      some { state with
        ball := key.move state.ball,
        running := state.running && key != .quit,
        keys := state.keys ++ [key], keyboard := .clamp }
  | .clamp =>
      some { state with ball := screen.clamp state.ball, keyboard := .unlock }
  | .unlock => some { state with owner := none, keyboard := .test }

/-- `x_mover_thread`. -/
def runXMover (state : State) (first second : Nat) : Option State :=
  match state.xMover with
  | .unstarted | .ended => none
  | .test =>
      some { state with xMover := if state.running then .lock else .ended }
  | .lock =>
      if state.owner = none then
        some { state with owner := some .xMover, xMover := .step }
      else none
  | .step =>
      some { state with
        xPos := screen.randomStep state.xPos first second, xMover := .unlock }
  | .unlock => some { state with owner := none, xMover := .test }

/-- `collision_thread`. -/
def runCollision (state : State) : Option State :=
  match state.collision with
  | .unstarted | .ended => none
  | .test =>
      some { state with collision := if state.running then .lock else .ended }
  | .lock =>
      if state.owner = none then
        some { state with owner := some .collision, collision := .compare }
      else none
  | .compare =>
      some { state with
        collision := if state.ball = state.xPos then .setWon else .unlock }
  | .setWon => some { state with won := true, collision := .stopRunning }
  | .stopRunning =>
      some { state with running := false, collision := .unlock }
  | .unlock => some { state with owner := none, collision := .test }

def step (state : State) : Action → Option State
  | .main => state.runMain
  | .keyboard key => state.runKeyboard screen key
  | .xMover first second => state.runXMover screen first second
  | .collision => state.runCollision

end State

def game (screen : Screen) : System State Action where
  start := State.start screen
  step := State.step screen

/-- Inside the border of the screen, and below the line of text. -/
def Screen.Inside (screen : Screen) (pos : Pos) : Prop :=
  1 ≤ pos.x ∧ pos.x ≤ screen.cols - 2 ∧ 1 ≤ pos.y ∧ pos.y ≤ screen.rows - 2

theorem clamp_x (screen : Screen) (pos : Pos) :
    (screen.clamp pos).x = min (max pos.x 1) (screen.cols - 2) := by
  by_cases hleft : pos.x < 1 <;> by_cases htop : pos.y < 1 <;>
    simp only [Screen.clamp, hleft, htop, if_true, if_false] <;>
    split <;> split <;> (try dsimp only at *) <;> omega

theorem clamp_y (screen : Screen) (pos : Pos) :
    (screen.clamp pos).y = min (max pos.y 1) (screen.rows - 2) := by
  by_cases hleft : pos.x < 1 <;> by_cases htop : pos.y < 1 <;>
    simp only [Screen.clamp, hleft, htop, if_true, if_false] <;>
    split <;> split <;> (try dsimp only at *) <;> omega

theorem inside_clamp {screen : Screen} (hcols : 3 ≤ screen.cols)
    (hrows : 3 ≤ screen.rows) (pos : Pos) :
    screen.Inside (screen.clamp pos) := by
  unfold Screen.Inside
  rw [clamp_x, clamp_y]
  omega

section Mutex

variable {screen : Screen} {state next : State}

/-- The threads that are between lock and unlock. -/
def Holds (state : State) : Thread → Prop
  | .main => state.main ∈ [.copyBall, .copyX, .unlock]
  | .keyboard => state.keyboard = .clamp ∨ state.keyboard = .unlock ∨
      ∃ key, state.keyboard = .switch key
  | .xMover => state.xMover ∈ [.step, .unlock]
  | .collision => state.collision ∈ [.compare, .setWon, .stopRunning, .unlock]

theorem owned_runMain (howned : OwnedBy state.owner (Holds state))
    (hkeys : state.main = .createKeys → state.keyboard = .unstarted)
    (hx : state.main = .createX → state.xMover = .unstarted)
    (hcol : state.main = .createCol → state.collision = .unstarted)
    (hstep : state.runMain = some next) : OwnedBy next.owner (Holds next) := by
  unfold State.runMain at hstep
  cases hplace : state.main with
  | returned => simp [hplace] at hstep
  | lock =>
      simp only [hplace, Option.ite_none_right_eq_some,
        Option.some.injEq] at hstep
      obtain ⟨hfree, rfl⟩ := hstep
      rw [hfree] at howned
      apply howned.acquire
      · simp [Holds]
      · rintro (_ | _ | _ | _) hne <;> simp_all [Holds]
  | unlock =>
      simp only [hplace, Option.some.injEq] at hstep
      subst next
      have hholds : Holds state .main := by simp [Holds, hplace]
      apply howned.release hholds
      · simp [Holds]
      · rintro (_ | _ | _ | _) hne <;> simp_all [Holds]
  | joinKeys | joinX | joinCol =>
      simp only [hplace, Option.ite_none_right_eq_some,
        Option.some.injEq] at hstep
      obtain ⟨-, rfl⟩ := hstep
      apply howned.keep
      rintro (_ | _ | _ | _) <;> simp [Holds, hplace]
  | test =>
      simp only [hplace, Option.some.injEq] at hstep
      subst next
      apply howned.keep
      rintro (_ | _ | _ | _) <;> simp [Holds, hplace]
      split <;> simp
  | createKeys | createX | createCol | copyBall | copyX | draw | showResult =>
      simp only [hplace, Option.some.injEq] at hstep
      subst next
      apply howned.keep
      rintro (_ | _ | _ | _) <;> simp_all [Holds]

theorem owned_runKeyboard (howned : OwnedBy state.owner (Holds state))
    {key : Option Key} (hstep : state.runKeyboard screen key = some next) :
    OwnedBy next.owner (Holds next) := by
  unfold State.runKeyboard at hstep
  cases hplace : state.keyboard with
  | unstarted | ended => simp [hplace] at hstep
  | lock key =>
      simp only [hplace, Option.ite_none_right_eq_some,
        Option.some.injEq] at hstep
      obtain ⟨hfree, rfl⟩ := hstep
      rw [hfree] at howned
      apply howned.acquire
      · simp [Holds]
      · rintro (_ | _ | _ | _) hne <;> simp_all [Holds]
  | unlock =>
      simp only [hplace, Option.some.injEq] at hstep
      subst next
      have hholds : Holds state .keyboard := by simp [Holds, hplace]
      apply howned.release hholds
      · simp [Holds]
      · rintro (_ | _ | _ | _) hne <;> simp_all [Holds]
  | test =>
      simp only [hplace, Option.some.injEq] at hstep
      subst next
      apply howned.keep
      rintro (_ | _ | _ | _) <;> simp [Holds, hplace]
      split <;> simp
  | getch =>
      simp only [hplace, Option.some.injEq] at hstep
      subst next
      apply howned.keep
      rintro (_ | _ | _ | _) <;> simp [Holds, hplace]
      split <;> simp
  | switch key | clamp =>
      simp only [hplace, Option.some.injEq] at hstep
      subst next
      apply howned.keep
      rintro (_ | _ | _ | _) <;> simp [Holds, hplace]

theorem owned_runXMover (howned : OwnedBy state.owner (Holds state))
    {first second : Nat}
    (hstep : state.runXMover screen first second = some next) :
    OwnedBy next.owner (Holds next) := by
  unfold State.runXMover at hstep
  cases hplace : state.xMover with
  | unstarted | ended => simp [hplace] at hstep
  | lock =>
      simp only [hplace, Option.ite_none_right_eq_some,
        Option.some.injEq] at hstep
      obtain ⟨hfree, rfl⟩ := hstep
      rw [hfree] at howned
      apply howned.acquire
      · simp [Holds]
      · rintro (_ | _ | _ | _) hne <;> simp_all [Holds]
  | unlock =>
      simp only [hplace, Option.some.injEq] at hstep
      subst next
      have hholds : Holds state .xMover := by simp [Holds, hplace]
      apply howned.release hholds
      · simp [Holds]
      · rintro (_ | _ | _ | _) hne <;> simp_all [Holds]
  | test =>
      simp only [hplace, Option.some.injEq] at hstep
      subst next
      apply howned.keep
      rintro (_ | _ | _ | _) <;> simp [Holds, hplace]
      split <;> simp
  | step =>
      simp only [hplace, Option.some.injEq] at hstep
      subst next
      apply howned.keep
      rintro (_ | _ | _ | _) <;> simp [Holds, hplace]

theorem owned_runCollision (howned : OwnedBy state.owner (Holds state))
    (hstep : state.runCollision = some next) :
    OwnedBy next.owner (Holds next) := by
  unfold State.runCollision at hstep
  cases hplace : state.collision with
  | unstarted | ended => simp [hplace] at hstep
  | lock =>
      simp only [hplace, Option.ite_none_right_eq_some,
        Option.some.injEq] at hstep
      obtain ⟨hfree, rfl⟩ := hstep
      rw [hfree] at howned
      apply howned.acquire
      · simp [Holds]
      · rintro (_ | _ | _ | _) hne <;> simp_all [Holds]
  | unlock =>
      simp only [hplace, Option.some.injEq] at hstep
      subst next
      have hholds : Holds state .collision := by simp [Holds, hplace]
      apply howned.release hholds
      · simp [Holds]
      · rintro (_ | _ | _ | _) hne <;> simp_all [Holds]
  | test =>
      simp only [hplace, Option.some.injEq] at hstep
      subst next
      apply howned.keep
      rintro (_ | _ | _ | _) <;> simp [Holds, hplace]
      split <;> simp
  | compare =>
      simp only [hplace, Option.some.injEq] at hstep
      subst next
      apply howned.keep
      by_cases hequal : state.ball = state.xPos <;>
        rintro (_ | _ | _ | _) <;> simp [Holds, hplace, hequal]
  | setWon | stopRunning =>
      simp only [hplace, Option.some.injEq] at hstep
      subst next
      apply howned.keep
      rintro (_ | _ | _ | _) <;> simp [Holds, hplace]

end Mutex

/-- A thread is not started before `main` has made it. -/
structure Started (state : State) : Prop where
  keys : state.main = .createKeys ↔ state.keyboard = .unstarted
  x : state.main ∈ [.createKeys, .createX] ↔ state.xMover = .unstarted
  col : state.main ∈ [.createKeys, .createX, .createCol] ↔
    state.collision = .unstarted

/-- The ball and the X were there at one moment of the run, in the part of the
screen that clamping leads to. -/
def Framed (inside : Pos → Prop) (past : List State) (frame : Pos × Pos) :
    Prop :=
  (∃ state ∈ past, frame = (state.ball, state.xPos)) ∧
    inside frame.1 ∧ inside frame.2

/-- The ball is not clamped only while the keyboard thread has the mutex, and what
`main` copies it copies from one state. -/
structure Placed (inside : Pos → Prop) (past : List State) (state : State) :
    Prop where
  ball : state.keyboard ≠ .clamp → inside state.ball
  x : inside state.xPos
  copiedBall : state.main = .copyX ∨ state.main = .unlock →
    state.b = state.ball
  copiedX : state.main = .unlock → state.x = state.xPos
  drawn : state.main = .draw → Framed inside past (state.b, state.x)
  frames : ∀ frame ∈ state.frames, Framed inside past frame

/-- How the game can have come to its end. -/
structure Ended (past : List State) (state : State) : Prop where
  met : state.won = true ∨ state.collision = .setWon →
    ∃ before ∈ past, before.ball = before.xPos
  stopping : state.collision = .stopRunning → state.won = true
  stopped : state.running = false → state.won = true ∨ .quit ∈ state.keys
  leaving : state.main ∈ [.showResult, .joinKeys, .joinX, .joinCol,
    .returned] → state.running = false
  youWin : state.message = some .youWin → state.won = true
  bye : state.message = some .bye → .quit ∈ state.keys

section Steps

variable {screen : Screen} {inside : Pos → Prop} {past later : List State}
  {state next : State}

theorem started_step (hstarted : Started state) {action : Action}
    (hstep : state.step screen action = some next) : Started next := by
  obtain ⟨hkeys, hx, hcol⟩ := hstarted
  cases action with
  | main =>
      simp only [State.step, State.runMain] at hstep
      cases hplace : state.main <;>
        simp only [hplace, Option.ite_none_right_eq_some, Option.some.injEq,
          reduceCtorEq] at hstep
      case lock | joinKeys | joinX | joinCol =>
        obtain ⟨-, rfl⟩ := hstep
        constructor <;> simp_all
      case test =>
        subst next
        cases hrunning : state.running <;> constructor <;> simp_all
      all_goals
        subst next
        constructor <;> simp_all
  | keyboard key =>
      simp only [State.step, State.runKeyboard] at hstep
      cases hplace : state.keyboard <;>
        simp only [hplace, Option.ite_none_right_eq_some, Option.some.injEq,
          reduceCtorEq] at hstep
      case lock =>
        obtain ⟨-, rfl⟩ := hstep
        constructor <;> simp_all
      case test =>
        subst next
        cases hrunning : state.running <;> constructor <;> simp_all
      case getch =>
        subst next
        cases key <;> constructor <;> simp_all
      all_goals
        subst next
        constructor <;> simp_all
  | xMover first second =>
      simp only [State.step, State.runXMover] at hstep
      cases hplace : state.xMover <;>
        simp only [hplace, Option.ite_none_right_eq_some, Option.some.injEq,
          reduceCtorEq] at hstep
      case lock =>
        obtain ⟨-, rfl⟩ := hstep
        constructor <;> simp_all
      case test =>
        subst next
        cases hrunning : state.running <;> constructor <;> simp_all
      all_goals
        subst next
        constructor <;> simp_all
  | collision =>
      simp only [State.step, State.runCollision] at hstep
      cases hplace : state.collision <;>
        simp only [hplace, Option.ite_none_right_eq_some, Option.some.injEq,
          reduceCtorEq] at hstep
      case lock =>
        obtain ⟨-, rfl⟩ := hstep
        constructor <;> simp_all
      case test =>
        subst next
        cases hrunning : state.running <;> constructor <;> simp_all
      case compare =>
        subst next
        by_cases hequal : state.ball = state.xPos <;> constructor <;> simp_all
      all_goals
        subst next
        constructor <;> simp_all

theorem Framed.mono {frame : Pos × Pos} (hframed : Framed inside past frame)
    (hpast : ∀ before ∈ past, before ∈ later) : Framed inside later frame := by
  obtain ⟨⟨before, hbefore, hframe⟩, hinside⟩ := hframed
  exact ⟨⟨before, hpast before hbefore, hframe⟩, hinside⟩

theorem Placed.mono (hplaced : Placed inside past state)
    (hpast : ∀ before ∈ past, before ∈ later) : Placed inside later state :=
  { hplaced with
    drawn := fun hplace => (hplaced.drawn hplace).mono hpast
    frames := fun frame hmem => (hplaced.frames frame hmem).mono hpast }

/-- While `main` has the mutex the ball is clamped. -/
theorem Placed.ball_of_holds (hplaced : Placed inside past state)
    (howned : OwnedBy state.owner (Holds state))
    (hholds : Holds state .main) : inside state.ball := by
  apply hplaced.ball
  intro hclamp
  have hkeyboard : Holds state .keyboard := .inl hclamp
  have := howned.unique hholds hkeyboard
  contradiction

theorem placed_runMain (hplaced : Placed inside past state)
    (howned : OwnedBy state.owner (Holds state)) (hstarted : Started state)
    (hcurrent : state ∈ past) (hstep : state.runMain = some next) :
    Placed inside past next := by
  have hholds := hplaced.ball_of_holds howned
  have hkeys := hstarted.keys
  obtain ⟨hball, hx, hcopiedBall, hcopiedX, hdrawn, hframes⟩ := hplaced
  unfold State.runMain at hstep
  cases hplace : state.main with
  | returned => simp [hplace] at hstep
  | lock | joinKeys | joinX | joinCol =>
      simp only [hplace, Option.ite_none_right_eq_some,
        Option.some.injEq] at hstep
      obtain ⟨-, rfl⟩ := hstep
      constructor <;> simp_all
  | unlock =>
      simp only [hplace, Option.some.injEq] at hstep
      subst next
      constructor
      case drawn =>
        intro _
        rw [hcopiedBall (.inr hplace), hcopiedX hplace]
        exact ⟨⟨state, hcurrent, rfl⟩, hholds (by simp [Holds, hplace]), hx⟩
      all_goals simp_all
  | draw =>
      simp only [hplace, Option.some.injEq] at hstep
      subst next
      constructor
      case frames =>
        intro frame hmem
        rcases List.mem_append.mp hmem with hold | hnew
        · exact hframes frame hold
        · rw [List.mem_singleton.mp hnew]
          exact hdrawn hplace
      all_goals simp_all
  | test =>
      simp only [hplace, Option.some.injEq] at hstep
      subst next
      cases hrunning : state.running <;> constructor <;> simp_all
  | createKeys | createX | createCol | copyBall | copyX | showResult =>
      simp only [hplace, Option.some.injEq] at hstep
      subst next
      constructor <;> simp_all

/-- `main` copies nothing while another thread has the mutex. -/
theorem copies_nothing (howned : OwnedBy state.owner (Holds state))
    {thread : Thread} (hholds : Holds state thread) (hne : thread ≠ .main) :
    state.main ≠ .copyX ∧ state.main ≠ .unlock := by
  constructor <;> intro hplace <;>
    exact hne (howned.unique hholds (by simp [Holds, hplace]))

theorem placed_runKeyboard (hplaced : Placed inside past state)
    (howned : OwnedBy state.owner (Holds state))
    (hclamp : ∀ pos, inside (screen.clamp pos)) {key : Option Key}
    (hstep : state.runKeyboard screen key = some next) :
    Placed inside past next := by
  have halone : Holds state .keyboard → state.main ≠ .copyX ∧
      state.main ≠ .unlock := fun hholds =>
    copies_nothing howned hholds (by decide)
  obtain ⟨hball, hx, hcopiedBall, hcopiedX, hdrawn, hframes⟩ := hplaced
  unfold State.runKeyboard at hstep
  cases hplace : state.keyboard with
  | unstarted | ended => simp [hplace] at hstep
  | test =>
      simp only [hplace, Option.some.injEq] at hstep
      subst next
      cases hrunning : state.running <;> constructor <;> simp_all
  | getch =>
      simp only [hplace, Option.some.injEq] at hstep
      subst next
      cases key <;> constructor <;> simp_all
  | lock key =>
      simp only [hplace, Option.ite_none_right_eq_some,
        Option.some.injEq] at hstep
      obtain ⟨-, rfl⟩ := hstep
      constructor <;> simp_all
  | switch key =>
      have hmain := halone (.inr (.inr ⟨key, hplace⟩))
      simp only [hplace, Option.some.injEq] at hstep
      subst next
      constructor <;> simp_all
  | clamp =>
      have hmain := halone (.inl hplace)
      simp only [hplace, Option.some.injEq] at hstep
      subst next
      constructor
      case ball => exact fun _ => hclamp _
      all_goals simp_all
  | unlock =>
      simp only [hplace, Option.some.injEq] at hstep
      subst next
      constructor <;> simp_all

theorem placed_runXMover (hplaced : Placed inside past state)
    (howned : OwnedBy state.owner (Holds state))
    (hclamp : ∀ pos, inside (screen.clamp pos)) {first second : Nat}
    (hstep : state.runXMover screen first second = some next) :
    Placed inside past next := by
  obtain ⟨hball, hx, hcopiedBall, hcopiedX, hdrawn, hframes⟩ := hplaced
  unfold State.runXMover at hstep
  cases hplace : state.xMover with
  | unstarted | ended => simp [hplace] at hstep
  | lock =>
      simp only [hplace, Option.ite_none_right_eq_some,
        Option.some.injEq] at hstep
      obtain ⟨-, rfl⟩ := hstep
      exact ⟨hball, hx, hcopiedBall, hcopiedX, hdrawn, hframes⟩
  | step =>
      have hholds : Holds state .xMover := by simp [Holds, hplace]
      have hmain := copies_nothing howned hholds (by decide)
      simp only [hplace, Option.some.injEq] at hstep
      subst next
      exact ⟨hball, hclamp _, hcopiedBall,
        fun hunlock => absurd hunlock hmain.2, hdrawn, hframes⟩
  | test | unlock =>
      simp only [hplace, Option.some.injEq] at hstep
      subst next
      exact ⟨hball, hx, hcopiedBall, hcopiedX, hdrawn, hframes⟩

theorem placed_runCollision (hplaced : Placed inside past state)
    (hstep : state.runCollision = some next) : Placed inside past next := by
  obtain ⟨hball, hx, hcopiedBall, hcopiedX, hdrawn, hframes⟩ := hplaced
  unfold State.runCollision at hstep
  cases hplace : state.collision with
  | unstarted | ended => simp [hplace] at hstep
  | lock =>
      simp only [hplace, Option.ite_none_right_eq_some,
        Option.some.injEq] at hstep
      obtain ⟨-, rfl⟩ := hstep
      exact ⟨hball, hx, hcopiedBall, hcopiedX, hdrawn, hframes⟩
  | test | compare | setWon | stopRunning | unlock =>
      simp only [hplace, Option.some.injEq] at hstep
      subst next
      exact ⟨hball, hx, hcopiedBall, hcopiedX, hdrawn, hframes⟩

theorem Ended.mono (hended : Ended past state)
    (hpast : ∀ before ∈ past, before ∈ later) : Ended later state :=
  { hended with
    met := fun hwon =>
      let ⟨before, hbefore, hmet⟩ := hended.met hwon
      ⟨before, hpast before hbefore, hmet⟩ }

theorem ended_runMain (hended : Ended past state) (hstarted : Started state)
    (hstep : state.runMain = some next) : Ended past next := by
  have hcol := hstarted.col
  obtain ⟨hmet, hstopping, hstopped, hleaving, hyouWin, hbye⟩ := hended
  unfold State.runMain at hstep
  cases hplace : state.main with
  | returned => simp [hplace] at hstep
  | lock | joinKeys | joinX | joinCol =>
      simp only [hplace, Option.ite_none_right_eq_some,
        Option.some.injEq] at hstep
      obtain ⟨-, rfl⟩ := hstep
      constructor <;> simp_all
  | test =>
      simp only [hplace, Option.some.injEq] at hstep
      subst next
      cases hrunning : state.running <;> constructor <;> simp_all
  | showResult =>
      simp only [hplace, Option.some.injEq] at hstep
      subst next
      cases hwon : state.won <;> constructor <;> simp_all
  | createKeys | createX | createCol | copyBall | copyX | unlock | draw =>
      simp only [hplace, Option.some.injEq] at hstep
      subst next
      constructor <;> simp_all

theorem ended_runKeyboard (hended : Ended past state) {key : Option Key}
    (hstep : state.runKeyboard screen key = some next) : Ended past next := by
  obtain ⟨hmet, hstopping, hstopped, hleaving, hyouWin, hbye⟩ := hended
  unfold State.runKeyboard at hstep
  cases hplace : state.keyboard with
  | unstarted | ended => simp [hplace] at hstep
  | lock key =>
      simp only [hplace, Option.ite_none_right_eq_some,
        Option.some.injEq] at hstep
      obtain ⟨-, rfl⟩ := hstep
      exact ⟨hmet, hstopping, hstopped, hleaving, hyouWin, hbye⟩
  | switch key =>
      simp only [hplace, Option.some.injEq] at hstep
      subst next
      refine ⟨hmet, hstopping, ?_, ?_, hyouWin, ?_⟩
      · intro hrunning
        cases hbefore : state.running with
        | false =>
            rcases hstopped hbefore with hwon | hquit
            · exact .inl hwon
            · exact .inr (List.mem_append_left _ hquit)
        | true => simp_all
      · intro hplace
        have hbefore := hleaving hplace
        simp [hbefore]
      · exact fun hmessage => List.mem_append_left _ (hbye hmessage)
  | test | getch | clamp | unlock =>
      simp only [hplace, Option.some.injEq] at hstep
      subst next
      exact ⟨hmet, hstopping, hstopped, hleaving, hyouWin, hbye⟩

theorem ended_runXMover (hended : Ended past state) {first second : Nat}
    (hstep : state.runXMover screen first second = some next) :
    Ended past next := by
  obtain ⟨hmet, hstopping, hstopped, hleaving, hyouWin, hbye⟩ := hended
  unfold State.runXMover at hstep
  cases hplace : state.xMover with
  | unstarted | ended => simp [hplace] at hstep
  | lock =>
      simp only [hplace, Option.ite_none_right_eq_some,
        Option.some.injEq] at hstep
      obtain ⟨-, rfl⟩ := hstep
      exact ⟨hmet, hstopping, hstopped, hleaving, hyouWin, hbye⟩
  | test | step | unlock =>
      simp only [hplace, Option.some.injEq] at hstep
      subst next
      exact ⟨hmet, hstopping, hstopped, hleaving, hyouWin, hbye⟩

theorem ended_runCollision (hended : Ended past state)
    (hcurrent : state ∈ past) (hstep : state.runCollision = some next) :
    Ended past next := by
  obtain ⟨hmet, hstopping, hstopped, hleaving, hyouWin, hbye⟩ := hended
  unfold State.runCollision at hstep
  cases hplace : state.collision with
  | unstarted | ended => simp [hplace] at hstep
  | lock =>
      simp only [hplace, Option.ite_none_right_eq_some,
        Option.some.injEq] at hstep
      obtain ⟨-, rfl⟩ := hstep
      constructor <;> simp_all
  | test =>
      simp only [hplace, Option.some.injEq] at hstep
      subst next
      cases hrunning : state.running <;> constructor <;> simp_all
  | compare =>
      simp only [hplace, Option.some.injEq] at hstep
      subst next
      by_cases hequal : state.ball = state.xPos
      · have hbefore : ∃ before ∈ past, before.ball = before.xPos :=
          ⟨state, hcurrent, hequal⟩
        constructor <;> simp_all
      · constructor <;> simp_all
  | setWon | stopRunning | unlock =>
      simp only [hplace, Option.some.injEq] at hstep
      subst next
      constructor <;> simp_all

/-- What holds in every state of a run, with the states before it. -/
structure Sound (inside : Pos → Prop) (past : List State) (state : State) :
    Prop where
  current : state ∈ past
  owned : OwnedBy state.owner (Holds state)
  started : Started state
  placed : Placed inside past state
  ended : Ended past state

theorem Sound.step (hsound : Sound inside past state)
    (hclamp : ∀ pos, inside (screen.clamp pos)) {action : Action}
    (hstep : state.step screen action = some next) :
    Sound inside (past ++ [next]) next := by
  have hpast : ∀ before ∈ past, before ∈ past ++ [next] := fun _ hmem =>
    List.mem_append_left _ hmem
  obtain ⟨hcurrent, howned, hstarted, hplaced, hended⟩ := hsound
  have hlater := started_step hstarted hstep
  refine ⟨by simp, ?_, hlater, ?_, ?_⟩
  · cases action with
    | main =>
        apply owned_runMain howned hstarted.keys.mp _ _ hstep
        · exact fun hplace => hstarted.x.mp (by simp [hplace])
        · exact fun hplace => hstarted.col.mp (by simp [hplace])
    | keyboard key => exact owned_runKeyboard howned hstep
    | xMover first second => exact owned_runXMover howned hstep
    | collision => exact owned_runCollision howned hstep
  · apply Placed.mono _ hpast
    cases action with
    | main => exact placed_runMain hplaced howned hstarted hcurrent hstep
    | keyboard key => exact placed_runKeyboard hplaced howned hclamp hstep
    | xMover first second => exact placed_runXMover hplaced howned hclamp hstep
    | collision => exact placed_runCollision hplaced hstep
  · apply Ended.mono _ hpast
    cases action with
    | main => exact ended_runMain hended hstarted hstep
    | keyboard key => exact ended_runKeyboard hended hstep
    | xMover first second => exact ended_runXMover hended hstep
    | collision => exact ended_runCollision hended hcurrent hstep

theorem sound_run (hclamp : ∀ pos, inside (screen.clamp pos))
    (hball : inside (State.start screen).ball)
    (hx : inside (State.start screen).xPos) {schedule : List Action}
    {last : State} (hrun : (game screen).run schedule = some last) :
    Sound inside ((game screen).visited schedule) last := by
  apply history_invariant _ (fun hsound hstep => hsound.step hclamp hstep) hrun
  refine ⟨List.mem_singleton_self _, ?_, ?_, ?_, ?_⟩
  · rintro (_ | _ | _ | _) <;> simp [game, State.start, Holds]
  · constructor <;> simp [game, State.start]
  · constructor
    · exact fun _ => hball
    · exact hx
    all_goals simp [game, State.start]
  · constructor <;> simp [game, State.start]

/-- On a screen of any size. -/
theorem sound_run_any {schedule : List Action} {last : State}
    (hrun : (game screen).run schedule = some last) :
    Sound (fun _ => True) ((game screen).visited schedule) last :=
  sound_run (fun _ => trivial) trivial trivial hrun

end Steps

/-- The positions that `main` starts with are on the board exactly if the screen
is wide enough for the X and high enough. -/
theorem inside_start_iff (screen : Screen) :
    (screen.Inside (State.start screen).ball ∧
      screen.Inside (State.start screen).xPos) ↔
    5 ≤ screen.cols ∧ 3 ≤ screen.rows := by
  simp only [Screen.Inside, State.start]
  omega

section Border

variable {screen : Screen}

/-- The keyboard thread looks whether to go on, in a game that does, and the mutex is
free. -/
structure AwaitsKey (state : State) : Prop where
  test : state.keyboard = .test
  free : state.owner = none
  running : state.running = true

/-- The arrow to the left, up to the end of the switch. -/
def pressLeft : List Action :=
  [.keyboard none, .keyboard (some .left), .keyboard none, .keyboard none]

def State.pressedLeft (state : State) : State :=
  { state with
    keyboard := .clamp, owner := some .keyboard,
    ball := Key.left.move state.ball, keys := state.keys ++ [.left] }

theorem reachable_pressedLeft {state : State}
    (hreach : (game screen).Reachable state) (hawaits : AwaitsKey state) :
    (game screen).Reachable state.pressedLeft := by
  obtain ⟨schedule, hrun⟩ := hreach
  obtain ⟨htest, hfree, hrunning⟩ := hawaits
  refine ⟨schedule ++ pressLeft, ?_⟩
  rw [System.run_append_eq_some hrun]
  simp [pressLeft, System.runFrom, game, State.step, State.runKeyboard,
    State.pressedLeft, htest, hfree, hrunning]

/-- After `clamp_ball` and the unlock behind it. -/
def State.clamped (screen : Screen) (state : State) : State :=
  { state with
    keyboard := .test, owner := none, ball := screen.clamp state.ball }

theorem reachable_clamped {state : State}
    (hreach : (game screen).Reachable state) (hplace : state.keyboard = .clamp) :
    (game screen).Reachable (state.clamped screen) := by
  obtain ⟨schedule, hrun⟩ := hreach
  refine ⟨schedule ++ [.keyboard none, .keyboard none], ?_⟩
  rw [System.run_append_eq_some hrun]
  simp [System.runFrom, game, State.step, State.runKeyboard, State.clamped,
    hplace]

/-- As often as the ball is columns away from the border, the arrow moves it on, and
then off the board. -/
theorem exists_offBoard {columns : Nat} :
    ∀ {state : State}, (game screen).Reachable state → AwaitsKey state →
      state.ball.x = columns + 1 → state.ball.x ≤ screen.cols - 2 →
      ∃ later, (game screen).Reachable later ∧ ¬ screen.Inside later.ball := by
  induction columns with
  | zero =>
      intro state hreach hawaits hx hle
      refine ⟨state.pressedLeft, reachable_pressedLeft hreach hawaits, ?_⟩
      rintro ⟨hleft, -⟩
      change 1 ≤ state.ball.x - 1 at hleft
      omega
  | succ columns ih =>
      intro state hreach hawaits hx hle
      have hclamped :=
        reachable_clamped (reachable_pressedLeft hreach hawaits) rfl
      have hcolumn : (screen.clamp (Key.left.move state.ball)).x = columns + 1 := by
        rw [clamp_x]
        change min (max (state.ball.x - 1) 1) (screen.cols - 2) = columns + 1
        omega
      refine ih hclamped ⟨rfl, rfl, hawaits.running⟩ hcolumn ?_
      change (screen.clamp (Key.left.move state.ball)).x ≤ screen.cols - 2
      omega

end Border

/-- What `main` draws is on the board, in every run, exactly if the screen has
five columns and three rows at least.  On such a screen there are states in which the
ball is not on the board, and in all of them the keyboard thread is in front of
`clamp_ball` and has the mutex. -/
theorem frames_inside_iff (screen : Screen) :
    ((∀ schedule last, (game screen).run schedule = some last →
      ∀ frame ∈ last.frames,
        screen.Inside frame.1 ∧ screen.Inside frame.2) ↔
      5 ≤ screen.cols ∧ 3 ≤ screen.rows) ∧
    (5 ≤ screen.cols ∧ 3 ≤ screen.rows →
      (∃ state, (game screen).Reachable state ∧ ¬ screen.Inside state.ball) ∧
      ∀ state, (game screen).Reachable state → ¬ screen.Inside state.ball →
        state.keyboard = .clamp ∧ state.owner = some .keyboard) := by
  have hsound : 5 ≤ screen.cols ∧ 3 ≤ screen.rows → ∀ schedule last,
      (game screen).run schedule = some last →
      Sound screen.Inside ((game screen).visited schedule) last := by
    intro hsize schedule last hrun
    obtain ⟨hball, hx⟩ := (inside_start_iff screen).mpr hsize
    exact sound_run (inside_clamp (by omega) hsize.2) hball hx hrun
  refine ⟨⟨?_, ?_⟩, fun hsize => ⟨?_, ?_⟩⟩
  · intro hdraws
    -- `main` draws before another thread has run
    have hfirst := hdraws (List.replicate 9 .main) _ rfl
      ((State.start screen).ball, (State.start screen).xPos)
      (List.mem_singleton_self _)
    exact (inside_start_iff screen).mp hfirst
  · intro hsize schedule last hrun frame hmem
    exact ((hsound hsize schedule last hrun).placed.frames frame hmem).2
  · have hcreated : (game screen).Reachable
        { State.start screen with keyboard := .test, main := .createX } :=
      ⟨[.main], rfl⟩
    have hcolumn : screen.cols / 4 = ((screen.cols / 4 - 1).toNat : Int) + 1 := by
      omega
    have hle : screen.cols / 4 ≤ screen.cols - 2 := by omega
    exact exists_offBoard hcreated ⟨rfl, rfl, rfl⟩ hcolumn hle
  · rintro state ⟨schedule, hrun⟩ hout
    obtain ⟨-, howned, -, hplaced, -⟩ := hsound hsize schedule state hrun
    have hclamp : state.keyboard = .clamp :=
      not_not.mp fun hplace => hout (hplaced.ball hplace)
    exact ⟨hclamp, (howned .keyboard).mpr (.inl hclamp)⟩

/-- Every frame shows the ball and the X as they were at one moment of the run,
the game is won only if they have met, and it says goodbye only if 'q' was
pressed. -/
theorem frames_and_result {screen : Screen} {schedule : List Action}
    {last : State} (hrun : (game screen).run schedule = some last) :
    (∀ frame ∈ last.frames, ∃ state ∈ (game screen).visited schedule,
      frame = (state.ball, state.xPos)) ∧
    (last.message = some .youWin →
      ∃ state ∈ (game screen).visited schedule, state.ball = state.xPos) ∧
    (last.message = some .bye → .quit ∈ last.keys) := by
  obtain ⟨-, -, -, hplaced, hended⟩ := sound_run_any hrun
  refine ⟨fun frame hmem => (hplaced.frames frame hmem).1, ?_, hended.bye⟩
  exact fun hwin => hended.met (.inl (hended.youWin hwin))

/-- On the smallest board, with two keys and a look of the collision thread. -/
def meeting : List Action :=
  [.main, .main, .main, .keyboard none, .keyboard (some .right),
    .keyboard none, .keyboard none, .keyboard none, .keyboard none,
    .keyboard none, .keyboard (some .right), .keyboard none, .keyboard none,
    .keyboard none, .keyboard none, .collision, .collision, .collision,
    .collision, .collision, .main, .main]

theorem frames_and_result_meeting :
    ∃ state ∈ (game ⟨3, 5⟩).visited meeting, state.ball = state.xPos := by
  have hrun : ∃ last, (game ⟨3, 5⟩).run meeting = some last ∧
      last.message = some .youWin := ⟨_, rfl, rfl⟩
  obtain ⟨last, hlast, hwin⟩ := hrun
  exact (frames_and_result hlast).2.1 hwin

/-- The statements that a thread has left once `running` is false. -/
def MainPlace.left : MainPlace → Nat
  | .lock => 10
  | .copyBall => 9
  | .copyX | .createKeys => 8
  | .unlock | .createX => 7
  | .draw | .createCol => 6
  | .test => 5
  | .showResult => 4
  | .joinKeys => 3
  | .joinX => 2
  | .joinCol => 1
  | .returned => 0

def KeyPlace.left : KeyPlace → Nat
  | .getch => 6
  | .lock _ => 5
  | .switch _ => 4
  | .clamp => 3
  | .unlock => 2
  | .test | .unstarted => 1
  | .ended => 0

def XPlace.left : XPlace → Nat
  | .lock => 4
  | .step => 3
  | .unlock => 2
  | .test | .unstarted => 1
  | .ended => 0

def ColPlace.left : ColPlace → Nat
  | .lock => 6
  | .compare => 5
  | .setWon => 4
  | .stopRunning => 3
  | .unlock => 2
  | .test | .unstarted => 1
  | .ended => 0

def State.left (state : State) : Nat :=
  state.main.left + state.keyboard.left + state.xMover.left +
    state.collision.left

theorem State.left_le (state : State) : state.left ≤ 26 := by
  have hmain : state.main.left ≤ 10 := by cases state.main <;> decide
  have hkeys : state.keyboard.left ≤ 6 := by
    cases state.keyboard <;> simp [KeyPlace.left]
  have hx : state.xMover.left ≤ 4 := by cases state.xMover <;> decide
  have hcol : state.collision.left ≤ 6 := by cases state.collision <;> decide
  unfold State.left
  omega

theorem left_lt {screen : Screen} {state next : State} {action : Action}
    (hstarted : Started state) (hrunning : state.running = false)
    (hstep : state.step screen action = some next) :
    next.running = false ∧ next.left < state.left := by
  cases action with
  | main =>
      have hkeys := hstarted.keys
      have hx := hstarted.x
      have hcol := hstarted.col
      simp only [State.step, State.runMain] at hstep
      cases hplace : state.main <;>
        simp only [hplace, hrunning, Option.ite_none_right_eq_some,
          Option.some.injEq, reduceCtorEq] at hstep
      case lock | joinKeys | joinX | joinCol =>
        obtain ⟨-, rfl⟩ := hstep
        simp [State.left, hplace, MainPlace.left]
      all_goals
        subst next
        simp_all [State.left, MainPlace.left, KeyPlace.left, XPlace.left,
          ColPlace.left]
  | keyboard key =>
      simp only [State.step, State.runKeyboard] at hstep
      cases hplace : state.keyboard <;>
        simp only [hplace, hrunning, Option.ite_none_right_eq_some,
          Option.some.injEq, reduceCtorEq] at hstep
      case lock =>
        obtain ⟨-, rfl⟩ := hstep
        simp [State.left, hplace, KeyPlace.left]
      case getch =>
        subst next
        cases key <;> simp [State.left, hplace, KeyPlace.left]
      all_goals
        subst next
        simp [State.left, hplace, KeyPlace.left]
  | xMover first second =>
      simp only [State.step, State.runXMover] at hstep
      cases hplace : state.xMover <;>
        simp only [hplace, hrunning, Option.ite_none_right_eq_some,
          Option.some.injEq, reduceCtorEq] at hstep
      case lock =>
        obtain ⟨-, rfl⟩ := hstep
        simp [State.left, hplace, XPlace.left]
      all_goals
        subst next
        simp [State.left, hplace, XPlace.left]
  | collision =>
      simp only [State.step, State.runCollision] at hstep
      cases hplace : state.collision <;>
        simp only [hplace, hrunning, Option.ite_none_right_eq_some,
          Option.some.injEq, reduceCtorEq] at hstep
      case lock =>
        obtain ⟨-, rfl⟩ := hstep
        simp [State.left, hplace, ColPlace.left]
      case compare =>
        subst next
        by_cases hequal : state.ball = state.xPos <;>
          simp [State.left, hplace, hequal, ColPlace.left]
      all_goals
        subst next
        simp [State.left, hplace, ColPlace.left]

section Results

variable {screen : Screen}

/-- A thread that has the mutex can go on. -/
theorem not_stuck_of_holds {state : State} {thread : Thread}
    (hholds : Holds state thread) : ¬ (game screen).Stuck state := by
  intro hstuck
  cases thread with
  | main =>
      have hstep := hstuck .main
      simp only [Holds, List.mem_cons, List.not_mem_nil, or_false] at hholds
      rcases hholds with hplace | hplace | hplace <;>
        simp [game, State.step, State.runMain, hplace] at hstep
  | keyboard =>
      have hstep := hstuck (.keyboard none)
      rcases hholds with hplace | hplace | ⟨key, hplace⟩ <;>
        simp [game, State.step, State.runKeyboard, hplace] at hstep
  | xMover =>
      have hstep := hstuck (.xMover 0 0)
      simp only [Holds, List.mem_cons, List.not_mem_nil, or_false] at hholds
      rcases hholds with hplace | hplace <;>
        simp [game, State.step, State.runXMover, hplace] at hstep
  | collision =>
      have hstep := hstuck .collision
      simp only [Holds, List.mem_cons, List.not_mem_nil, or_false] at hholds
      rcases hholds with hplace | hplace | hplace | hplace <;>
        simp [game, State.step, State.runCollision, hplace] at hstep

/-- With the mutex free, a thread that cannot go on has not begun or has ended. -/
theorem ended_of_stuck {state : State} (hfree : state.owner = none)
    (hstuck : (game screen).Stuck state) :
    (state.keyboard = .unstarted ∨ state.keyboard = .ended) ∧
      (state.xMover = .unstarted ∨ state.xMover = .ended) ∧
      (state.collision = .unstarted ∨ state.collision = .ended) := by
  have hkeyboard := hstuck (.keyboard none)
  have hx := hstuck (.xMover 0 0)
  have hcol := hstuck .collision
  simp only [game, State.step, State.runKeyboard] at hkeyboard
  simp only [game, State.step, State.runXMover] at hx
  simp only [game, State.step, State.runCollision] at hcol
  refine ⟨?_, ?_, ?_⟩
  · cases hplace : state.keyboard <;> simp_all
  · cases hplace : state.xMover <;> simp_all
  · cases hplace : state.collision <;> simp_all

theorem returned_of_stuck {state : State}
    (howned : OwnedBy state.owner (Holds state)) (hstarted : Started state)
    (hstuck : (game screen).Stuck state) : state.main = .returned := by
  cases howner : state.owner with
  | some thread =>
      exact absurd hstuck (not_stuck_of_holds ((howned thread).mp howner))
  | none =>
      obtain ⟨hkeyboard, hx, hcol⟩ := ended_of_stuck howner hstuck
      have hmain := hstuck .main
      simp only [game, State.step, State.runMain] at hmain
      obtain ⟨hstartedKeys, hstartedX, hstartedCol⟩ := hstarted
      cases hplace : state.main <;> simp_all

/-- The threads never wait for each other in a circle, and once `running` is false
`main` returns after 26 statements at most of all threads together. -/
theorem game_ends {state : State} (hreach : (game screen).Reachable state) :
    ((game screen).Stuck state → state.main = .returned) ∧
    (state.running = false → ∀ schedule last,
      (game screen).runFrom state schedule = some last →
        schedule.length ≤ 26) := by
  obtain ⟨before, hbefore⟩ := hreach
  obtain ⟨-, howned, hstarted, -, -⟩ := sound_run_any hbefore
  refine ⟨returned_of_stuck howned hstarted, ?_⟩
  intro hrunning schedule last hrun
  have hlength := runFrom_length_add_measure_le
    (Q := fun state => Started state ∧ state.running = false) State.left
    (fun hQ hstep => by
      have hlow := left_lt hQ.1 hQ.2 hstep
      exact ⟨⟨started_step hQ.1 hstep, hlow.1⟩, hlow.2⟩)
    ⟨hstarted, hrunning⟩ hrun
  have hle := state.left_le
  omega

/-- Up to the key 'q'. -/
def quitting : List Action :=
  [.main, .main, .main, .keyboard none, .keyboard (some .quit),
    .keyboard none, .keyboard none]

theorem game_ends_quitting :
    ∃ state, (game ⟨24, 80⟩).run quitting = some state ∧
      ∀ schedule last, (game ⟨24, 80⟩).runFrom state schedule = some last →
        schedule.length ≤ 26 := by
  have hrun : ∃ state, (game ⟨24, 80⟩).run quitting = some state ∧
      state.running = false := ⟨_, rfl, rfl⟩
  obtain ⟨state, hstate, hrunning⟩ := hrun
  exact ⟨state, hstate, (game_ends ⟨quitting, hstate⟩).2 hrunning⟩

end Results

end BallGame

end OsCourse
