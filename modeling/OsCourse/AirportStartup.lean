/-
The start-up of the airport: the C air control creates the shared pid table and
forks the radio, the child stores its own pid, and ground control opens the
table and starts its timer.  Every `kill` reads its pid from the table as it is
then; pid 0 means the process group of the sender.
-/
import OsCourse.AirControlC

namespace OsCourse

namespace AirportStartup

open TransitionSystem StandardSignals Airport

/-- The pids and the process groups of the three processes. -/
structure Pids where
  pid : Slot → Nat
  group : Slot → Nat
  positive : ∀ slot, 0 < pid slot
  injective : Function.Injective pid

/-- The step of `main` that the air control is at. -/
inductive AirPhase where
  | memoryCreate
  | configureSigusr2
  | fork
  | running
  | terminated
deriving Repr, DecidableEq

/-- The forked child until it executes the radio, and the radio until its
handlers are installed. -/
inductive RadioPhase where
  | unborn
  | forked
  | stored
  | executed
  | sigusr1Set
  | sigusr2Set
  | running
  | terminated
deriving Repr, DecidableEq

inductive GroundPhase where
  | memoryOpen
  | configureSigterm
  | configureSigusr1
  | configureSigalrm
  | setTimer
  | running
  | terminated
deriving Repr, DecidableEq

/-- What a signal does to a process; a forked child still has the handler of the
air control. -/
inductive Disposition where
  | terminates
  | inherited
  | handled
deriving Repr, DecidableEq

def AirPhase.disposition : AirPhase → Signal → Disposition
  | .fork, .sigusr2 | .running, .sigusr2 => .handled
  | _, _ => .terminates

def RadioPhase.disposition : RadioPhase → Signal → Disposition
  | .forked, .sigusr2 | .stored, .sigusr2 => .inherited
  | .sigusr1Set, .sigusr1 | .sigusr2Set, .sigusr1 | .sigusr2Set, .sigusr2
  | .running, .sigusr1 | .running, .sigusr2 | .running, .sigterm => .handled
  | _, _ => .terminates

def GroundPhase.disposition : GroundPhase → Signal → Disposition
  | .configureSigusr1, .sigterm | .configureSigalrm, .sigterm
  | .setTimer, .sigterm | .running, .sigterm
  | .configureSigalrm, .sigusr1 | .setTimer, .sigusr1 | .running, .sigusr1
  | .setTimer, .sigalrm | .running, .sigalrm => .handled
  | _, _ => .terminates

/-- A `kill` with the pid that it read from its slot. -/
structure SentKill where
  sender : Slot
  slot : Slot
  pid : Nat
  signal : Signal
deriving Repr, DecidableEq

/-- The table with the three processes; `segment` says that it exists. -/
structure Startup (n : Nat) where
  segment : Bool
  table : Slot → Nat
  airPhase : AirPhase
  radioPhase : RadioPhase
  groundPhase : GroundPhase
  air : AirControlC n
  radio : Radio
  ground : GroundControl
  pending : Slot → Pending Signal
  kills : List SentKill

inductive StartupAction (n : Nat) where
  | airSetUp
  | radioSetUp
  | radioFails
  | groundSetUp
  | air (action : CAction n)
  | airTerminates (signal : Signal)
  | radioDeliver (signal : Signal)
  | radioResume
  | radioReturn
  | timer
  | groundDeliver (signal : Signal)
  | groundResume
deriving Repr, DecidableEq

/-- The processes that `kill` from the sender reaches with the given pid. -/
def Pids.reaches (pids : Pids) (sender : Slot) (pid : Nat) (process : Slot) :
    Bool :=
  if pid = 0 then pids.group process == pids.group sender
  else pids.pid process == pid

namespace Startup

variable {n : Nat}

/-- The segment has not been created; its slots will be zero. -/
def start (n : Nat) : Startup n :=
  ⟨false, fun _ => 0, .memoryCreate, .unborn, .memoryOpen, AirControlC.start,
    Radio.start, GroundControl.start, fun _ => Pending.none, []⟩

def store (pids : Pids) (startup : Startup n) (slot : Slot) : Startup n :=
  { startup with
    table := Function.update startup.table slot (pids.pid slot) }

/-- `kill(shared_memory[slot], signal)`. -/
def kill (pids : Pids) (sender : Slot) (startup : Startup n) (kill : Kill) :
    Startup n :=
  { startup with
    pending := fun process =>
      if pids.reaches sender (startup.table kill.target) process then
        (startup.pending process).raise kill.signal
      else startup.pending process
    kills := startup.kills ++
      [⟨sender, kill.target, startup.table kill.target, kill.signal⟩] }

def post (pids : Pids) (sender : Slot) (startup : Startup n)
    (kills : List Kill) : Startup n :=
  kills.foldl (kill pids sender) startup

/-- A process takes a pending signal. -/
def take (startup : Startup n) (process : Slot) (signal : Signal) :
    Startup n :=
  { startup with
    pending := Function.update startup.pending process
      ((startup.pending process).clear signal) }

/-- `MemoryCreate`, the handler and the `fork`. -/
def airSetUp (pids : Pids) (startup : Startup n) : Option (Startup n) :=
  match startup.airPhase with
  | .memoryCreate => some { startup.store pids .airControl with
      segment := true
      airPhase := .configureSigusr2 }
  | .configureSigusr2 => some { startup with airPhase := .fork }
  | .fork => some { startup with airPhase := .running, radioPhase := .forked }
  | .running | .terminated => none

/-- The child stores its pid and executes the radio, which installs its
handlers. -/
def radioSetUp (pids : Pids) (startup : Startup n) : Option (Startup n) :=
  match startup.radioPhase with
  | .forked => some { startup.store pids .radio with radioPhase := .stored }
  | .stored => some { startup with radioPhase := .executed }
  | .executed => some { startup with radioPhase := .sigusr1Set }
  | .sigusr1Set => some { startup with radioPhase := .sigusr2Set }
  | .sigusr2Set => some { startup with radioPhase := .running }
  | .unborn | .running | .terminated => none

/-- `execl` fails, or the radio cannot open the segment. -/
def radioFails (startup : Startup n) : Option (Startup n) :=
  match startup.radioPhase with
  | .stored | .executed => some { startup with radioPhase := .terminated }
  | _ => none

/-- `MemoryOpen`, the handlers and the timer; without a segment it gives up. -/
def groundSetUp (pids : Pids) (startup : Startup n) : Option (Startup n) :=
  match startup.groundPhase with
  | .memoryOpen =>
      some (if startup.segment then
        { startup.store pids .groundControl with
          groundPhase := .configureSigterm }
      else { startup with groundPhase := .terminated })
  | .configureSigterm => some { startup with groundPhase := .configureSigusr1 }
  | .configureSigusr1 => some { startup with groundPhase := .configureSigalrm }
  | .configureSigalrm => some { startup with groundPhase := .setTimer }
  | .setTimer => some { startup with groundPhase := .running }
  | .running | .terminated => none

/-- A step of a controller, once the threads run, or of `SigHandler2`. -/
def airStep (pids : Pids) (startup : Startup n) (action : CAction n) :
    Option (Startup n) :=
  match action with
  | .takeOffsFunction controller =>
      if startup.airPhase = .running then
        (startup.air.takeOffsFunction controller).map fun (air, kills) =>
          { startup with air := air }.post pids .airControl kills
      else none
  | .sigHandler2 =>
      if startup.pending .airControl .sigusr2 = true ∧
          startup.airPhase.disposition .sigusr2 = .handled then
        some { startup.take .airControl .sigusr2 with
          air := startup.air.sigHandler2 }
      else none

def airTerminates (startup : Startup n) (signal : Signal) :
    Option (Startup n) :=
  if startup.pending .airControl signal = true ∧
      startup.airPhase.disposition signal = .terminates then
    some { startup.take .airControl signal with airPhase := .terminated }
  else none

def radioDeliver (startup : Startup n) (signal : Signal) :
    Option (Startup n) :=
  if startup.pending .radio signal then
    match startup.radioPhase.disposition signal with
    | .terminates =>
        some { startup.take .radio signal with radioPhase := .terminated }
    | .inherited => some (startup.take .radio signal)
    | .handled => (startup.radio.deliver signal).map fun radio =>
        { startup.take .radio signal with radio := radio }
  else none

def radioResume (pids : Pids) (startup : Startup n) : Option (Startup n) :=
  if startup.radioPhase = .terminated then none
  else startup.radio.resume.map fun (radio, kills) =>
    { startup with radio := radio }.post pids .radio kills

def radioReturn (startup : Startup n) : Option (Startup n) :=
  if startup.radioPhase = .running then
    startup.radio.mainReturn.map fun radio => { startup with radio := radio }
  else none

/-- SIGALRM after `setitimer`. -/
def timer (startup : Startup n) : Option (Startup n) :=
  if startup.groundPhase = .running then
    some { startup with
      pending := Function.update startup.pending .groundControl
        ((startup.pending .groundControl).raise .sigalrm) }
  else none

def groundDeliver (startup : Startup n) (signal : Signal) :
    Option (Startup n) :=
  if startup.pending .groundControl signal then
    match startup.groundPhase.disposition signal with
    | .handled => (startup.ground.deliver signal).map fun ground =>
        { startup.take .groundControl signal with ground := ground }
    | _ => some { startup.take .groundControl signal with
        groundPhase := .terminated }
  else none

/-- The next statement of the innermost handler of ground control. -/
def groundResume (pids : Pids) (startup : Startup n) : Option (Startup n) :=
  if startup.groundPhase = .terminated then none
  else startup.ground.resume.map fun (ground, kills) =>
    { startup with ground := ground }.post pids .groundControl kills

def step (pids : Pids) (startup : Startup n) :
    StartupAction n → Option (Startup n)
  | .airSetUp => startup.airSetUp pids
  | .radioSetUp => startup.radioSetUp pids
  | .radioFails => startup.radioFails
  | .groundSetUp => startup.groundSetUp pids
  | .air action => startup.airStep pids action
  | .airTerminates signal => startup.airTerminates signal
  | .radioDeliver signal => startup.radioDeliver signal
  | .radioResume => startup.radioResume pids
  | .radioReturn => startup.radioReturn
  | .timer => startup.timer
  | .groundDeliver signal => startup.groundDeliver signal
  | .groundResume => startup.groundResume pids

end Startup

def startupOf (n : Nat) (pids : Pids) :
    System (Startup n) (StartupAction n) where
  start := Startup.start n
  step := Startup.step pids

variable {n : Nat} {pids : Pids} {startup next : Startup n}

/-- Every `kill` so far used a pid that had been stored in its slot. -/
def KillsRegistered (pids : Pids) (startup : Startup n) : Prop :=
  ∀ sent ∈ startup.kills, sent.pid = pids.pid sent.slot ∧ sent.pid ≠ 0

/-- `Traffic` makes its `kill` after the child has stored its pid. -/
def TrafficAfterRadio (startup : Startup n) (action : StartupAction n) :
    Prop :=
  action = .groundResume → startup.ground.notifies = true →
    startup.table .radio ≠ 0

instance (startup : Startup n) (action : StartupAction n) :
    Decidable (TrafficAfterRadio startup action) :=
  inferInstanceAs (Decidable (_ → _ → _))

section Posting

variable {sender : Slot} {kills : List Kill}

theorem post_table :
    (startup.post pids sender kills).table = startup.table := by
  induction kills generalizing startup with
  | nil => rfl
  | cons kill rest ih => exact ih

/-- Each posted signal carries the pid of its slot. -/
theorem mem_post_kills {sent : SentKill}
    (hmem : sent ∈ (startup.post pids sender kills).kills) :
    sent ∈ startup.kills ∨ sent.pid = startup.table sent.slot := by
  induction kills generalizing startup with
  | nil => exact .inl hmem
  | cons kill rest ih =>
      rcases ih hmem with hbefore | htable
      · rcases List.mem_append.mp hbefore with hold | hnew
        · exact .inl hold
        · rw [List.mem_singleton.mp hnew]
          exact .inr rfl
      · exact .inr htable

end Posting

/-- A step writes only a process's own pid to the table. -/
def KeepsTable (pids : Pids) (startup next : Startup n) : Prop :=
  next.table = startup.table ∨ ∃ slot,
    next.table = Function.update startup.table slot (pids.pid slot)

/-- A step makes a `kill` only with the pid that is in the table. -/
def ReadsTable (startup next : Startup n) : Prop :=
  ∀ sent ∈ next.kills, sent ∈ startup.kills ∨
    sent.pid = startup.table sent.slot

theorem readsTable_of_eq (hkills : next.kills = startup.kills) :
    ReadsTable startup next := by
  intro sent hmem
  rw [hkills] at hmem
  exact .inl hmem

/-- The frame of a step that sends nothing. -/
def Silent (pids : Pids) (startup next : Startup n) : Prop :=
  KeepsTable pids startup next ∧ next.kills = startup.kills

section Frames

theorem airSetUp_frame (hstep : startup.airSetUp pids = some next) :
    Silent pids startup next := by
  unfold Startup.airSetUp at hstep
  split at hstep
  · cases hstep
    exact ⟨.inr ⟨.airControl, rfl⟩, rfl⟩
  all_goals cases hstep <;> exact ⟨.inl rfl, rfl⟩

theorem radioSetUp_frame (hstep : startup.radioSetUp pids = some next) :
    Silent pids startup next := by
  unfold Startup.radioSetUp at hstep
  split at hstep
  · cases hstep
    exact ⟨.inr ⟨.radio, rfl⟩, rfl⟩
  all_goals cases hstep <;> exact ⟨.inl rfl, rfl⟩

theorem groundSetUp_frame (hstep : startup.groundSetUp pids = some next) :
    Silent pids startup next := by
  unfold Startup.groundSetUp at hstep
  split at hstep
  · rw [Option.some.injEq] at hstep
    subst next
    split
    · exact ⟨.inr ⟨.groundControl, rfl⟩, rfl⟩
    · exact ⟨.inl rfl, rfl⟩
  all_goals cases hstep <;> exact ⟨.inl rfl, rfl⟩

theorem radioDeliver_frame {signal : Signal}
    (hstep : startup.radioDeliver signal = some next) :
    Silent pids startup next := by
  rw [Startup.radioDeliver, Option.ite_none_right_eq_some] at hstep
  obtain ⟨_, hstep⟩ := hstep
  split at hstep
  · cases hstep
    exact ⟨.inl rfl, rfl⟩
  · cases hstep
    exact ⟨.inl rfl, rfl⟩
  · obtain ⟨radio, _, rfl⟩ := Option.map_eq_some_iff.mp hstep
    exact ⟨.inl rfl, rfl⟩

theorem groundDeliver_frame {signal : Signal}
    (hstep : startup.groundDeliver signal = some next) :
    Silent pids startup next := by
  rw [Startup.groundDeliver, Option.ite_none_right_eq_some] at hstep
  obtain ⟨_, hstep⟩ := hstep
  split at hstep
  · obtain ⟨ground, _, rfl⟩ := Option.map_eq_some_iff.mp hstep
    exact ⟨.inl rfl, rfl⟩
  · cases hstep
    exact ⟨.inl rfl, rfl⟩

/-- What the table has to do with any step. -/
theorem step_frame {action : StartupAction n}
    (hstep : startup.step pids action = some next) :
    KeepsTable pids startup next ∧ ReadsTable startup next := by
  have silent : Silent pids startup next →
      KeepsTable pids startup next ∧ ReadsTable startup next :=
    fun hsilent => ⟨hsilent.1, readsTable_of_eq hsilent.2⟩
  cases action with
  | airSetUp => exact silent (airSetUp_frame hstep)
  | radioSetUp => exact silent (radioSetUp_frame hstep)
  | radioFails =>
      rw [Startup.step, Startup.radioFails] at hstep
      split at hstep
      all_goals cases hstep <;> exact silent ⟨.inl rfl, rfl⟩
  | groundSetUp => exact silent (groundSetUp_frame hstep)
  | air action =>
      cases action with
      | takeOffsFunction controller =>
          rw [Startup.step, Startup.airStep,
            Option.ite_none_right_eq_some] at hstep
          obtain ⟨⟨air, kills⟩, _, rfl⟩ := Option.map_eq_some_iff.mp hstep.2
          exact ⟨.inl post_table, fun _ => mem_post_kills⟩
      | sigHandler2 =>
          rw [Startup.step, Startup.airStep, Option.ite_none_right_eq_some,
            Option.some.injEq] at hstep
          obtain ⟨_, rfl⟩ := hstep
          exact silent ⟨.inl rfl, rfl⟩
  | airTerminates signal =>
      rw [Startup.step, Startup.airTerminates, Option.ite_none_right_eq_some,
        Option.some.injEq] at hstep
      obtain ⟨_, rfl⟩ := hstep
      exact silent ⟨.inl rfl, rfl⟩
  | radioDeliver signal => exact silent (radioDeliver_frame hstep)
  | radioResume =>
      rw [Startup.step, Startup.radioResume,
        Option.ite_none_left_eq_some] at hstep
      obtain ⟨⟨radio, kills⟩, _, rfl⟩ := Option.map_eq_some_iff.mp hstep.2
      exact ⟨.inl post_table, fun _ => mem_post_kills⟩
  | radioReturn =>
      rw [Startup.step, Startup.radioReturn,
        Option.ite_none_right_eq_some] at hstep
      obtain ⟨radio, _, rfl⟩ := Option.map_eq_some_iff.mp hstep.2
      exact silent ⟨.inl rfl, rfl⟩
  | timer =>
      rw [Startup.step, Startup.timer, Option.ite_none_right_eq_some,
        Option.some.injEq] at hstep
      obtain ⟨_, rfl⟩ := hstep
      exact silent ⟨.inl rfl, rfl⟩
  | groundDeliver signal => exact silent (groundDeliver_frame hstep)
  | groundResume =>
      rw [Startup.step, Startup.groundResume,
        Option.ite_none_left_eq_some] at hstep
      obtain ⟨⟨ground, kills⟩, _, rfl⟩ := Option.map_eq_some_iff.mp hstep.2
      exact ⟨.inl post_table, fun _ => mem_post_kills⟩

end Frames

/-- All three processes have stored their pids. -/
def Registered (pids : Pids) (startup : Startup n) : Prop :=
  ∀ slot, startup.table slot = pids.pid slot

theorem Registered.step {action : StartupAction n}
    (hregistered : Registered pids startup)
    (hstep : startup.step pids action = some next) :
    Registered pids next := by
  rcases (step_frame hstep).1 with hsame | ⟨slot, hstore⟩
  · intro other
    rw [hsame, hregistered other]
  · intro other
    rw [hstore, Function.update_apply]
    split
    · rename_i heq
      rw [heq]
    · exact hregistered other

theorem Registered.kills {action : StartupAction n}
    (hregistered : Registered pids startup)
    (hkills : KillsRegistered pids startup)
    (hstep : startup.step pids action = some next) :
    KillsRegistered pids next := by
  intro sent hmem
  rcases (step_frame hstep).2 sent hmem with hbefore | htable
  · exact hkills sent hbefore
  · rw [hregistered] at htable
    exact ⟨htable, htable ▸ (pids.positive sent.slot).ne'⟩

/-- No plane has come, and no controller is further than the test for one. -/
structure Idle (air : AirControlC n) : Prop where
  planes : air.planes ≤ 0
  total : air.totalTakeoffs < totalTakeoffsLimit
  places : ∀ controller, air.place controller = .loopGuard ∨
    air.place controller = .planesTest

/-- Before the first `kill`: nothing is pending for the air control and the
radio, and neither has done anything. -/
structure Early (pids : Pids) (startup : Startup n) : Prop where
  segment : startup.segment = true →
    startup.table .airControl = pids.pid .airControl
  created : startup.airPhase ≠ .memoryCreate → startup.segment = true
  radioSlot : startup.table .radio ≠ 0 →
    startup.table .radio = pids.pid .radio
  groundSlot : startup.groundPhase ≠ .memoryOpen →
    startup.groundPhase ≠ .terminated → startup.segment = true ∧
      startup.table .groundControl = pids.pid .groundControl
  handling : startup.ground.frames ≠ [] → startup.segment = true ∧
    startup.table .groundControl = pids.pid .groundControl
  quiet : ∀ signal, startup.pending .airControl signal = false ∧
    startup.pending .radio signal = false
  radio : startup.radio = Radio.start
  air : Idle startup.air

section EarlySteps

theorem store_self (slot : Slot) :
    (startup.store pids slot).table slot = pids.pid slot := by
  simp [Startup.store]

theorem store_of_ne {slot other : Slot} (hne : other ≠ slot) :
    (startup.store pids slot).table other = startup.table other := by
  simp [Startup.store, hne]

/-- Without planes the controllers only test for them. -/
theorem Idle.step {air after : AirControlC n} {controller : Fin n}
    {kills : List Kill} (hidle : Idle air)
    (hstep : air.takeOffsFunction controller = some (after, kills)) :
    kills = [] ∧ Idle after := by
  have goto_idle : ∀ place, place = .loopGuard ∨ place = .planesTest →
      Idle (air.goto controller place) := by
    intro place hplace
    refine ⟨hidle.planes, hidle.total, fun other => ?_⟩
    simp only [AirControlC.goto, Function.update_apply]
    split
    · exact hplace
    · exact hidle.places other
  unfold AirControlC.takeOffsFunction at hstep
  rcases hidle.places controller with hplace | hplace
  · simp only [hplace, if_pos hidle.total, Option.some.injEq,
      Prod.mk.injEq] at hstep
    obtain ⟨rfl, rfl⟩ := hstep
    exact ⟨rfl, goto_idle _ (.inr rfl)⟩
  · simp only [hplace, if_pos hidle.planes, Option.some.injEq,
      Prod.mk.injEq] at hstep
    obtain ⟨rfl, rfl⟩ := hstep
    exact ⟨rfl, goto_idle _ (.inl rfl)⟩

theorem Early.airSetUp (hearly : Early pids startup)
    (hstep : startup.airSetUp pids = some next) : Early pids next := by
  unfold Startup.airSetUp at hstep
  cases hphase : startup.airPhase with
  | memoryCreate =>
      simp only [hphase, Option.some.injEq] at hstep
      subst next
      have hself : (startup.store pids .airControl).table .airControl =
          pids.pid .airControl := store_self _
      have hradio : (startup.store pids .airControl).table .radio =
          startup.table .radio := store_of_ne (by simp)
      have hground : (startup.store pids .airControl).table .groundControl =
          startup.table .groundControl := store_of_ne (by simp)
      exact { hearly with
        segment := fun _ => hself
        created := fun _ => rfl
        radioSlot := by rw [hradio]; exact hearly.radioSlot
        groundSlot := fun hopened halive =>
          ⟨rfl, hground.trans (hearly.groundSlot hopened halive).2⟩
        handling := fun hframes =>
          ⟨rfl, hground.trans (hearly.handling hframes).2⟩ }
  | configureSigusr2
  | fork =>
      simp only [hphase, Option.some.injEq] at hstep
      subst next
      have hsegment := hearly.created (by simp [hphase])
      exact { hearly with created := fun _ => hsegment }
  | running
  | terminated => simp [hphase] at hstep

theorem Early.radioSetUp (hearly : Early pids startup)
    (hstep : startup.radioSetUp pids = some next) : Early pids next := by
  unfold Startup.radioSetUp at hstep
  cases hphase : startup.radioPhase with
  | forked =>
      simp only [hphase, Option.some.injEq] at hstep
      subst next
      have hself : (startup.store pids .radio).table .radio =
          pids.pid .radio := store_self _
      have hair : (startup.store pids .radio).table .airControl =
          startup.table .airControl := store_of_ne (by simp)
      have hground : (startup.store pids .radio).table .groundControl =
          startup.table .groundControl := store_of_ne (by simp)
      exact { hearly with
        segment := by rw [hair]; exact hearly.segment
        radioSlot := fun _ => hself
        groundSlot := by rw [hground]; exact hearly.groundSlot
        handling := by rw [hground]; exact hearly.handling }
  | stored
  | executed
  | sigusr1Set
  | sigusr2Set =>
      simp only [hphase, Option.some.injEq] at hstep
      subst next
      exact { hearly with }
  | unborn
  | running
  | terminated => simp [hphase] at hstep

theorem Early.groundSetUp (hearly : Early pids startup)
    (hstep : startup.groundSetUp pids = some next) : Early pids next := by
  unfold Startup.groundSetUp at hstep
  cases hphase : startup.groundPhase with
  | memoryOpen =>
      simp only [hphase, Option.some.injEq] at hstep
      subst next
      split
      · rename_i hsegment
        have hself : (startup.store pids .groundControl).table .groundControl =
            pids.pid .groundControl := store_self _
        have hair : (startup.store pids .groundControl).table .airControl =
            startup.table .airControl := store_of_ne (by simp)
        have hradio : (startup.store pids .groundControl).table .radio =
            startup.table .radio := store_of_ne (by simp)
        exact { hearly with
          segment := by rw [hair]; exact hearly.segment
          radioSlot := by rw [hradio]; exact hearly.radioSlot
          groundSlot := fun _ _ => ⟨hsegment, hself⟩
          handling := fun _ => ⟨hsegment, hself⟩ }
      · exact { hearly with
          groundSlot := fun _ halive => absurd rfl halive }
  | configureSigterm
  | configureSigusr1
  | configureSigalrm
  | setTimer =>
      simp only [hphase, Option.some.injEq] at hstep
      subst next
      have hslot := hearly.groundSlot (by simp [hphase]) (by simp [hphase])
      exact { hearly with groundSlot := fun _ _ => hslot }
  | running
  | terminated => simp [hphase] at hstep

theorem Early.groundDeliver {signal : Signal} (hearly : Early pids startup)
    (hstep : startup.groundDeliver signal = some next) :
    Early pids next := by
  have hquiet : ∀ other, (startup.take .groundControl signal).pending
        .airControl other = false ∧
      (startup.take .groundControl signal).pending .radio other = false :=
    hearly.quiet
  rw [Startup.groundDeliver, Option.ite_none_right_eq_some] at hstep
  obtain ⟨_, hstep⟩ := hstep
  split at hstep
  · rename_i hhandled
    obtain ⟨ground, _, rfl⟩ := Option.map_eq_some_iff.mp hstep
    have hslot : startup.segment = true ∧
        startup.table .groundControl = pids.pid .groundControl := by
      apply hearly.groundSlot
      · intro hphase
        simp [hphase, GroundPhase.disposition] at hhandled
      · intro hphase
        simp [hphase, GroundPhase.disposition] at hhandled
    exact { hearly with
      handling := fun _ => hslot
      quiet := hquiet }
  · cases hstep
    exact { hearly with
      groundSlot := fun _ halive => absurd rfl halive
      quiet := hquiet }

/-- Until the `kill` of the first `Traffic` the airport sends nothing. -/
theorem Early.step {action : StartupAction n} (hearly : Early pids startup)
    (haction : ¬ (action = .groundResume ∧ startup.ground.notifies = true))
    (hstep : startup.step pids action = some next) :
    Early pids next ∧ next.kills = startup.kills := by
  have silent : Silent pids startup next → next.kills = startup.kills :=
    And.right
  cases action with
  | airSetUp => exact ⟨hearly.airSetUp hstep, silent (airSetUp_frame hstep)⟩
  | radioSetUp => exact ⟨hearly.radioSetUp hstep, silent (radioSetUp_frame hstep)⟩
  | radioFails =>
      rw [Startup.step, Startup.radioFails] at hstep
      split at hstep
      all_goals cases hstep <;> exact ⟨{ hearly with }, rfl⟩
  | groundSetUp =>
      exact ⟨hearly.groundSetUp hstep, silent (groundSetUp_frame hstep)⟩
  | air action =>
      cases action with
      | takeOffsFunction controller =>
          rw [Startup.step, Startup.airStep,
            Option.ite_none_right_eq_some] at hstep
          obtain ⟨⟨air, kills⟩, hair, rfl⟩ := Option.map_eq_some_iff.mp hstep.2
          obtain ⟨rfl, hidle⟩ := hearly.air.step hair
          exact ⟨{ hearly with air := hidle }, rfl⟩
      | sigHandler2 =>
          rw [Startup.step, Startup.airStep,
            Option.ite_none_right_eq_some] at hstep
          simp [(hearly.quiet .sigusr2).1] at hstep
  | airTerminates signal =>
      rw [Startup.step, Startup.airTerminates,
        Option.ite_none_right_eq_some] at hstep
      simp [(hearly.quiet signal).1] at hstep
  | radioDeliver signal =>
      rw [Startup.step, Startup.radioDeliver,
        Option.ite_none_right_eq_some] at hstep
      simp [(hearly.quiet signal).2] at hstep
  | radioResume =>
      rw [Startup.step, Startup.radioResume, hearly.radio] at hstep
      simp [Radio.resume, Radio.start] at hstep
  | radioReturn =>
      rw [Startup.step, Startup.radioReturn, hearly.radio] at hstep
      simp [Radio.mainReturn, Radio.start] at hstep
  | timer =>
      rw [Startup.step, Startup.timer, Option.ite_none_right_eq_some,
        Option.some.injEq] at hstep
      obtain ⟨_, rfl⟩ := hstep
      exact ⟨{ hearly with quiet := hearly.quiet }, rfl⟩
  | groundDeliver signal =>
      exact ⟨hearly.groundDeliver hstep, silent (groundDeliver_frame hstep)⟩
  | groundResume =>
      have hquiet : ¬ startup.ground.notifies = true :=
        fun hnotifies => haction ⟨rfl, hnotifies⟩
      rw [Startup.step, Startup.groundResume,
        Option.ite_none_left_eq_some] at hstep
      obtain ⟨⟨ground, kills⟩, hresume, rfl⟩ :=
        Option.map_eq_some_iff.mp hstep.2
      obtain ⟨hframes, hkills⟩ := GroundControl.resume_kills hresume
      rw [if_neg hquiet] at hkills
      subst kills
      exact ⟨{ hearly with handling := fun _ => hearly.handling hframes }, rfl⟩

/-- The first `kill` is that of `Traffic`, and it finds the pid of the radio
exactly if the child has stored it. -/
theorem Early.groundResume (hearly : Early pids startup)
    (hkills : KillsRegistered pids startup)
    (hnotifies : startup.ground.notifies = true)
    (hstep : startup.step pids .groundResume = some next) :
    (KillsRegistered pids next ↔ startup.table .radio ≠ 0) ∧
      (startup.table .radio ≠ 0 → Registered pids next) := by
  rw [Startup.step, Startup.groundResume, Option.ite_none_left_eq_some] at hstep
  obtain ⟨⟨ground, kills⟩, hresume, rfl⟩ := Option.map_eq_some_iff.mp hstep.2
  obtain ⟨hframes, hsent⟩ := GroundControl.resume_kills hresume
  rw [if_pos hnotifies] at hsent
  subst kills
  obtain ⟨hsegment, hground⟩ := hearly.handling hframes
  refine ⟨⟨fun hall => ?_, fun hradio => ?_⟩, fun hradio => ?_⟩
  · have hsent := hall ⟨.groundControl, .radio, startup.table .radio, .sigusr2⟩
      (List.mem_append_right _ (List.mem_singleton.mpr rfl))
    exact hsent.2
  · intro sent hmem
    rcases List.mem_append.mp hmem with hbefore | hnew
    · exact hkills sent hbefore
    · rw [List.mem_singleton.mp hnew]
      exact ⟨hearly.radioSlot hradio, hradio⟩
  · intro slot
    rw [post_table]
    cases slot with
    | airControl => exact hearly.segment hsegment
    | radio => exact hearly.radioSlot hradio
    | groundControl => exact hground

end EarlySteps

theorem early_start (pids : Pids) : Early pids (Startup.start n) where
  segment := by simp [Startup.start]
  created := by simp [Startup.start]
  radioSlot := by simp [Startup.start]
  groundSlot := by simp [Startup.start]
  handling := by simp [Startup.start, GroundControl.start]
  quiet := fun _ => ⟨rfl, rfl⟩
  radio := rfl
  air := ⟨Int.le_refl 0, Int.natCast_pos.mpr (Nat.succ_pos 19), fun _ => .inl rfl⟩

/-- A process is only ever signalled through its stored pid in exactly the runs
in which `Traffic` makes its `kill` after the child has stored its pid. -/
theorem killsRegistered_iff {schedule : List (StartupAction n)}
    {last : Startup n} (hrun : (startupOf n pids).run schedule = some last) :
    (startupOf n pids).Always (KillsRegistered pids) schedule ↔
      (startupOf n pids).Meets TrafficAfterRadio schedule := by
  apply always_iff_meets_along
    (fun startup => Registered pids startup ∨ Early pids startup)
    (.inr (early_start pids)) _ _ hrun
  · exact fun sent hmem => by contradiction
  · intro startup next action hphase hkills hstep
    rcases hphase with hregistered | hearly
    · have hnext : Registered pids next := hregistered.step hstep
      refine ⟨iff_of_true (hregistered.kills hkills hstep) fun _ => ?_,
        fun _ => .inl hnext⟩
      rw [hregistered]
      exact fun _ => (pids.positive .radio).ne'
    · by_cases haction : action = .groundResume ∧
          startup.ground.notifies = true
      · obtain ⟨rfl, hnotifies⟩ := haction
        obtain ⟨hiff, hregistered⟩ :=
          hearly.groundResume hkills hnotifies hstep
        exact ⟨hiff.trans (by simp [TrafficAfterRadio, hnotifies]),
          fun hafter => .inl (hregistered (hiff.mp hafter))⟩
      · obtain ⟨hnext, hsame⟩ := hearly.step haction hstep
        refine ⟨iff_of_true ?_ fun hresume hnotifies =>
          absurd ⟨hresume, hnotifies⟩ haction, fun _ => .inr hnext⟩
        rw [KillsRegistered, hsame]
        exact hkills

namespace StartupRuns

def samplePid : Slot → Nat
  | .airControl => 11
  | .radio => 12
  | .groundControl => 13

/-- The radio is in the process group of the air control. -/
def sampleGroup : Slot → Nat
  | .airControl | .radio => 11
  | .groundControl => 13

def samplePids : Pids where
  pid := samplePid
  group := sampleGroup
  positive := by
    intro slot
    cases slot <;> decide
  injective := by
    intro left right heq
    cases left <;> cases right <;> first | rfl | (contradiction)

def controller : Fin 1 := ⟨0, by decide⟩

/-- Ground control starts up and has its first tick. -/
def firstTick : List (StartupAction 1) :=
  List.replicate 5 .groundSetUp ++ [.timer, .groundDeliver .sigalrm] ++
    List.replicate 4 .groundResume

/-- The child has stored its pid and the radio is ready; then five planes come
and go. -/
def radioReady : List (StartupAction 1) :=
  List.replicate 3 .airSetUp ++ List.replicate 5 .radioSetUp ++ firstTick ++
    .radioDeliver .sigusr2 :: List.replicate 4 .radioResume ++
    .air .sigHandler2 ::
      List.replicate 25 (.air (.takeOffsFunction controller)) ++
    .radioDeliver .sigusr1 :: List.replicate 3 .radioResume ++
    [.groundDeliver .sigusr1, .groundResume]

/-- The child has been forked and has not run yet. -/
def radioLate : List (StartupAction 1) :=
  List.replicate 3 .airSetUp ++ firstTick

end StartupRuns

open StartupRuns

theorem killsRegistered_iff_radioReady :
    ∃ last, (startupOf 1 samplePids).run radioReady = some last ∧
      last.kills.length = 5 ∧
      (startupOf 1 samplePids).Always (KillsRegistered samplePids)
        radioReady := by
  have hlength : ((startupOf 1 samplePids).run radioReady).map
      (fun last => last.kills.length) = some 5 := by
    decide +kernel
  obtain ⟨last, hrun, hlast⟩ := Option.map_eq_some_iff.mp hlength
  exact ⟨last, hrun, hlast,
    (killsRegistered_iff hrun).mpr (by decide +kernel)⟩

/-- `Traffic` signals its own process group, and ground control dies of it. -/
theorem strayKill_reachable :
    (∃ last, (startupOf 1 samplePids).run
        (radioLate ++ [.groundDeliver .sigusr2]) = some last ∧
      last.kills = [⟨.groundControl, .radio, 0, .sigusr2⟩] ∧
      last.groundPhase = .terminated) ∧
      ¬ ∀ (n : Nat) (pids : Pids) (startup : Startup n),
        (startupOf n pids).Reachable startup →
          KillsRegistered pids startup := by
  have hrun : ((startupOf 1 samplePids).run
      (radioLate ++ [.groundDeliver .sigusr2])).map
        (fun last => (last.kills, last.groundPhase)) =
      some ([⟨.groundControl, .radio, 0, .sigusr2⟩], .terminated) := by
    decide +kernel
  obtain ⟨last, hlast, heq⟩ := Option.map_eq_some_iff.mp hrun
  obtain ⟨hkills, hphase⟩ := Prod.mk.inj heq
  refine ⟨⟨last, hlast, hkills, hphase⟩, ?_⟩
  intro hall
  have hregistered := hall 1 samplePids last ⟨_, hlast⟩
  rw [KillsRegistered, hkills] at hregistered
  exact (hregistered _ (List.mem_singleton.mpr rfl)).2 rfl

end AirportStartup

end OsCourse
