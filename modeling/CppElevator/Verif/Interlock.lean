import CppElevator.Library.Transition
import CppElevator.Verif.ControllerEvents

/-!
# Interlock of door and motor, and armed wake-ups

The state machine keeps two invariants under every event, in any order and for any readings
and request tables between the events: the door, the motor, the mode and the stop flag never
contradict each other, and every mode that waits has the timer that ends it running. Both
cover the states an emergency stop leaves behind, in which the mode may lag behind the door.
-/
namespace CppElevator

open Library

variable {kFloors : Nat}

namespace Mode

/-- Door and motor exclude each other, the motor runs only while moving, and nothing moves
while the stop is in force. -/
structure Interlock (m : Mode kFloors) : Prop where
  /-- An open door holds the motor. -/
  doorOpen_halts : m.doorOpen = true → m.motorDir = .stop
  /-- The motor runs only in the moving mode. -/
  notMoving_halts : m.movingState ≠ .moving → m.motorDir = .stop
  /-- A moving car has its door closed. -/
  moving_closed : m.movingState = .moving → m.doorOpen = false
  /-- The stop holds the motor. -/
  stopped_halts : m.stopped = true → m.motorDir = .stop
  /-- The stop leaves the moving mode. -/
  stopped_notMoving : m.stopped = true → m.movingState ≠ .moving

/-- Each mode that waits for a timer has it running. -/
structure Armed (m : Mode kFloors) : Prop where
  /-- The door mode has its door open. -/
  doorMode_open : m.stopped = false → m.movingState = .doorOpen → m.doorOpen = true
  /-- The door mode has the door timer running. -/
  doorMode_timed : m.stopped = false → m.movingState = .doorOpen → m.doorTimer = true
  /-- Only the door mode has the door open. -/
  open_doorMode : m.stopped = false → m.doorOpen = true → m.movingState = .doorOpen
  /-- A moving car is watched until its motor is found to fail. -/
  moving_watched : m.movingState = .moving → m.floorTimer = true ∨ m.fault = true

/-- The interlock speaks of the door, the motor, the mode and the stop alone. -/
theorem Interlock.frame {m m' : Mode kFloors} (inv : m.Interlock)
    (same : (m'.doorOpen, m'.motorDir, m'.movingState, m'.stopped) =
      (m.doorOpen, m.motorDir, m.movingState, m.stopped)) : m'.Interlock := by
  cases m
  cases m'
  simp only [Prod.mk.injEq] at same
  obtain ⟨rfl, rfl, rfl, rfl⟩ := same
  exact ⟨inv.doorOpen_halts, inv.notMoving_halts, inv.moving_closed, inv.stopped_halts,
    inv.stopped_notMoving⟩

/-- The wake-ups speak of the mode, the door, the timers and the flags alone. -/
theorem Armed.frame {m m' : Mode kFloors} (inv : m.Armed)
    (same : (m'.stopped, m'.movingState, m'.doorOpen, m'.doorTimer, m'.floorTimer, m'.fault) =
      (m.stopped, m.movingState, m.doorOpen, m.doorTimer, m.floorTimer, m.fault)) : m'.Armed := by
  cases m
  cases m'
  simp only [Prod.mk.injEq] at same
  obtain ⟨rfl, rfl, rfl, rfl, rfl, rfl⟩ := same
  exact ⟨inv.doorMode_open, inv.doorMode_timed, inv.open_doorMode, inv.moving_watched⟩

/-- Carrying out a decision that keeps the motor off outside the moving mode, behind a closed
door if it moves, keeps the interlock. -/
theorem Interlock.execute {m : Mode kFloors} (inv : m.Interlock) {pair : DirMovPair}
    (halts : pair.movingState ≠ .moving → pair.motorDir = .stop)
    (closed : pair.movingState = .moving → m.doorOpen = false) : (m.execute pair).Interlock := by
  unfold Mode.execute
  split_ifs with stopped
  · exact inv
  · constructor
    · intro doorOpen
      apply halts
      intro moving
      exact Bool.false_ne_true ((closed moving).symm.trans doorOpen)
    · exact halts
    · exact closed
    · exact fun h => absurd h stopped
    · exact fun h => absurd h stopped

/-- Every decision of the controller keeps the motor off outside the moving mode. -/
theorem chooseDirection_halts (c : Controller kFloors) (floor : Int)
    (notMoving : (c.chooseDirection floor).movingState ≠ .moving) :
    (c.chooseDirection floor).motorDir = .stop := by
  rcases c.chooseDirection_cases floor with ⟨pair, _⟩ | ⟨pair, _⟩ | ⟨pair, _⟩ | ⟨pair, _⟩ <;>
    simp_all

/-- Opening the door of a halted elevator keeps the interlock. -/
theorem Interlock.holdDoor {m : Mode kFloors} (halted : m.motorDir = .stop) :
    m.holdDoor.Interlock where
  doorOpen_halts _ := halted
  notMoving_halts _ := halted
  moving_closed := nofun
  stopped_halts _ := halted
  stopped_notMoving _ := nofun

/-- Closing the door keeps the interlock. -/
theorem Interlock.closeDoor {m : Mode kFloors} (inv : m.Interlock) :
    { m with doorOpen := false }.Interlock where
  doorOpen_halts := nofun
  notMoving_halts := inv.notMoving_halts
  moving_closed _ := rfl
  stopped_halts := inv.stopped_halts
  stopped_notMoving := inv.stopped_notMoving

/-- Halting the motor keeps the interlock, and an arrival does nothing else it speaks of. -/
theorem Interlock.arrive {m : Mode kFloors} (inv : m.Interlock) : m.arrive.Interlock := by
  obtain ⟨doorOpen, notMoving, moving, stopped, stoppedMode⟩ := inv
  unfold Mode.arrive
  constructor <;> dsimp only <;> intros <;> (try split_ifs) <;> simp_all

/-- Carrying out a decision keeps the timers armed when it enters the door mode exactly behind an
open door whose timer runs. -/
theorem Armed.execute {m : Mode kFloors} (inv : m.Armed) {pair : DirMovPair}
    (opens : pair.movingState = .doorOpen → m.doorOpen = true ∧ m.doorTimer = true)
    (closes : m.doorOpen = true → pair.movingState = .doorOpen) : (m.execute pair).Armed := by
  unfold Mode.execute
  split_ifs with stopped
  · exact inv
  · exact ⟨fun _ door => (opens door).1, fun _ door => (opens door).2, fun _ door => closes door,
      fun moving => .inl (decide_eq_true moving)⟩

/-- An arrival watches for the next floor. -/
theorem Armed.arrive {m : Mode kFloors} (inv : m.Armed) : m.arrive.Armed :=
  ⟨inv.doorMode_open, inv.doorMode_timed, inv.open_doorMode, fun _ => .inl rfl⟩

/-- A stopped elevator that does not move waits for its reset alone. -/
theorem armed_of_stopped {m : Mode kFloors} (stopped : m.stopped = true)
    (halted : m.movingState ≠ .moving) : m.Armed where
  doorMode_open running := absurd stopped (by simp [running])
  doorMode_timed running := absurd stopped (by simp [running])
  open_doorMode running := absurd stopped (by simp [running])
  moving_watched moving := absurd moving halted

/-- Outside the door mode a closed door needs no timer. -/
theorem armed_of_closed {m : Mode kFloors} (closed : m.doorOpen = false)
    (left : m.movingState ≠ .doorOpen)
    (watched : m.movingState = .moving → m.floorTimer = true ∨ m.fault = true) : m.Armed where
  doorMode_open _ door := absurd door left
  doorMode_timed _ door := absurd door left
  open_doorMode _ opened := absurd closed (by simp [opened])
  moving_watched := watched

/-- A held door is armed whatever the mode was before. -/
theorem armed_holdDoor (m : Mode kFloors) : m.holdDoor.Armed :=
  ⟨fun _ _ => rfl, fun _ _ => rfl, fun _ _ => rfl, nofun⟩

/-- A closed door is armed as long as the elevator is not left in the door mode. -/
theorem Armed.closeDoor {m : Mode kFloors} (inv : m.Armed)
    (left : m.stopped = false → m.movingState ≠ .doorOpen) : { m with doorOpen := false }.Armed :=
  ⟨fun running door => absurd door (left running), fun running door => absurd door (left running),
    nofun, inv.moving_watched⟩

end Mode

namespace Drive

/-- Every event keeps the interlock. -/
theorem Handles.interlock {d : Drive kFloors} {floorSensor : Int} {event : FsmEvent}
    {m : Mode kFloors} (handled : d.Handles floorSensor event m) (inv : d.mode.Interlock) :
    m.Interlock := by
  have halted (left : d.mode.movingState ≠ .moving) : d.mode.motorDir = .stop :=
    inv.notMoving_halts left
  cases handled with
  | stopBetween | stopAtFloor =>
    exact ⟨fun _ => rfl, fun _ => rfl, by simp, fun _ => rfl, by simp⟩
  | resetOpen opened =>
    exact ⟨inv.doorOpen_halts, fun _ => inv.doorOpen_halts opened, by simp, by simp, by simp⟩
  | resetClosed closed =>
    have released : { d.mode with stopped := false }.Interlock :=
      ⟨inv.doorOpen_halts, inv.notMoving_halts, inv.moving_closed, by simp, by simp⟩
    apply released.execute
    · cases d.mode.inertia <;> simp [resumption]
    · exact fun _ => closed
  | arrivalStops =>
    exact ⟨fun _ => rfl, fun _ => rfl, by simp [Mode.holdDoor], fun _ => rfl,
      by simp [Mode.holdDoor]⟩
  | arrivalPasses => exact inv.arrive
  | updateHolds | timeoutBlocked | timeoutWaits | floorTimeout => exact inv.frame rfl
  | updateWaits | updateBlocked => exact inv
  | updateOpens idle _ =>
    exact (Mode.Interlock.holdDoor (halted (by simp [idle]))).execute (fun _ => rfl) (by simp)
  | updateLeaves _ _ _ => exact inv.closeDoor.execute (Mode.chooseDirection_halts _ _) fun _ => rfl
  | timeoutHolds _ _ _ =>
    have timed : { d.mode with doorTimer := true }.Interlock := inv.frame rfl
    exact timed.execute (fun _ => rfl) (by simp)
  | timeoutLeaves _ _ _ =>
    have timed : { d.mode with doorTimer := false }.Interlock := inv.frame rfl
    exact timed.closeDoor.execute (Mode.chooseDirection_halts _ _) fun _ => rfl

/-- Every event keeps the timers armed. -/
theorem Handles.armed {d : Drive kFloors} {floorSensor : Int} {event : FsmEvent}
    {m : Mode kFloors} (handled : d.Handles floorSensor event m) (inv : d.mode.Armed) :
    m.Armed := by
  have timed : { d.mode with doorTimer := true }.Armed :=
    ⟨inv.doorMode_open, fun _ _ => rfl, inv.open_doorMode, inv.moving_watched⟩
  cases handled with
  | stopBetween | stopAtFloor => exact Mode.armed_of_stopped rfl (by simp)
  | resetOpen opened => exact ⟨fun _ _ => opened, fun _ _ => rfl, fun _ _ => rfl, by simp⟩
  | resetClosed closed =>
    cases d.mode.inertia <;> simp only [resumption, Mode.execute, Bool.false_eq_true,
      ↓reduceIte] <;> exact Mode.armed_of_closed closed (by simp) (by simp)
  | arrivalStops =>
    exact ⟨fun _ _ => rfl, fun _ _ => rfl, fun _ _ => rfl, by simp [Mode.holdDoor]⟩
  | arrivalPasses => exact inv.arrive
  | updateHolds | timeoutBlocked => exact timed
  | updateWaits | updateBlocked => exact inv
  | updateOpens => exact (Mode.armed_holdDoor _).execute (fun _ => ⟨rfl, rfl⟩) fun _ => rfl
  | updateLeaves idle closes _ =>
    exact (inv.closeDoor fun _ => by simp [idle]).execute (fun door => absurd door closes) (by simp)
  | timeoutWaits _ busy =>
    exact ⟨inv.doorMode_open, fun _ door => absurd door busy, inv.open_doorMode, inv.moving_watched⟩
  | timeoutHolds _ doorMode _ =>
    cases stopped : d.mode.stopped
    · exact timed.execute (fun _ => ⟨inv.doorMode_open stopped doorMode, rfl⟩) fun _ => rfl
    · simpa [Mode.execute, stopped] using timed
  | timeoutLeaves _ doorMode closes =>
    unfold Mode.execute
    split_ifs with stopped
    · exact Mode.armed_of_stopped stopped (by simp [doorMode])
    · exact Mode.armed_of_closed rfl closes fun moving => .inl (decide_eq_true moving)
  | floorTimeout =>
    exact ⟨inv.doorMode_open, inv.doorMode_timed, inv.open_doorMode,
      fun moving => .inr (by simpa using .inr moving)⟩

/-- An initialised drive satisfies both invariants, whatever its sensors read. -/
theorem init_interlock_armed (id : Int) (signals : Signals kFloors) :
    (init id signals).mode.Interlock ∧ (init id signals).mode.Armed := by
  obtain ⟨mov, motor, door⟩ := init_idle id signals
  exact ⟨⟨fun _ => motor, fun _ => motor, fun _ => door, fun _ => motor, by simp [mov]⟩,
    ⟨by simp [mov], by simp [mov], by simp [door], by simp [mov]⟩⟩

end Drive

/-- One controller event and everything that may change around it before it runs. -/
structure ControllerInput (kFloors : Nat) where
  /-- Event that runs. -/
  event : FsmEvent
  /-- Clock reading. -/
  now : Nat
  /-- Floor sensor reading taken by the event itself. -/
  floorSensor : Int
  /-- Stored floor the event finds. -/
  floor : Int
  /-- Stored obstruction reading the event finds. -/
  obstruction : Bool
  /-- Request table the event finds. -/
  requests : BoolTable kFloors

/-- The drive as the environment leaves it to an event. -/
def Drive.environment (d : Drive kFloors) (input : ControllerInput kFloors) : Drive kFloors where
  controller := d.controller.setRequests input.requests
  elev := { d.elev with state := { d.elev.state with
    floor := input.floor, obstruction := input.obstruction } }

/-- One controller event after arbitrary changes of the environment. -/
def ControllerStep (d : Drive kFloors) (input : ControllerInput kFloors) (d' : Drive kFloors) :
    Prop :=
  d' = ((d.environment input).fsm input.now input.floorSensor input.event).1

/-- The environment leaves both invariants alone. -/
theorem Drive.environment_interlock_armed {d : Drive kFloors} (input : ControllerInput kFloors)
    (inv : d.mode.Interlock ∧ d.mode.Armed) :
    (d.environment input).mode.Interlock ∧ (d.environment input).mode.Armed :=
  ⟨inv.1.frame rfl, inv.2.frame rfl⟩

/-- Both invariants hold after every run of controller events. -/
theorem interlock_armed_of_run {id : Int} {signals : Signals kFloors} {d : Drive kFloors}
    {trace : List (Transition (Drive kFloors) (ControllerInput kFloors))}
    (run : Run ControllerStep (Drive.init id signals) trace d) :
    d.mode.Interlock ∧ d.mode.Armed := by
  refine run.invariant (fun d => d.mode.Interlock ∧ d.mode.Armed) ?_
    (Drive.init_interlock_armed id signals)
  rintro before after input rfl inv
  have settled := Drive.environment_interlock_armed input inv
  exact ⟨(Drive.handles_fsm _ _ _ _).interlock settled.1, (Drive.handles_fsm _ _ _ _).armed settled.2⟩

/-- The door and the motor interlock: after every sequence of controller events, an open door and
every mode but the moving one hold the motor, a moving car has its door closed, and a stopped
elevator neither drives nor is in the moving mode. -/
theorem door_motor_interlock {id : Int} {signals : Signals kFloors} {d : Drive kFloors}
    {trace : List (Transition (Drive kFloors) (ControllerInput kFloors))}
    (run : Run ControllerStep (Drive.init id signals) trace d) :
    (d.elev.state.doorOpen = true → d.elev.state.motorDir = .stop) ∧
    (d.elev.state.movingState ≠ .moving → d.elev.state.motorDir = .stop) ∧
    (d.elev.state.movingState = .moving → d.elev.state.doorOpen = false) ∧
    (d.elev.state.stopped = true →
      d.elev.state.motorDir = .stop ∧ d.elev.state.movingState ≠ .moving) := by
  have inv := (interlock_armed_of_run run).1
  exact ⟨inv.doorOpen_halts, inv.notMoving_halts, inv.moving_closed,
    fun stopped => ⟨inv.stopped_halts stopped, inv.stopped_notMoving stopped⟩⟩

/-- An idle car at the bottom floor is told of a cab call. -/
def called (floor : Fin Config.kFloors) : ControllerInput Config.kFloors where
  event := .tableUpdate
  now := 0
  floorSensor := 0
  floor := 0
  obstruction := false
  requests := .only floor .cab

/-- The drive after the call. -/
def afterCall (floor : Fin Config.kFloors) : Drive Config.kFloors :=
  (((Drive.init 0 { floorSensor := 0 }).environment (called floor)).fsm 0 0 .tableUpdate).1

/-- A car that departs for a call has its door closed. -/
theorem departure_closed : (afterCall 2).elev.state.movingState = .moving ∧
    (afterCall 2).elev.state.doorOpen = false := by
  have moving : (afterCall 2).elev.state.movingState = .moving := by decide +kernel
  have run : Run ControllerStep (Drive.init 0 { floorSensor := 0 })
      [⟨_, called 2, afterCall 2⟩] (afterCall 2) := .single rfl
  exact ⟨moving, (door_motor_interlock run).2.2.1 moving⟩

/-- Every mode has its wake-up armed: after every sequence of controller events, timeouts fired
at any time included, a running elevator in the door mode has its door open and the door timer
active, an open door of a running elevator is in the door mode, and a moving car is watched by
the floor timer unless its motor has been found to fail. The wake-ups are answered: a floor timeout
of a moving car finds the motor failure, and a door timeout in the door mode closes the door or
starts the door timer anew. -/
theorem wakeups_armed {id : Int} {signals : Signals kFloors} {d : Drive kFloors}
    {trace : List (Transition (Drive kFloors) (ControllerInput kFloors))}
    (run : Run ControllerStep (Drive.init id signals) trace d) :
    (d.elev.state.stopped = false → d.elev.state.movingState = .doorOpen →
      d.elev.state.doorOpen = true ∧ d.controller.doortimer.active = true) ∧
    (d.elev.state.stopped = false → d.elev.state.doorOpen = true →
      d.elev.state.movingState = .doorOpen) ∧
    (d.elev.state.movingState = .moving →
      d.controller.floorTimer.active = true ∨ d.elev.state.fault = true) ∧
    ∀ input d', ControllerStep d input d' →
      (input.event = .floorTimeout → d.elev.state.movingState = .moving →
        d'.elev.state.fault = true) ∧
      (input.event = .doorTimeout → d.elev.state.movingState = .doorOpen →
        d'.elev.state.doorOpen = false ∨
          d'.controller.doortimer = .start input.now Config.kDoorOpenTimeMs) := by
  have inv := (interlock_armed_of_run run).2
  refine ⟨fun running door => ⟨inv.doorMode_open running door, inv.doorMode_timed running door⟩,
    inv.open_doorMode, inv.moving_watched, ?_⟩
  rintro input d' rfl
  refine ⟨fun event moving => ?_, fun event doorMode => ?_⟩
  · have outcome := (d.environment input).mode_fsmFloorTimeout
    have moving' : (d.environment input).mode.movingState = .moving := moving
    rw [event]
    change (d.environment input).fsmFloorTimeout.1.mode.fault = true
    simp [outcome, moving']
  · rw [event]
    exact (d.environment input).fsmDoorTimeout_closes_or_rearms input.now doorMode

/-- A door opened for a call at the floor has its timer running. -/
theorem opened_door_timed : (afterCall 0).elev.state.movingState = .doorOpen ∧
    (afterCall 0).elev.state.doorOpen = true ∧
    (afterCall 0).controller.doortimer.active = true := by
  have passed : (afterCall 0).elev.state.movingState = .doorOpen ∧
      (afterCall 0).elev.state.stopped = false := by
    decide +kernel
  have run : Run ControllerStep (Drive.init 0 { floorSensor := 0 })
      [⟨_, called 0, afterCall 0⟩] (afterCall 0) := .single rfl
  exact ⟨passed.1, (wakeups_armed run).1 passed.2 passed.1⟩

end CppElevator
