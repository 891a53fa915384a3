import CppElevator.Controller

/-!
# What a controller event can do

`Mode` is the part of a drive that its invariants speak about. Each handler of the state
machine acts on the mode alone, and one lemma for each says how, with the guards that lead to
each result and the buttons it returns. The invariants of the later modules are case analyses
over these results; none of them unfolds a handler again.
-/
namespace CppElevator

variable {kFloors : Nat}

namespace RequestTable

/-- A request is at a floor exactly when one of the floor's cells is set. -/
theorem isRequestHere_iff {t : BoolTable kFloors} {floor : Int} :
    isRequestHere t floor = true ↔ ∃ f : Fin kFloors, (f.val : Int) = floor ∧ ∃ b, t f b = true := by
  unfold isRequestHere value
  by_cases range : 0 ≤ floor ∧ floor < kFloors
  · simp only [range, and_self, ↓reduceDIte, Bool.or_eq_true]
    constructor
    · rintro ((set | set) | set) <;> exact ⟨_, by simp [range.1], _, set⟩
    · rintro ⟨f, rfl, b, set⟩
      cases b
      · exact .inl (.inl set)
      · exact .inl (.inr set)
      · exact .inr set
  · simp only [range, ↓reduceDIte, Bool.or_self, Bool.false_eq_true, false_iff]
    rintro ⟨f, rfl, _⟩
    exact range ⟨by omega, by have := f.isLt; omega⟩

/-- A request is above a floor exactly when a cell of a higher floor is set. -/
theorem isRequestAbove_iff {t : BoolTable kFloors} {floor : Int} :
    isRequestAbove t floor = true ↔ ∃ f : Fin kFloors, floor < f.val ∧ ∃ b, t f b = true := by
  simp only [isRequestAbove, List.any_eq_true, List.mem_finRange, true_and, Bool.and_eq_true,
    decide_eq_true_eq, isRequestHere_iff]
  constructor
  · rintro ⟨f, above, g, same, set⟩
    exact ⟨g, by omega, set⟩
  · rintro ⟨f, above, set⟩
    exact ⟨f, above, f, rfl, set⟩

/-- A request is below a floor exactly when a cell of a lower floor is set. -/
theorem isRequestBelow_iff {t : BoolTable kFloors} {floor : Int} :
    isRequestBelow t floor = true ↔ ∃ f : Fin kFloors, (f.val : Int) < floor ∧ ∃ b, t f b = true := by
  simp only [isRequestBelow, List.any_eq_true, List.mem_finRange, true_and, Bool.and_eq_true,
    decide_eq_true_eq, isRequestHere_iff]
  constructor
  · rintro ⟨f, below, g, same, set⟩
    exact ⟨g, by omega, set⟩
  · rintro ⟨f, below, set⟩
    exact ⟨f, below, f, rfl, set⟩

/-- A table with no request at, above or below a floor is empty. -/
theorem eq_zeros_of_no_request {t : BoolTable kFloors} {floor : Int}
    (here : isRequestHere t floor = false) (above : isRequestAbove t floor = false)
    (below : isRequestBelow t floor = false) : t = BoolTable.zeros := by
  funext f b
  by_contra set
  have set : t f b = true := by simpa [BoolTable.zeros] using set
  rcases lt_trichotomy (f.val : Int) floor with lower | same | higher
  · exact Bool.false_ne_true (below.symm.trans (isRequestBelow_iff.2 ⟨f, lower, b, set⟩))
  · exact Bool.false_ne_true (here.symm.trans (isRequestHere_iff.2 ⟨f, same, b, set⟩))
  · exact Bool.false_ne_true (above.symm.trans (isRequestAbove_iff.2 ⟨f, higher, b, set⟩))

/-- No request is above the top floor. -/
theorem isRequestAbove_top {t : BoolTable kFloors} {floor : Int} (top : (kFloors : Int) - 1 ≤ floor) :
    isRequestAbove t floor = false := by
  by_contra above
  obtain ⟨f, higher, _⟩ := isRequestAbove_iff.1 (Bool.of_not_eq_false above)
  have := f.isLt
  omega

/-- No request is below the bottom floor. -/
theorem isRequestBelow_bottom {t : BoolTable kFloors} {floor : Int} (bottom : floor ≤ 0) :
    isRequestBelow t floor = false := by
  by_contra below
  obtain ⟨f, lower, _⟩ := isRequestBelow_iff.1 (Bool.of_not_eq_false below)
  omega

end RequestTable

namespace Controller

open RequestTable

/-- The four decisions of `chooseDirection` and what each says about the table. -/
theorem chooseDirection_cases (c : Controller kFloors) (floor : Int) :
    (c.chooseDirection floor = ⟨.up, .moving⟩ ∧ isRequestAbove c.requests floor = true) ∨
    (c.chooseDirection floor = ⟨.down, .moving⟩ ∧ isRequestBelow c.requests floor = true) ∨
    (c.chooseDirection floor = ⟨.stop, .doorOpen⟩ ∧ isRequestHere c.requests floor = true) ∨
    (c.chooseDirection floor = ⟨.stop, .idle⟩ ∧ c.requests = BoolTable.zeros) := by
  cases above : isRequestAbove c.requests floor <;>
    cases here : isRequestHere c.requests floor <;>
    cases below : isRequestBelow c.requests floor <;>
    cases dir : c.inertia <;>
    simp [chooseDirection, above, here, below, dir]
  all_goals exact eq_zeros_of_no_request here above below

/-- A decision to go up is made below the top floor. -/
theorem floor_lt_of_chooseDirection_up {c : Controller kFloors} {floor : Int}
    (up : (c.chooseDirection floor).motorDir = .up) : floor < (kFloors : Int) - 1 := by
  by_contra top
  have none := isRequestAbove_top (t := c.requests) (not_lt.1 top)
  rcases c.chooseDirection_cases floor with ⟨_, above⟩ | ⟨pair, _⟩ | ⟨pair, _⟩ | ⟨pair, _⟩
  · exact Bool.false_ne_true (none.symm.trans above)
  all_goals simp [pair] at up

/-- A decision to go down is made above the bottom floor. -/
theorem floor_pos_of_chooseDirection_down {c : Controller kFloors} {floor : Int}
    (down : (c.chooseDirection floor).motorDir = .down) : 0 < floor := by
  by_contra bottom
  have none := isRequestBelow_bottom (t := c.requests) (not_lt.1 bottom)
  rcases c.chooseDirection_cases floor with ⟨pair, _⟩ | ⟨_, below⟩ | ⟨pair, _⟩ | ⟨pair, _⟩
  · simp [pair] at down
  · exact Bool.false_ne_true (none.symm.trans below)
  all_goals simp [pair] at down

/-- A car that goes up stops at the top floor at the latest. -/
theorem shouldStop_top {c : Controller kFloors} {floor : Int} (up : c.inertia = .up)
    (top : (kFloors : Int) - 1 ≤ floor) : c.shouldStop floor = true := by
  simp [shouldStop, up, isRequestAbove_top top]

/-- A car that goes down stops at the bottom floor at the latest. -/
theorem shouldStop_bottom {c : Controller kFloors} {floor : Int} (down : c.inertia = .down)
    (bottom : floor ≤ 0) : c.shouldStop floor = true := by
  simp [shouldStop, down, isRequestBelow_bottom bottom]

end Controller

/-- The part of a drive that its invariants speak about. -/
structure Mode (kFloors : Nat) where
  /-- Last floor the sensor has read. -/
  floor : Int
  /-- Floor at the last check for an arrival. -/
  prevFloor : Int
  /-- Emergency stop in force. -/
  stopped : Bool
  /-- Door open. -/
  doorOpen : Bool
  /-- Obstruction switch on. -/
  obstruction : Bool
  /-- Motor failure detected. -/
  fault : Bool
  /-- Last motor command. -/
  motorDir : MotorDir
  /-- Mode of the state machine. -/
  movingState : MovingState
  /-- Direction of the last movement. -/
  inertia : Inertia
  /-- Door timer active. -/
  doorTimer : Bool
  /-- Floor timer active. -/
  floorTimer : Bool
  /-- Orders to serve. -/
  requests : BoolTable kFloors
  /-- Orders at the last check for a table update. -/
  prevRequests : BoolTable kFloors
  /-- Whether the door was opened in the current step. -/
  opened : Bool

/-- The mode of a drive. -/
def Drive.mode (d : Drive kFloors) : Mode kFloors where
  floor := d.elev.state.floor
  prevFloor := d.elev.prevFloor
  stopped := d.elev.state.stopped
  doorOpen := d.elev.state.doorOpen
  obstruction := d.elev.state.obstruction
  fault := d.elev.state.fault
  motorDir := d.elev.state.motorDir
  movingState := d.elev.state.movingState
  inertia := d.controller.inertia
  doorTimer := d.controller.doortimer.active
  floorTimer := d.controller.floorTimer.active
  requests := d.controller.requests
  prevRequests := d.controller.prevRequests
  opened := decide (Command.doorOpenLamp true ∈ d.elev.commands)

namespace Mode

/-- The mode after a decision is carried out; a stopped elevator carries out none. -/
def execute (m : Mode kFloors) (pair : DirMovPair) : Mode kFloors :=
  if m.stopped then m
  else { m with motorDir := pair.motorDir, movingState := pair.movingState,
                floorTimer := decide (pair.movingState = .moving),
                inertia := m.inertia.turned pair.motorDir }

/-- What carrying out a decision leaves alone. -/
theorem execute_frame (m : Mode kFloors) (pair : DirMovPair) :
    (m.execute pair).floor = m.floor ∧ (m.execute pair).prevFloor = m.prevFloor ∧
      (m.execute pair).doorOpen = m.doorOpen ∧ (m.execute pair).opened = m.opened := by
  unfold execute
  split_ifs <;> exact ⟨rfl, rfl, rfl, rfl⟩

/-- The mode after the door is opened and its timer started. -/
def holdDoor (m : Mode kFloors) : Mode kFloors :=
  { m with doorOpen := true, movingState := .doorOpen, doorTimer := true, opened := true }

/-- The mode after an arrival, whether or not the car stops: the fault is cleared, the next floor
is expected, and at an end floor the motor halts. -/
def arrive (m : Mode kFloors) : Mode kFloors :=
  { m with motorDir := if m.floor = 0 ∨ m.floor = kFloors then .stop else m.motorDir,
           fault := false, floorTimer := true }

end Mode

namespace Drive

open Config

/-- An initialised drive is idle behind a closed door. -/
theorem init_idle (id : Int) (signals : Signals kFloors) :
    (init id signals).mode.movingState = .idle ∧ (init id signals).mode.motorDir = .stop ∧
      (init id signals).mode.doorOpen = false := by
  simp only [init, Elevator.init, mode, ElevatorState.setFloor]
  split_ifs <;> exact ⟨rfl, rfl, rfl⟩

/-- Carrying out a decision acts on the mode alone. -/
theorem mode_executeDecision (d : Drive kFloors) (now : Nat) (pair : DirMovPair) :
    (d.executeDecision now pair).mode = d.mode.execute pair := by
  cases stopped : d.elev.state.stopped <;> cases moving : decide (pair.movingState = .moving) <;>
    simp_all [executeDecision, Mode.execute, mode, setInertia, startFloorTimer, stopFloorTimer,
      setMovingState, Elevator.setMotorDir, Elevator.send]

/-- Carrying out a stop changes nothing the served buttons depend on. -/
theorem clearCurrentFloor_executeDecision (d : Drive kFloors) (now : Nat)
    (mov : MovingState) :
    (d.executeDecision now ⟨.stop, mov⟩).controller.clearCurrentFloor
        (d.executeDecision now ⟨.stop, mov⟩).elev.state.floor =
      d.controller.clearCurrentFloor d.elev.state.floor := by
  unfold executeDecision
  split_ifs <;> rfl

/-- Starting the door timer shows in its flag alone. -/
theorem mode_startDoorTimer (d : Drive kFloors) (now : Nat) :
    (d.startDoorTimer now).mode = { d.mode with doorTimer := true } := rfl

/-- Opening the door enters the door mode and is noted for the current step. -/
theorem mode_openDoor (d : Drive kFloors) :
    ({ d with elev := d.elev.openDoor } : Drive kFloors).mode =
      { d.mode with doorOpen := true, movingState := .doorOpen, opened := true } := by
  simp [mode, Elevator.openDoor, Elevator.send]

/-- Closing the door opens nothing. -/
theorem mode_closeDoor (d : Drive kFloors) :
    ({ d with elev := d.elev.closeDoor } : Drive kFloors).mode =
      { d.mode with doorOpen := false } := by
  simp [mode, Elevator.closeDoor, Elevator.send]

/-- With the obstruction off the door closes before the decision is carried out; with it on
nothing the mode shows changes. -/
theorem mode_closeDoorAndExecute (d : Drive kFloors) (now : Nat) (pair : DirMovPair) :
    (d.closeDoorAndExecute now pair).mode =
      if d.mode.obstruction then d.mode else { d.mode with doorOpen := false }.execute pair := by
  unfold closeDoorAndExecute tryCloseDoor
  cases obstruction : d.elev.state.obstruction
  · have off : d.mode.obstruction = false := obstruction
    simp only [Bool.false_eq_true, ↓reduceIte, mode_executeDecision, mode_closeDoor, off]
  · have on : d.mode.obstruction = true := obstruction
    simp only [↓reduceIte, Bool.false_eq_true, on]
    split_ifs with expired
    · have active : d.mode.doorTimer = true := Timer.active_of_expired expired
      rw [mode_startDoorTimer, ← active]
    · rfl

/-- An emergency stop halts the motor; at a floor it opens the door. -/
theorem mode_fsmEmergencyStop (d : Drive kFloors) (now : Nat) (floorSensor : Int) :
    (d.fsmEmergencyStop now floorSensor).1.mode =
      let halted := { d.mode with stopped := true, motorDir := .stop, movingState := .idle,
                                  floorTimer := false }
      if floorSensor = kBetweenFloors then halted
      else { halted with doorOpen := true, doorTimer := true,
                         opened := d.mode.opened || !d.mode.doorOpen } := by
  by_cases between : floorSensor = kBetweenFloors <;> cases door : d.elev.state.doorOpen <;>
    simp [fsmEmergencyStop, between, door, mode, setMovingState, stopFloorTimer, startDoorTimer,
      Elevator.openDoor, Elevator.setMotorDir, Elevator.setStopLamp, Elevator.send]

/-- The decision a reset takes behind a closed door: resume the last direction. -/
def resumption : Inertia → DirMovPair
  | .up => ⟨.up, .moving⟩
  | .down => ⟨.down, .moving⟩
  | .none => ⟨.stop, .idle⟩

/-- A reset returns to the open door, or resumes the last direction behind a closed one. -/
theorem fsmEmergencyStopReset_cases (d : Drive kFloors) (now : Nat) :
    (d.mode.doorOpen = true ∧
      (d.fsmEmergencyStopReset now).1.mode =
        { d.mode with stopped := false, movingState := .doorOpen, doorTimer := true } ∧
      (d.fsmEmergencyStopReset now).2 = d.controller.clearCurrentFloor d.elev.state.floor) ∨
    (d.mode.doorOpen = false ∧
      (d.fsmEmergencyStopReset now).1.mode =
        { d.mode with stopped := false }.execute (resumption d.mode.inertia) ∧
      (d.fsmEmergencyStopReset now).2 = kNoClear) := by
  let released := { d.elev with state := { d.elev.state with stopped := false } }
  let r : Drive kFloors := { d with elev := released.setStopLamp false }
  have lamp : r.mode = { d.mode with stopped := false } := by
    simp [r, released, mode, Elevator.setStopLamp, Elevator.send]
  cases door : d.elev.state.doorOpen
  · refine .inr ⟨door, ?_, ?_⟩
    · have outcome : d.fsmEmergencyStopReset now =
          (r.executeDecision now (resumption d.controller.inertia), kNoClear) := by
        change (if d.elev.state.doorOpen then _ else _) = _
        rw [door]
        rfl
      rw [outcome, mode_executeDecision, lamp]
      rfl
    · simp [fsmEmergencyStopReset, door, Elevator.setStopLamp, Elevator.send]
  · refine .inl ⟨door, ?_, ?_⟩ <;>
      simp [fsmEmergencyStopReset, door, mode, setMovingState, startDoorTimer,
        Elevator.setStopLamp, Elevator.send]

/-- The results of a table update. In the door mode a stop that serves an order restarts the
timer; an idle elevator opens the door for an order at its floor, and for any other decision
closes it and carries the decision out. -/
theorem fsmTableUpdate_cases (d : Drive kFloors) (now : Nat) :
    (d.mode.movingState = .doorOpen ∧ d.controller.shouldStop d.mode.floor = true ∧
      (d.fsmTableUpdate now).1.mode = { d.mode with doorTimer := true } ∧
      (d.fsmTableUpdate now).2 = d.controller.clearCurrentFloor d.mode.floor) ∨
    (d.mode.movingState ≠ .idle ∧ (d.fsmTableUpdate now).1.mode = d.mode ∧
      (d.fsmTableUpdate now).2 = kNoClear) ∨
    (d.mode.movingState = .idle ∧
      d.controller.chooseDirection d.mode.floor = ⟨.stop, .doorOpen⟩ ∧
      (d.fsmTableUpdate now).1.mode = d.mode.holdDoor.execute ⟨.stop, .doorOpen⟩) ∨
    (d.mode.movingState = .idle ∧
      (d.controller.chooseDirection d.mode.floor).movingState ≠ .doorOpen ∧
      (d.fsmTableUpdate now).1.mode =
        (if d.mode.obstruction then d.mode else { d.mode with doorOpen := false }.execute
          (d.controller.chooseDirection d.mode.floor)) ∧
      (d.fsmTableUpdate now).2 = kNoClear) := by
  cases mov : d.mode.movingState with
  | doorOpen =>
    have mov' : d.elev.state.movingState = .doorOpen := mov
    cases serves : d.controller.shouldStop d.mode.floor
    · have serves' : d.controller.shouldStop d.elev.state.floor = false := serves
      exact .inr (.inl ⟨by simp, by simp [fsmTableUpdate, mov', serves'],
        by simp [fsmTableUpdate, mov', serves']⟩)
    · have serves' : d.controller.shouldStop d.elev.state.floor = true := serves
      refine .inl ⟨rfl, rfl, ?_, ?_⟩
      · simp only [fsmTableUpdate, mov', serves', ↓reduceIte, mode_startDoorTimer]
      · simp only [fsmTableUpdate, mov', serves', ↓reduceIte]
        rfl
  | moving =>
    have mov' : d.elev.state.movingState = .moving := mov
    exact .inr (.inl ⟨by simp, by simp [fsmTableUpdate, mov'], by simp [fsmTableUpdate, mov']⟩)
  | err =>
    have mov' : d.elev.state.movingState = .err := mov
    exact .inr (.inl ⟨by simp, by simp [fsmTableUpdate, mov'], by simp [fsmTableUpdate, mov']⟩)
  | idle =>
    have mov' : d.elev.state.movingState = .idle := mov
    rcases d.controller.chooseDirection_cases d.mode.floor with
      ⟨pair, _⟩ | ⟨pair, _⟩ | ⟨pair, here⟩ | ⟨pair, _⟩
    case inr.inr.inl =>
      obtain ⟨f, same, _⟩ := RequestTable.isRequestHere_iff.1 here
      have pair' : d.controller.chooseDirection d.elev.state.floor = ⟨.stop, .doorOpen⟩ := pair
      have floor : d.elev.state.floor ≠ kBetweenFloors := by
        have same' : (f.val : Int) = d.elev.state.floor := same
        unfold kBetweenFloors
        omega
      refine .inr (.inr (.inl ⟨rfl, pair, ?_⟩))
      simp only [fsmTableUpdate, mov', pair', ↓reduceIte, floor, ne_eq, not_false_eq_true,
        mode_executeDecision, mode_startDoorTimer, mode_openDoor]
      rfl
    all_goals
      have pair' := pair
      change d.controller.chooseDirection d.elev.state.floor = _ at pair'
      refine .inr (.inr (.inr ⟨rfl, by simp [pair], ?_, ?_⟩))
      · simp only [fsmTableUpdate, mov', pair', pair, reduceCtorEq, ↓reduceIte,
          mode_closeDoorAndExecute]
      · simp only [fsmTableUpdate, mov', pair', reduceCtorEq, ↓reduceIte]

/-- An idle elevator that opens the door for a table update serves the orders of its floor. -/
theorem fsmTableUpdate_opens_buttons {d : Drive kFloors} (now : Nat)
    (idle : d.mode.movingState = .idle)
    (opens : d.controller.chooseDirection d.mode.floor = ⟨.stop, .doorOpen⟩) :
    (d.fsmTableUpdate now).2 = d.controller.clearCurrentFloor d.mode.floor := by
  have idle' : d.elev.state.movingState = .idle := idle
  have opens' : d.controller.chooseDirection d.elev.state.floor = ⟨.stop, .doorOpen⟩ := opens
  simp only [fsmTableUpdate, idle', opens', ↓reduceIte, executeDecision]
  split_ifs <;> rfl

/-- The floor indicator does not show in the mode. -/
theorem mode_setFloorIndicator (d : Drive kFloors) :
    ({ d with elev := d.elev.setFloorIndicator } : Drive kFloors).mode = d.mode := by
  unfold Elevator.setFloorIndicator
  split_ifs with between
  · rfl
  · simp [mode, Elevator.send]

/-- Halting the motor shows in its command alone. -/
theorem mode_halt (d : Drive kFloors) :
    ({ d with elev := d.elev.setMotorDir .stop } : Drive kFloors).mode =
      { d.mode with motorDir := .stop } := by
  simp [mode, Elevator.setMotorDir, Elevator.send]

/-- Stopping at a floor halts the motor, opens the door and expects no further floor. -/
theorem mode_stopAndOpenDoor (d : Drive kFloors) (now : Nat) :
    (d.stopAndOpenDoor now).mode =
      { d.mode.holdDoor with motorDir := .stop, floorTimer := false } := by
  simp [stopAndOpenDoor, mode, Mode.holdDoor, startDoorTimer, stopFloorTimer, Elevator.openDoor,
    Elevator.setMotorDir, Elevator.send]

/-- The results of an arrival: a moving car whose controller stops here opens the door. -/
theorem fsmFloorArrival_cases (d : Drive kFloors) (now : Nat) :
    (d.mode.movingState = .moving ∧ d.controller.shouldStop d.mode.floor = true ∧
      (d.fsmFloorArrival now).1.mode =
        { d.mode.arrive.holdDoor with motorDir := .stop, floorTimer := false } ∧
      (d.fsmFloorArrival now).2 = d.controller.clearCurrentFloor d.mode.floor) ∨
    ((d.mode.movingState ≠ .moving ∨ d.controller.shouldStop d.mode.floor = false) ∧
      (d.fsmFloorArrival now).1.mode = d.mode.arrive ∧ (d.fsmFloorArrival now).2 = kNoClear) := by
  let g : Drive kFloors :=
    if d.elev.state.floor = 0 ∨ d.elev.state.floor = kFloors
      then { d with elev := d.elev.setMotorDir .stop } else d
  let i : Drive kFloors := { g with elev := g.elev.setFloorIndicator }
  let a : Drive kFloors :=
    { i with elev := { i.elev with state := { i.elev.state with fault := false } } }.startFloorTimer now
  have guarded : g.mode = { d.mode with
      motorDir := if d.mode.floor = 0 ∨ d.mode.floor = kFloors then .stop else d.mode.motorDir } := by
    by_cases endFloor : d.elev.state.floor = 0 ∨ d.elev.state.floor = kFloors
    · have endMode : d.mode.floor = 0 ∨ d.mode.floor = kFloors := endFloor
      simp only [g, if_pos endFloor, if_pos endMode, mode_halt]
    · have midMode : ¬(d.mode.floor = 0 ∨ d.mode.floor = kFloors) := endFloor
      simp only [g, if_neg endFloor, if_neg midMode]
  have arrived : a.mode = d.mode.arrive := by
    have timed : a.mode = { i.mode with fault := false, floorTimer := true } := rfl
    rw [timed, mode_setFloorIndicator, guarded]
    rfl
  have controller : a.controller.shouldStop d.mode.floor = d.controller.shouldStop d.mode.floor ∧
      a.controller.clearCurrentFloor d.mode.floor =
        d.controller.clearCurrentFloor d.mode.floor := by
    by_cases endFloor : d.elev.state.floor = 0 ∨ d.elev.state.floor = kFloors <;>
      simp [a, i, g, endFloor, startFloorTimer, Controller.shouldStop,
        Controller.clearCurrentFloor]
  have outcome : d.fsmFloorArrival now =
      if d.mode.movingState ≠ .moving ∨ a.controller.shouldStop d.mode.floor = false then
        (a, kNoClear)
      else (a.stopAndOpenDoor now, a.controller.clearCurrentFloor d.mode.floor) := rfl
  rw [outcome, controller.1, controller.2]
  by_cases passes : d.mode.movingState ≠ .moving ∨ d.controller.shouldStop d.mode.floor = false
  · rw [if_pos passes]
    exact .inr ⟨passes, arrived, rfl⟩
  · rw [if_neg passes]
    obtain ⟨moving, stops⟩ := not_or.1 passes
    refine .inl ⟨not_not.1 moving, by simpa using stops, ?_, rfl⟩
    rw [mode_stopAndOpenDoor, arrived]

/-- The results of a door timeout. An obstruction restarts the timer; outside the door mode the
timer stays off; in it the door is held for another order at the floor, or closed. -/
theorem fsmDoorTimeout_cases (d : Drive kFloors) (now : Nat) :
    (d.mode.obstruction = true ∧ (d.fsmDoorTimeout now).1.mode = { d.mode with doorTimer := true } ∧
      (d.fsmDoorTimeout now).2 = kNoClear) ∨
    (d.mode.obstruction = false ∧ d.mode.movingState ≠ .doorOpen ∧
      (d.fsmDoorTimeout now).1.mode = { d.mode with doorTimer := false } ∧
      (d.fsmDoorTimeout now).2 = kNoClear) ∨
    (d.mode.obstruction = false ∧ d.mode.movingState = .doorOpen ∧
      d.controller.chooseDirection d.mode.floor = ⟨.stop, .doorOpen⟩ ∧
      (d.fsmDoorTimeout now).1.mode =
        { d.mode with doorTimer := true }.execute ⟨.stop, .doorOpen⟩ ∧
      (d.fsmDoorTimeout now).2 = d.controller.clearCurrentFloor d.mode.floor) ∨
    (d.mode.obstruction = false ∧ d.mode.movingState = .doorOpen ∧
      (d.controller.chooseDirection d.mode.floor).movingState ≠ .doorOpen ∧
      (d.fsmDoorTimeout now).1.mode =
        { d.mode with doorTimer := false, doorOpen := false }.execute
          (d.controller.chooseDirection d.mode.floor) ∧
      (d.fsmDoorTimeout now).2 = kNoClear) := by
  let t : Drive kFloors :=
    { d with controller := { d.controller with doortimer := d.controller.doortimer.stop } }
  have timer : t.mode = { d.mode with doorTimer := false } := rfl
  have decision : t.controller.chooseDirection d.mode.floor =
      d.controller.chooseDirection d.mode.floor := rfl
  have outcome : d.fsmDoorTimeout now =
      if d.mode.obstruction then (t.startDoorTimer now, kNoClear)
      else if d.mode.movingState ≠ .doorOpen then (t, kNoClear)
      else
        let pair := t.controller.chooseDirection d.mode.floor
        if pair.movingState = .doorOpen then
          let e := (t.executeDecision now pair).startDoorTimer now
          (e, e.controller.clearCurrentFloor e.elev.state.floor)
        else (t.closeDoorAndExecute now pair, kNoClear) := rfl
  rw [outcome, decision]
  cases obstruction : d.mode.obstruction
  · by_cases mov : d.mode.movingState = .doorOpen
    · by_cases opens : (d.controller.chooseDirection d.mode.floor).movingState = .doorOpen
      · have pair : d.controller.chooseDirection d.mode.floor = ⟨.stop, .doorOpen⟩ := by
          rcases d.controller.chooseDirection_cases d.mode.floor with
            ⟨pair, _⟩ | ⟨pair, _⟩ | ⟨pair, _⟩ | ⟨pair, _⟩ <;> simp_all
        refine .inr (.inr (.inl ⟨rfl, mov, pair, ?_, ?_⟩))
        · simp only [Bool.false_eq_true, ↓reduceIte, mov, ne_eq, not_true_eq_false, pair,
            mode_startDoorTimer, mode_executeDecision, timer]
          cases stopped : d.mode.stopped <;> simp [Mode.execute]
        · have kept := t.clearCurrentFloor_executeDecision now .doorOpen
          simp only [Bool.false_eq_true, ↓reduceIte, mov, ne_eq, not_true_eq_false, pair]
          exact kept
      · refine .inr (.inr (.inr ⟨rfl, mov, opens, ?_⟩))
        simp [mov, opens, mode_closeDoorAndExecute, timer, obstruction]
    · exact .inr (.inl ⟨rfl, mov, by simp [mov, timer], by simp [mov]⟩)
  · exact .inl ⟨rfl, by simp [mode_startDoorTimer, timer], by simp⟩

/-- A door timeout in the door mode closes the door or starts the door timer anew. -/
theorem fsmDoorTimeout_closes_or_rearms {d : Drive kFloors} (now : Nat)
    (doorMode : d.mode.movingState = .doorOpen) :
    (d.fsmDoorTimeout now).1.mode.doorOpen = false ∨
      (d.fsmDoorTimeout now).1.controller.doortimer = .start now kDoorOpenTimeMs := by
  have doorMode' : d.elev.state.movingState = .doorOpen := doorMode
  rcases d.fsmDoorTimeout_cases now with
    ⟨obstruction, _, _⟩ | ⟨_, busy, _, _⟩ | ⟨off, _, pair, _, _⟩ | ⟨_, _, _, mode, _⟩
  · have obstruction' : d.elev.state.obstruction = true := obstruction
    right
    simp [fsmDoorTimeout, obstruction', startDoorTimer]
  · exact absurd doorMode busy
  · have off' : d.elev.state.obstruction = false := off
    have pair' : d.controller.chooseDirection d.elev.state.floor = ⟨.stop, .doorOpen⟩ := pair
    right
    have decision (timer : Timer) : { d.controller with doortimer := timer }.chooseDirection
        d.elev.state.floor = ⟨.stop, .doorOpen⟩ := pair'
    simp [fsmDoorTimeout, off', doorMode', decision, startDoorTimer]
  · left
    rw [mode, (Mode.execute_frame _ _).2.2.1]

/-- The result of a floor timeout: a moving car has failed. -/
theorem mode_fsmFloorTimeout (d : Drive kFloors) :
    d.fsmFloorTimeout.1.mode =
      { d.mode with floorTimer := false,
                    fault := d.mode.fault || decide (d.mode.movingState = .moving) } := by
  by_cases moving : d.elev.state.movingState = .moving <;>
    simp [fsmFloorTimeout, stopFloorTimer, mode, moving]

/-- What an event does to the mode, with the guards that lead there. -/
inductive Handles (d : Drive kFloors) (floorSensor : Int) : FsmEvent → Mode kFloors → Prop where
  /-- A stop between floors. -/
  | stopBetween (between : floorSensor = kBetweenFloors) :
      Handles d floorSensor .emergencyStop
        { d.mode with stopped := true, motorDir := .stop, movingState := .idle, floorTimer := false }
  /-- A stop at a floor opens the door. -/
  | stopAtFloor (atFloor : floorSensor ≠ kBetweenFloors) :
      Handles d floorSensor .emergencyStop
        { d.mode with stopped := true, motorDir := .stop, movingState := .idle, floorTimer := false,
                      doorOpen := true, doorTimer := true,
                      opened := d.mode.opened || !d.mode.doorOpen }
  /-- A reset returns to the open door. -/
  | resetOpen (opened : d.mode.doorOpen = true) :
      Handles d floorSensor .emergencyStopReset
        { d.mode with stopped := false, movingState := .doorOpen, doorTimer := true }
  /-- A reset resumes the last direction. -/
  | resetClosed (closed : d.mode.doorOpen = false) :
      Handles d floorSensor .emergencyStopReset
        ({ d.mode with stopped := false }.execute (resumption d.mode.inertia))
  /-- An arrival stops the car. -/
  | arrivalStops (moving : d.mode.movingState = .moving)
      (stops : d.controller.shouldStop d.mode.floor = true) :
      Handles d floorSensor .floorArrival
        { d.mode.arrive.holdDoor with motorDir := .stop, floorTimer := false }
  /-- An arrival lets the car pass. -/
  | arrivalPasses (passes : d.mode.movingState ≠ .moving ∨
        d.controller.shouldStop d.mode.floor = false) :
      Handles d floorSensor .floorArrival d.mode.arrive
  /-- A table update holds the door. -/
  | updateHolds (doorMode : d.mode.movingState = .doorOpen)
      (stops : d.controller.shouldStop d.mode.floor = true) :
      Handles d floorSensor .tableUpdate { d.mode with doorTimer := true }
  /-- A table update is left for later. -/
  | updateWaits (busy : d.mode.movingState ≠ .idle) : Handles d floorSensor .tableUpdate d.mode
  /-- A table update opens the door. -/
  | updateOpens (idle : d.mode.movingState = .idle)
      (opens : d.controller.chooseDirection d.mode.floor = ⟨.stop, .doorOpen⟩) :
      Handles d floorSensor .tableUpdate (d.mode.holdDoor.execute ⟨.stop, .doorOpen⟩)
  /-- A table update finds the door obstructed. -/
  | updateBlocked (idle : d.mode.movingState = .idle)
      (closes : (d.controller.chooseDirection d.mode.floor).movingState ≠ .doorOpen)
      (obstruction : d.mode.obstruction = true) : Handles d floorSensor .tableUpdate d.mode
  /-- A table update closes the door and leaves. -/
  | updateLeaves (idle : d.mode.movingState = .idle)
      (closes : (d.controller.chooseDirection d.mode.floor).movingState ≠ .doorOpen)
      (free : d.mode.obstruction = false) :
      Handles d floorSensor .tableUpdate
        ({ d.mode with doorOpen := false }.execute (d.controller.chooseDirection d.mode.floor))
  /-- A door timeout finds the door obstructed. -/
  | timeoutBlocked (obstruction : d.mode.obstruction = true) :
      Handles d floorSensor .doorTimeout { d.mode with doorTimer := true }
  /-- A door timeout outside the door mode. -/
  | timeoutWaits (free : d.mode.obstruction = false) (busy : d.mode.movingState ≠ .doorOpen) :
      Handles d floorSensor .doorTimeout { d.mode with doorTimer := false }
  /-- A door timeout holds the door. -/
  | timeoutHolds (free : d.mode.obstruction = false) (doorMode : d.mode.movingState = .doorOpen)
      (opens : d.controller.chooseDirection d.mode.floor = ⟨.stop, .doorOpen⟩) :
      Handles d floorSensor .doorTimeout
        ({ d.mode with doorTimer := true }.execute ⟨.stop, .doorOpen⟩)
  /-- A door timeout closes the door and leaves. -/
  | timeoutLeaves (free : d.mode.obstruction = false) (doorMode : d.mode.movingState = .doorOpen)
      (closes : (d.controller.chooseDirection d.mode.floor).movingState ≠ .doorOpen) :
      Handles d floorSensor .doorTimeout
        ({ d.mode with doorTimer := false, doorOpen := false }.execute
          (d.controller.chooseDirection d.mode.floor))
  /-- A floor timeout finds a moving car to have failed. -/
  | floorTimeout :
      Handles d floorSensor .floorTimeout
        { d.mode with floorTimer := false,
                      fault := d.mode.fault || decide (d.mode.movingState = .moving) }

/-- Every event does what its handler says. -/
theorem handles_fsm (d : Drive kFloors) (now : Nat) (floorSensor : Int) (event : FsmEvent) :
    d.Handles floorSensor event (d.fsm now floorSensor event).1.mode := by
  cases event with
  | emergencyStop =>
    change Handles d _ _ (d.fsmEmergencyStop now floorSensor).1.mode
    rw [mode_fsmEmergencyStop]
    dsimp only
    split_ifs with between
    · exact .stopBetween between
    · exact .stopAtFloor between
  | emergencyStopReset =>
    change Handles d _ _ (d.fsmEmergencyStopReset now).1.mode
    rcases d.fsmEmergencyStopReset_cases now with ⟨door, mode, _⟩ | ⟨door, mode, _⟩ <;> rw [mode]
    · exact .resetOpen door
    · exact .resetClosed door
  | floorArrival =>
    change Handles d _ _ (d.fsmFloorArrival now).1.mode
    rcases d.fsmFloorArrival_cases now with ⟨moving, stops, mode, _⟩ | ⟨passes, mode, _⟩ <;> rw [mode]
    · exact .arrivalStops moving stops
    · exact .arrivalPasses passes
  | tableUpdate =>
    change Handles d _ _ (d.fsmTableUpdate now).1.mode
    rcases d.fsmTableUpdate_cases now with
      ⟨doorMode, stops, mode, _⟩ | ⟨busy, mode, _⟩ | ⟨idle, opens, mode⟩ | ⟨idle, closes, mode, _⟩ <;>
      rw [mode]
    · exact .updateHolds doorMode stops
    · exact .updateWaits busy
    · exact .updateOpens idle opens
    · split_ifs with obstruction
      · exact .updateBlocked idle closes obstruction
      · exact .updateLeaves idle closes (Bool.eq_false_iff.2 obstruction)
  | doorTimeout =>
    change Handles d _ _ (d.fsmDoorTimeout now).1.mode
    rcases d.fsmDoorTimeout_cases now with
      ⟨obstruction, mode, _⟩ | ⟨free, busy, mode, _⟩ | ⟨free, doorMode, opens, mode, _⟩ |
      ⟨free, doorMode, closes, mode, _⟩ <;> rw [mode]
    · exact .timeoutBlocked obstruction
    · exact .timeoutWaits free busy
    · exact .timeoutHolds free doorMode opens
    · exact .timeoutLeaves free doorMode closes
  | floorTimeout =>
    change Handles d _ _ d.fsmFloorTimeout.1.mode
    rw [mode_fsmFloorTimeout]
    exact .floorTimeout

end Drive

end CppElevator
