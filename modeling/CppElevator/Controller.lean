import CppElevator.Elevator

/-!
# The controller

`requests.cpp` and `controller.cpp`. A controller event reads and writes the controller and
the elevator it drives, kept together in `Drive`, and returns the buttons whose orders it
serves. `now` is the clock reading of the event.
-/
namespace CppElevator

variable {kFloors : Nat}

namespace RequestTable

/-- `RequestTable::Value`; floors outside the table hold no request. -/
def value (t : BoolTable kFloors) (floor : Int) (btn : BtnType) : Bool :=
  if h : 0 ≤ floor ∧ floor < kFloors then t ⟨floor.toNat, toNat_lt h⟩ btn else false

/-- `RequestTable::IsRequestHere`. -/
def isRequestHere (t : BoolTable kFloors) (floor : Int) : Bool :=
  value t floor .hallUp || value t floor .hallDown || value t floor .cab

/-- `RequestTable::IsRequestAbove`. -/
def isRequestAbove (t : BoolTable kFloors) (floor : Int) : Bool :=
  (List.finRange kFloors).any fun f => decide (floor < f.val) && isRequestHere t f.val

/-- `RequestTable::IsRequestBelow`. -/
def isRequestBelow (t : BoolTable kFloors) (floor : Int) : Bool :=
  (List.finRange kFloors).any fun f => decide ((f.val : Int) < floor) && isRequestHere t f.val

end RequestTable

/-- `Controller`. -/
structure Controller (kFloors : Nat) where
  /-- Requests at the last call of `requestTableUpdated`. -/
  prevRequests : BoolTable kFloors := BoolTable.zeros
  /-- Orders this elevator has to serve. -/
  requests : BoolTable kFloors := BoolTable.zeros
  /-- Runs while the door is held open. -/
  doortimer : Timer := {}
  /-- Runs while the next floor is expected. -/
  floorTimer : Timer := {}
  /-- Direction of the last movement. -/
  inertia : Inertia := .none

/-- The direction of the last movement, once a motor command has been carried out. -/
def Inertia.turned (inertia : Inertia) : MotorDir → Inertia
  | .up => .up
  | .down => .down
  | _ => inertia

namespace Controller

open RequestTable

/-- `Controller::Init`. -/
def init (c : Controller kFloors) : Controller kFloors :=
  { c with floorTimer := c.floorTimer.stop }

/-- `Controller::SetRequests`. -/
def setRequests (c : Controller kFloors) (table : BoolTable kFloors) : Controller kFloors :=
  { c with requests := table }

/-- `Controller::RequestTableUpdated`. -/
def requestTableUpdated (c : Controller kFloors) : Bool × Controller kFloors :=
  (decide (c.requests ≠ c.prevRequests), { c with prevRequests := c.requests })

/-- `Controller::ChooseDirection`. -/
def chooseDirection (c : Controller kFloors) (floor : Int) : DirMovPair :=
  match c.inertia with
  | .up =>
    if isRequestAbove c.requests floor then ⟨.up, .moving⟩
    else if isRequestHere c.requests floor then ⟨.stop, .doorOpen⟩
    else if isRequestBelow c.requests floor then ⟨.down, .moving⟩
    else ⟨.stop, .idle⟩
  | .down =>
    if isRequestBelow c.requests floor then ⟨.down, .moving⟩
    else if isRequestHere c.requests floor then ⟨.stop, .doorOpen⟩
    else if isRequestAbove c.requests floor then ⟨.up, .moving⟩
    else ⟨.stop, .idle⟩
  | .none =>
    if isRequestHere c.requests floor then ⟨.stop, .doorOpen⟩
    else if isRequestAbove c.requests floor then ⟨.up, .moving⟩
    else if isRequestBelow c.requests floor then ⟨.down, .moving⟩
    else ⟨.stop, .idle⟩

/-- `Controller::ShouldStop`. -/
def shouldStop (c : Controller kFloors) (floor : Int) : Bool :=
  match c.inertia with
  | .down => value c.requests floor .hallDown || value c.requests floor .cab ||
      !isRequestBelow c.requests floor
  | .up => value c.requests floor .hallUp || value c.requests floor .cab ||
      !isRequestAbove c.requests floor
  | .none => true

/-- `Controller::ClearCurrentFloor`: the cab button and the hall buttons a stop serves. -/
def clearCurrentFloor (c : Controller kFloors) (floor : Int) : ButtonFlags :=
  match c.inertia with
  | .up => fun
    | .cab | .hallUp => true
    | .hallDown => !isRequestAbove c.requests floor && !value c.requests floor .hallUp
  | .down => fun
    | .cab | .hallDown => true
    | .hallUp => !isRequestBelow c.requests floor && !value c.requests floor .hallDown
  | .none => fun _ => true

end Controller

/-- A controller and the elevator it drives. -/
structure Drive (kFloors : Nat) where
  /-- The deciding part. -/
  controller : Controller kFloors
  /-- The driven part. -/
  elev : Elevator kFloors

/-- `kNoClear`. -/
def kNoClear : ButtonFlags := ButtonFlags.zeros

namespace Drive

open Config

/-- Start the door timer. -/
def startDoorTimer (d : Drive kFloors) (now : Nat) : Drive kFloors :=
  { d with controller := { d.controller with doortimer := .start now kDoorOpenTimeMs } }

/-- Start the floor timer. -/
def startFloorTimer (d : Drive kFloors) (now : Nat) : Drive kFloors :=
  { d with controller := { d.controller with floorTimer := .start now kFaultTimeoutMs } }

/-- Stop the floor timer. -/
def stopFloorTimer (d : Drive kFloors) : Drive kFloors :=
  { d with controller := { d.controller with floorTimer := d.controller.floorTimer.stop } }

/-- `ElevatorState::SetMovingState` on the driven elevator. -/
def setMovingState (d : Drive kFloors) (mov : MovingState) : Drive kFloors :=
  { d with elev := { d.elev with state := { d.elev.state with movingState := mov } } }

/-- `Controller::SetInertia`; a stop keeps the direction of the last movement. -/
def setInertia (d : Drive kFloors) (dir : MotorDir) : Drive kFloors :=
  let inertia := d.controller.inertia.turned dir
  { controller := { d.controller with inertia := inertia },
    elev := { d.elev with state := { d.elev.state with inertia := inertia } } }

/-- `Controller::ExecuteDecision`. -/
def executeDecision (d : Drive kFloors) (now : Nat) (pair : DirMovPair) : Drive kFloors :=
  if d.elev.state.stopped then d
  else
    let moved := { d with elev := d.elev.setMotorDir pair.motorDir }.setMovingState pair.movingState
    let timed := if pair.movingState = .moving then moved.startFloorTimer now
      else moved.stopFloorTimer
    timed.setInertia pair.motorDir

/-- `Controller::StopAndOpenDoor`. -/
def stopAndOpenDoor (d : Drive kFloors) (now : Nat) : Drive kFloors :=
  ({ d with elev := (d.elev.setMotorDir .stop).openDoor }.startDoorTimer now).stopFloorTimer

/-- `Controller::TryCloseDoor`. -/
def tryCloseDoor (d : Drive kFloors) (now : Nat) : Bool × Drive kFloors :=
  if d.elev.state.obstruction then
    (false, if d.controller.doortimer.expired now then d.startDoorTimer now else d)
  else (true, { d with elev := d.elev.closeDoor })

/-- `if (TryCloseDoor(elev)) ExecuteDecision(elev, pair);`. -/
def closeDoorAndExecute (d : Drive kFloors) (now : Nat) (pair : DirMovPair) : Drive kFloors :=
  let (closed, d) := d.tryCloseDoor now
  if closed then d.executeDecision now pair else d

/-- `Controller::FsmEmergencyStop`. The floor sensor is read once more here. -/
def fsmEmergencyStop (d : Drive kFloors) (now : Nat) (floorSensor : Int) :
    Drive kFloors × ButtonFlags :=
  let stopped := { d.elev with state := { d.elev.state with stopped := true } }
  let halted := { d with elev := (stopped.setMotorDir .stop).setStopLamp true }
  let opened :=
    if floorSensor ≠ kBetweenFloors then
      let opened := if halted.elev.state.doorOpen then halted
        else { halted with elev := halted.elev.openDoor }
      opened.startDoorTimer now
    else halted
  ((opened.setMovingState .idle).stopFloorTimer, kNoClear)

/-- `Controller::FsmEmergencyStopReset`. -/
def fsmEmergencyStopReset (d : Drive kFloors) (now : Nat) : Drive kFloors × ButtonFlags :=
  let floor := d.elev.state.floor
  let released := { d.elev with state := { d.elev.state with stopped := false } }
  let d := { d with elev := released.setStopLamp false }
  -- Reset at DoorOpen
  if d.elev.state.doorOpen then
    ((d.setMovingState .doorOpen).startDoorTimer now, d.controller.clearCurrentFloor floor)
  else
    -- Set new direction after reset
    let pair : DirMovPair := match d.controller.inertia with
      | .up => ⟨.up, .moving⟩
      | .down => ⟨.down, .moving⟩
      | .none => ⟨.stop, .idle⟩
    (d.executeDecision now pair, kNoClear)

/-- `Controller::FsmTableUpdate`. -/
def fsmTableUpdate (d : Drive kFloors) (now : Nat) : Drive kFloors × ButtonFlags :=
  let floor := d.elev.state.floor
  match d.elev.state.movingState with
  | .doorOpen =>
    if d.controller.shouldStop floor then
      (d.startDoorTimer now, d.controller.clearCurrentFloor floor)
    else (d, kNoClear)
  | .moving => (d, kNoClear)
  | .err => (d, kNoClear)
  | .idle =>
    let pair := d.controller.chooseDirection floor
    if pair.movingState = .doorOpen then
      let opened := if floor ≠ kBetweenFloors then { d with elev := d.elev.openDoor } else d
      let d := (opened.startDoorTimer now).executeDecision now pair
      (d, d.controller.clearCurrentFloor floor)
    else (d.closeDoorAndExecute now pair, kNoClear)

/-- `Controller::FsmFloorArrival`. -/
def fsmFloorArrival (d : Drive kFloors) (now : Nat) : Drive kFloors × ButtonFlags :=
  let floor := d.elev.state.floor
  let mov := d.elev.state.movingState
  -- Safety
  let guarded := if floor = 0 ∨ floor = kFloors then { d with elev := d.elev.setMotorDir .stop }
    else d
  let shown := guarded.elev.setFloorIndicator
  let cleared := { shown with state := { shown.state with fault := false } }
  let d := { guarded with elev := cleared }.startFloorTimer now
  if mov ≠ .moving ∨ d.controller.shouldStop floor = false then (d, kNoClear)
  else (d.stopAndOpenDoor now, d.controller.clearCurrentFloor floor)

/-- `Controller::FsmDoorTimeout`. -/
def fsmDoorTimeout (d : Drive kFloors) (now : Nat) : Drive kFloors × ButtonFlags :=
  let floor := d.elev.state.floor
  let d := { d with controller := { d.controller with doortimer := d.controller.doortimer.stop } }
  if d.elev.state.obstruction then (d.startDoorTimer now, kNoClear)
  else if d.elev.state.movingState ≠ .doorOpen then (d, kNoClear)
  else
    let pair := d.controller.chooseDirection floor
    if pair.movingState = .doorOpen then
      let d := (d.executeDecision now pair).startDoorTimer now
      (d, d.controller.clearCurrentFloor d.elev.state.floor)
    else (d.closeDoorAndExecute now pair, kNoClear)

/-- `Controller::FsmFloorTimeout`. -/
def fsmFloorTimeout (d : Drive kFloors) : Drive kFloors × ButtonFlags :=
  let d := d.stopFloorTimer
  let faulted := { d.elev.state with fault := true }
  (if d.elev.state.movingState = .moving then { d with elev := { d.elev with state := faulted } }
    else d, kNoClear)

end Drive

/-- The drive of a node once `Elevator::Init` and `Controller::Init` have run. -/
def Drive.init (id : Int) (signals : Signals kFloors) : Drive kFloors where
  controller := Controller.init {}
  elev := Elevator.init id signals

/-- The events of the controller's state machine. -/
inductive FsmEvent where
  | emergencyStop
  | emergencyStopReset
  | floorArrival
  | tableUpdate
  | doorTimeout
  | floorTimeout
  deriving DecidableEq, Repr

/-- The handler of each event. -/
def Drive.fsm (d : Drive kFloors) (now : Nat) (floorSensor : Int) :
    FsmEvent → Drive kFloors × ButtonFlags
  | .emergencyStop => d.fsmEmergencyStop now floorSensor
  | .emergencyStopReset => d.fsmEmergencyStopReset now
  | .floorArrival => d.fsmFloorArrival now
  | .tableUpdate => d.fsmTableUpdate now
  | .doorTimeout => d.fsmDoorTimeout now
  | .floorTimeout => d.fsmFloorTimeout

end CppElevator
