import CppElevator.Common

/-!
# The elevator and its state

`elevator_state.cpp`, `elevator.cpp` and the edge-detecting buttons of `button.cpp`. Hardware
signals are inputs, grouped in `Signals`; the commands sent to the hardware in the current
`ElevatorNode::Step` are collected in the order the code sends them. Plain setters are record
updates.
-/
namespace CppElevator

variable {kFloors : Nat}

/-- `ElevatorState`, the part of an elevator its peers receive. -/
structure ElevatorState (kFloors : Nat) where
  /-- Identity of the elevator. -/
  id : Int := -1
  /-- Last floor the sensor has read. -/
  floor : Int := -1
  /-- Whether the elevator takes part. -/
  active : Bool := false
  /-- Last reading of the obstruction switch. -/
  obstruction : Bool := true
  /-- Whether the motor has been found to fail. -/
  fault : Bool := false
  /-- Whether the door is open. -/
  doorOpen : Bool := false
  /-- Whether the emergency stop is in force. -/
  stopped : Bool := false
  /-- Last motor command. -/
  motorDir : MotorDir := .stop
  /-- Mode of the state machine. -/
  movingState : MovingState := .idle
  /-- Counter deciding which of two states is newer. -/
  version : Nat := 0
  /-- Orders confirmed to the elevator. -/
  requests : BoolTable kFloors := BoolTable.zeros
  /-- Direction of the last movement. -/
  inertia : Inertia := .none

namespace ElevatorState

/-- `ElevatorState::Init`. -/
def init (s : ElevatorState kFloors) : ElevatorState kFloors :=
  { s with active := true, fault := false, stopped := false, doorOpen := false,
           motorDir := .stop, movingState := .idle, inertia := .none, version := 1 }

/-- `ElevatorState::SetFloor`; readings that are no floor are ignored. -/
def setFloor (s : ElevatorState kFloors) (floor : Int) : ElevatorState kFloors :=
  if floor < 0 ∨ (kFloors : Int) ≤ floor then s else { s with floor := floor }

/-- `ElevatorState::IncrementVersion`. -/
def incrementVersion (s : ElevatorState kFloors) : ElevatorState kFloors :=
  { s with version := s.version + 1 }

/-- `ElevatorState::Valid`. The enumerations have no values outside their ranges. -/
def valid (s : ElevatorState kFloors) : Bool :=
  decide (0 ≤ s.id) && decide (s.id < kElevs) && decide (0 ≤ s.floor) &&
    decide (s.floor < kFloors)

/-- `ElevatorState::OnUpdate`; `CopyFrom` copies every field. -/
def onUpdate (s rcv : ElevatorState kFloors) : ElevatorState kFloors :=
  if rcv.version ≤ s.version then s else rcv

/-- `ElevatorState::OnWatchdogTimeout`. -/
def onWatchdogTimeout (s : ElevatorState kFloors) : ElevatorState kFloors :=
  { s with active := false, version := 0 }

/-- `ElevatorState::Usable`. -/
def usable (s : ElevatorState kFloors) : Bool :=
  s.active && !s.obstruction && !s.stopped && !s.fault

end ElevatorState

/-- A message to the hardware. -/
inductive Command where
  /-- `set_motor_dir`. -/
  | motorDir (dir : MotorDir)
  /-- `set_door_open_lamp`. -/
  | doorOpenLamp (value : Bool)
  /-- `set_stop_lamp`. -/
  | stopLamp (value : Bool)
  /-- `set_floor_indicator`. -/
  | floorIndicator (floor : Int)
  deriving DecidableEq, Repr

/-- The hardware readings of one `ElevatorNode::Step`. -/
structure Signals (kFloors : Nat) where
  /-- `get_floor_sensor`. -/
  floorSensor : Int
  /-- `get_obstruction_signal`. -/
  obstruction : Bool := false
  /-- `get_stop_signal`. -/
  stop : Bool := false
  /-- `get_button_signal` of every button. -/
  buttons : BoolTable kFloors := BoolTable.zeros

/-- `StopButton::Pressed` and `OrderButton::Pressed`: a press is a rising edge. -/
def pressed (signal prevPress : Bool) : Bool := signal && !prevPress

/-- `Elevator`. -/
structure Elevator (kFloors : Nat) where
  /-- State sent to the peers. -/
  state : ElevatorState kFloors
  /-- Last sampled signal of every order button. -/
  orderButtons : BoolTable kFloors := BoolTable.zeros
  /-- Last sampled signal of the stop button. -/
  stopButton : Bool := false
  /-- Floor at the last call of `hitNewFloor`. -/
  prevFloor : Int := 0
  /-- Whether the stop button was pressed in the current step. -/
  stopPressed : Bool := false
  /-- Messages the current step has sent to the hardware. -/
  commands : List Command := []

namespace Elevator

/-- Send one message. -/
def send (e : Elevator kFloors) (command : Command) : Elevator kFloors :=
  { e with commands := e.commands ++ [command] }

/-- `Elevator::Step`: sample the hardware. -/
def step (e : Elevator kFloors) (signals : Signals kFloors) : Elevator kFloors :=
  { e with state := { e.state.setFloor signals.floorSensor with
                        obstruction := signals.obstruction },
           stopPressed := pressed signals.stop e.stopButton,
           stopButton := signals.stop,
           commands := [] }

/-- `Elevator::Init`, once `InitToFloor` has brought the car to a floor. -/
def init (id : Int) (signals : Signals kFloors) : Elevator kFloors :=
  let state := ({ id := id : ElevatorState kFloors }.init).setFloor signals.floorSensor
  { state := { state with stopped := signals.stop, obstruction := signals.obstruction },
    prevFloor := state.floor }

/-- `Elevator::HitNewFloor`. -/
def hitNewFloor (e : Elevator kFloors) : Bool × Elevator kFloors :=
  (decide (e.state.floor ≠ e.prevFloor) && decide (e.state.floor ≠ Config.kBetweenFloors),
    { e with prevFloor := e.state.floor })

/-- `Elevator::EmergencyStop`. -/
def emergencyStop (e : Elevator kFloors) : Bool := e.stopPressed && !e.state.stopped

/-- `Elevator::EmergencyStopReset`. -/
def emergencyStopReset (e : Elevator kFloors) : Bool := e.stopPressed && e.state.stopped

/-- `Elevator::SetMotorDir`; a stopped elevator commands `Stop` whatever was asked for. -/
def setMotorDir (e : Elevator kFloors) (dir : MotorDir) : Elevator kFloors :=
  let newDir := if e.state.stopped then .stop else dir
  { e.send (.motorDir newDir) with state := { e.state with motorDir := newDir } }

/-- `Elevator::OpenDoor`. -/
def openDoor (e : Elevator kFloors) : Elevator kFloors :=
  { e.send (.doorOpenLamp true) with
      state := { e.state with doorOpen := true, movingState := .doorOpen } }

/-- `Elevator::CloseDoor`. -/
def closeDoor (e : Elevator kFloors) : Elevator kFloors :=
  { e.send (.doorOpenLamp false) with state := { e.state with doorOpen := false } }

/-- `Elevator::SetStopLamp`. -/
def setStopLamp (e : Elevator kFloors) (value : Bool) : Elevator kFloors :=
  e.send (.stopLamp value)

/-- `Elevator::SetFloorIndicator`. -/
def setFloorIndicator (e : Elevator kFloors) : Elevator kFloors :=
  if e.state.floor = Config.kBetweenFloors then e else e.send (.floorIndicator e.state.floor)

end Elevator

end CppElevator
