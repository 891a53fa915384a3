import CppElevator.Library.Transition
import CppElevator.Node

/-!
# The sweep of an undisturbed car

The events of a node alone, in the priority order of `ElevatorNode::Step`, for a car that meets no
emergency stop, no obstruction, no motor failure and no further orders. A moving car reaches the
adjacent floor in the direction of its motor before anything else happens, and the door timer runs
out while the door is open.
-/
namespace CppElevator

open Library

variable {kFloors : Nat}

/-- What a motor command adds to the floor. -/
def MotorDir.offset : MotorDir → Int
  | .up => 1
  | .down => -1
  | _ => 0

namespace Drive

/-- The floor sensor reads the adjacent floor while the elevator is moving. The reading is stored
whether or not the building has such a floor. -/
def travel (d : Drive kFloors) : Drive kFloors :=
  if d.elev.state.movingState = .moving then
    let floor := d.elev.state.floor + d.elev.state.motorDir.offset
    { d with elev := { d.elev with state := { d.elev.state with floor := floor } } }
  else d

/-- The event that is due, and the drive the tests of `ElevatorNode::Step` leave. -/
def sweepEvent (d : Drive kFloors) : Drive kFloors × Option FsmEvent :=
  let d := d.travel
  let (hit, elev) := d.elev.hitNewFloor
  let d := { d with elev := elev }
  if hit then (d, some .floorArrival)
  else
    let (updated, controller) := d.controller.requestTableUpdated
    let d := { d with controller := controller }
    if updated then (d, some .tableUpdate)
    else if d.elev.state.doorOpen then (d, some .doorTimeout)
    else (d, none)

/-- These are the tests of `ElevatorNode::Step` at a reading of the clock at which the door timer
has run out if the door is open and the floor timer has not. -/
theorem sweepEvent_eq_nextEvent {d : Drive kFloors} {now : Nat} (quiet : d.elev.stopPressed = false)
    (door : d.controller.doortimer.expired now = d.elev.state.doorOpen)
    (motor : d.controller.floorTimer.expired now = false) :
    d.sweepEvent = ElevatorNode.nextEvent d.travel now := by
  have same : d.travel.elev.stopPressed = false ∧ d.travel.controller = d.controller ∧
      d.travel.elev.state.doorOpen = d.elev.state.doorOpen := by
    unfold travel
    split_ifs <;> exact ⟨quiet, rfl, rfl⟩
  have noStop : d.travel.elev.emergencyStop = false ∧ d.travel.elev.emergencyStopReset = false := by
    simp [Elevator.emergencyStop, Elevator.emergencyStopReset, same.1]
  have timers : (d.travel.controller.requestTableUpdated.2.doortimer.expired now =
      d.travel.elev.state.doorOpen) ∧
      d.travel.controller.requestTableUpdated.2.floorTimer.expired now = false := by
    rw [same.2.1, same.2.2]
    exact ⟨door, motor⟩
  simp only [sweepEvent, ElevatorNode.nextEvent, noStop.1, noStop.2, timers.1, timers.2,
    Bool.false_eq_true, ↓reduceIte, Elevator.hitNewFloor]
  rfl

/-- The tests leave the state of the elevator as it has travelled. -/
theorem sweepEvent_state (d : Drive kFloors) :
    d.sweepEvent.1.elev.state = d.travel.elev.state := by
  unfold sweepEvent
  dsimp only
  split_ifs <;> rfl

end Drive

/-- Handle the event that is due, then clear the orders it serves; `none` when no event is due. -/
def ElevatorNode.sweep (s : ElevatorNode kFloors) (now : Nat) : Option (ElevatorNode kFloors) :=
  match s.drive.sweepEvent with
  | (_, none) => none
  | (d, some e) =>
    let (d, b2c) := d.fsm now d.elev.state.floor e
    { s with drive := d }.event b2c

/-- At such a reading of the clock an event of a sweep is the part of `ElevatorNode::Step` after its
locked section, for the car at the floor it has travelled to. -/
theorem ElevatorNode.handleEvent_of_sweep {s s' : ElevatorNode kFloors} {now : Nat}
    (quiet : s.drive.elev.stopPressed = false)
    (door : s.drive.controller.doortimer.expired now = s.drive.elev.state.doorOpen)
    (motor : s.drive.controller.floorTimer.expired now = false) (swept : s.sweep now = some s') :
    ({ s with drive := s.drive.travel } : ElevatorNode kFloors).handleEvent now
      s.drive.travel.elev.state.floor = some s' := by
  have due := Drive.sweepEvent_eq_nextEvent quiet door motor
  have floor := congrArg ElevatorState.floor s.drive.sweepEvent_state
  unfold sweep at swept
  unfold handleEvent
  dsimp only
  rw [← due]
  generalize s.drive.sweepEvent = result at swept floor
  obtain ⟨d, _ | event⟩ := result
  · cases swept
  · dsimp only at swept floor ⊢
    rwa [floor] at swept

/-- The events of a sweep. -/
def SweepStep (s : ElevatorNode kFloors) (now : Nat) (s' : ElevatorNode kFloors) : Prop :=
  s.sweep now = some s'

/-- An event of a sweep is an arrival at a floor. -/
def reachesFloor (t : Transition (ElevatorNode kFloors) Nat) : Bool :=
  decide (t.pre.drive.sweepEvent.2 = some .floorArrival)

/-- The start of a sweep: an idle car at a floor behind a closed door, which has not looked at its
orders yet. Nothing is said about the direction it last moved in. -/
structure SweepStart (s : ElevatorNode kFloors) : Prop where
  /-- The requests are the orders confirmed to this elevator. -/
  own : s.drive.controller.requests = s.peers.orders.toBoolTable s.peers.nodeId.val
  /-- The table has changed since it was last looked at. -/
  unseen : s.drive.controller.requests ≠ s.drive.controller.prevRequests
  /-- The car is at a floor. -/
  atFloor : 0 ≤ s.drive.elev.state.floor ∧ s.drive.elev.state.floor < kFloors
  /-- The arrival there has been handled. -/
  arrived : s.drive.elev.prevFloor = s.drive.elev.state.floor
  /-- The car is idle. -/
  idle : s.drive.elev.state.movingState = .idle
  /-- The door is closed. -/
  closed : s.drive.elev.state.doorOpen = false
  /-- No emergency stop is in force. -/
  running : s.drive.elev.state.stopped = false
  /-- The door is not obstructed. -/
  free : s.drive.elev.state.obstruction = false

/-- The end of a sweep. -/
structure Swept (s : ElevatorNode kFloors) : Prop where
  /-- No order is confirmed to this elevator. -/
  served : s.peers.orders.toBoolTable s.peers.nodeId.val = BoolTable.zeros
  /-- The request table is empty. -/
  empty : s.drive.controller.requests = BoolTable.zeros
  /-- The car is idle. -/
  idle : s.drive.elev.state.movingState = .idle
  /-- The door is closed. -/
  closed : s.drive.elev.state.doorOpen = false
  /-- The motor is stopped. -/
  halted : s.drive.elev.state.motorDir = .stop
  /-- No event is due. -/
  quiet : s.drive.sweepEvent.2 = none

end CppElevator
