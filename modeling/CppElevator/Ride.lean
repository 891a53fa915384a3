import CppElevator.Fleet
import CppElevator.Sweep

/-!
# A car on the clock

The node together with its car under the clock that the main loop reads. The car moves as the motor
drives it, the floor sensor reads every floor it comes to, and other nodes may send whatever packets they
like. Nothing here waits: how long the car may take to the next floor, and how late a turn may come, are
assumptions on a run.
-/
namespace CppElevator

open Library

variable {kFloors : Nat}

/-- A node and its car on the clock. -/
structure Ride (kFloors : Nat) where
  /-- The node. -/
  node : ElevatorNode kFloors
  /-- Instant of the last turn. -/
  clock : Nat
  /-- Instant of the last turn that found the car standing, or at another floor than the turn before. -/
  since : Nat

namespace Ride

/-- The direction in which the motor drives the car. -/
def dir (s : Ride kFloors) : MotorDir := s.node.drive.elev.state.motorDir

/-- The floor the sensor has read last. -/
def floor (s : Ride kFloors) : Int := s.node.drive.elev.state.floor

/-- The car is still where the last turn found it, or between two floors. -/
def Underway (s : Ride kFloors) (sensor : Int) : Prop :=
  s.dir ≠ .stop ∧ (sensor = s.floor ∨ sensor = Config.kBetweenFloors)

instance (s : Ride kFloors) (sensor : Int) : Decidable (s.Underway sensor) :=
  inferInstanceAs (Decidable (_ ∧ _))

/-- One turn of the node. -/
def exec (s : Ride kFloors) (input : NodeInput kFloors) : Option (Ride kFloors) :=
  (s.node.turn input).map fun node => {
    node := node,
    clock := input.now,
    since := if s.Underway input.signals.floorSensor then s.since else input.now }

/-- A node that has just been initialised at a floor, with the stop button released and the door free. -/
def Launched (s : Ride kFloors) : Prop :=
  ∃ nodeId initial, s.node = .init nodeId initial ∧ initial.AtFloor ∧ initial.stop = false ∧
    initial.obstruction = false

end Ride

/-- The turns of a node and its car. -/
def RideStep (s : Ride kFloors) (input : NodeInput kFloors) (s' : Ride kFloors) : Prop :=
  s.exec input = some s'

/-- A turn that comes in time, of a node whose car nothing disturbs: the stop button is released, the door is
free, and the car gets to the next floor in time. -/
structure Undisturbed (travel pace : Nat) (t : Transition (Ride kFloors) (NodeInput kFloors)) : Prop where
  /-- Time does not go back. -/
  forward : t.pre.clock ≤ t.action.now
  /-- The turn comes in time. -/
  prompt : t.action.now ≤ t.pre.clock + pace
  /-- The stop button is released. -/
  released : t.action.signals.stop = false
  /-- The door is free. -/
  free : t.action.signals.obstruction = false
  /-- The car is where it was or between two floors while it is driven, or at the next floor. -/
  sensor : t.pre.Underway t.action.signals.floorSensor ∨
    t.action.signals.floorSensor = t.pre.floor + t.pre.dir.offset
  /-- A car that has been driven for long enough has reached the next floor. -/
  arrives : t.pre.since + travel ≤ t.action.now → ¬t.pre.Underway t.action.signals.floorSensor

/-- A turn finds no order confirmed to the node besides those the turn before has left, and the event it
handles finds none besides those. -/
def NothingNew (t : Transition (Ride kFloors) (NodeInput kFloors)) : Prop :=
  ∀ q, t.pre.node.due t.action = some q →
    q.drive.controller.requests ≤ t.pre.node.drive.controller.requests ∧
      q.peers.orders.toBoolTable q.peers.nodeId.val ≤ q.drive.controller.requests

/-- No packet comes during the turn. -/
def NodeInput.Silent (input : NodeInput kFloors) : Prop := input.earlier = [] ∧ input.between = []

/-- A turn at which no packet comes and no button is newly pressed. -/
structure Unasked (t : Transition (Ride kFloors) (NodeInput kFloors)) : Prop where
  /-- No packet comes. -/
  silent : t.action.Silent
  /-- Every button is released, or still held down. -/
  released : ∀ f b,
    pressed (t.action.signals.buttons f b) (t.pre.node.drive.elev.orderButtons f b) = false

end CppElevator
