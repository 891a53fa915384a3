import CppElevator.Library.Transition
import CppElevator.Node

/-!
# A car in its shaft

The node together with the car it drives. The car stands at a floor or between two adjacent
ones and moves only in the direction of the last motor command, as far as it likes between two
turns of the node, and once more within a turn, from the reading of the floor sensor to the
event. The floor sensor is truthful whenever it is read.
-/
namespace CppElevator

open Library

variable {kFloors : Nat}

/-- A node and its car. -/
structure Shaft (kFloors : Nat) where
  /-- The node. -/
  node : ElevatorNode kFloors
  /-- Half floors between the car and the bottom floor; odd between two floors. -/
  pos : Nat

/-- What a turn of the node meets besides the floor sensor, and where the car has got to. -/
structure ShaftInput (kFloors : Nat) where
  /-- Position of the car when the turn begins. -/
  pos : Nat
  /-- Position of the car when the event is handled. -/
  later : Nat := pos
  /-- Clock reading of the step. -/
  now : Nat := 0
  /-- `get_obstruction_signal`. -/
  obstruction : Bool := false
  /-- `get_stop_signal`. -/
  stop : Bool := false
  /-- `get_button_signal` of every button. -/
  buttons : BoolTable kFloors := BoolTable.zeros
  /-- Packets processed since the last step. -/
  earlier : List (Nat × ReceivedPacket kFloors) := []
  /-- Packets processed between the locked sections of the step. -/
  between : List (Nat × ReceivedPacket kFloors) := []

/-- The reading of the floor sensor at a position. -/
def sensorAt (pos : Nat) : Int := if pos % 2 = 0 then pos / 2 else Config.kBetweenFloors

/-- The turn of the node, with a truthful floor sensor. -/
def ShaftInput.turn (input : ShaftInput kFloors) : NodeInput kFloors where
  now := input.now
  signals := { floorSensor := sensorAt input.pos, obstruction := input.obstruction,
               stop := input.stop, buttons := input.buttons }
  stopSensor := sensorAt input.later
  earlier := input.earlier
  between := input.between

/-- Whether a car driven in a direction can get from one position to another. -/
def CarMoves (kFloors : Nat) (dir : MotorDir) (pos pos' : Nat) : Prop :=
  match dir with
  | .up => pos ≤ pos' ∧ pos' ≤ 2 * (kFloors - 1)
  | .down => pos' ≤ pos
  | _ => pos' = pos

instance (kFloors : Nat) (dir : MotorDir) (pos pos' : Nat) :
    Decidable (CarMoves kFloors dir pos pos') := by
  unfold CarMoves
  cases dir <;> infer_instance

namespace Shaft

/-- The node and its car after `Init` at a floor. -/
def init (nodeId : Fin kElevs) (floor : Fin kFloors) (obstruction stop : Bool) : Shaft kFloors where
  node := ElevatorNode.init nodeId
    { floorSensor := floor.val, obstruction := obstruction, stop := stop }
  pos := 2 * floor.val

/-- The movements of the car before and within a turn of the node, and the turn. The motor keeps
its command until the event. -/
def exec (s : Shaft kFloors) (input : ShaftInput kFloors) : Option (Shaft kFloors) :=
  let dir := s.node.drive.elev.state.motorDir
  if CarMoves kFloors dir s.pos input.pos ∧ CarMoves kFloors dir input.pos input.later then
    (s.node.turn input.turn).map fun node => { node := node, pos := input.later }
  else none

end Shaft

/-- The turns of a node in its shaft. -/
def ShaftStep (s : Shaft kFloors) (input : ShaftInput kFloors) (s' : Shaft kFloors) : Prop :=
  s.exec input = some s'

end CppElevator
