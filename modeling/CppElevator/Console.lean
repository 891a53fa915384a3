import CppElevator.Hardware
import CppElevator.Library.Transition
import CppElevator.Node

/-!
# A node at its panel

The node together with what its calls to the hardware have written so far, and `SetButtonLamps`, which
keeps its own record of the button lamps and calls for the changed ones only. The lamps are set between
the locked section and the event of a step.
-/
namespace CppElevator

open Library

variable {kFloors : Nat}

/-- A node, its record of the button lamps and its panel. -/
structure Console (kFloors : Nat) where
  /-- The node. -/
  node : ElevatorNode kFloors
  /-- `button_lamps_`. -/
  buttonLamps : BoolTable kFloors := BoolTable.zeros
  /-- The panel. -/
  panel : Panel kFloors

/-- The buttons in the order the loops of `ElevatorNode` visit them. -/
def buttonCells (kFloors : Nat) : List (Fin kFloors × BtnType) :=
  (List.finRange kFloors).flatMap fun f => [(f, .hallUp), (f, .hallDown), (f, .cab)]

/-- `ElevatorNode::SetButtonLamps`: the record after it, and its calls. -/
def setButtonLamps (buttonLamps requests : BoolTable kFloors) :
    BoolTable kFloors × List HardwareCall :=
  (fun f b => if requests f b = buttonLamps f b then buttonLamps f b else requests f b,
    (buttonCells kFloors).filterMap fun (f, b) =>
      if requests f b = buttonLamps f b then none else some (.btnLamp b f.val (requests f b)))

namespace Console

/-- `ElevatorNode::Init` at a panel. -/
def init (nodeId : Fin kElevs) (initial : Signals kFloors) (before : Panel kFloors) :
    Option (Console kFloors) :=
  let node := ElevatorNode.init nodeId initial
  (before.calls (Elevator.initCalls node.drive.elev.state.floor)).map fun panel =>
    { node := node, panel := panel }

/-- One turn of the node with the calls it makes. -/
def exec (s : Console kFloors) (input : NodeInput kFloors) : Option (Console kFloors) := do
  let due ← s.node.due input
  let (buttonLamps, lampCalls) := setButtonLamps s.buttonLamps due.drive.controller.requests
  let node ← due.handleEvent input.now input.stopSensor
  let panel ← s.panel.calls (lampCalls ++ node.drive.elev.commands.map .command)
  some { node := node, buttonLamps := buttonLamps, panel := panel }

end Console

/-- The turns of a node at its panel. -/
def ConsoleStep (s : Console kFloors) (input : NodeInput kFloors) (s' : Console kFloors) : Prop :=
  s.exec input = some s'

end CppElevator
