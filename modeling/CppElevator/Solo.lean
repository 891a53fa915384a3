import CppElevator.Library.Transition
import CppElevator.Node

/-!
# One node among arbitrary peers

The shared part of one node, whatever it is sent. A step is one operation on `Peers` by the code
of `elevator_node.cpp`; the packets are any that `NetworkPacket::Valid` accepts, and the state the
node publishes is any. The locked sections of the node are sequences of these steps.
-/
namespace CppElevator

open Library

variable {kFloors : Nat}

/-- An operation on the shared part of a node. -/
inductive SoloAction (kFloors : Nat) where
  /-- `SyncButtonSignals`. -/
  | press (buttonSignals : BoolTable kFloors)
  /-- `State(n)->CopyFrom` in `SyncPeers` and `Event`. -/
  | publish (own : ElevatorState kFloors)
  /-- `Peers::Step`. -/
  | step (now : StepClock kFloors)
  /-- `Peers::ClearOrders` in `Event`. -/
  | clear (floor : Fin kFloors) (b2c : ButtonFlags)
  /-- `RxPacketProcessing`. -/
  | receive (now : Nat) (packet : ReceivedPacket kFloors)

/-- Carry out an operation. -/
def Peers.execSolo (p : Peers kFloors) : SoloAction kFloors → Option (Peers kFloors)
  | .press buttonSignals => some (p.syncButtonSignals buttonSignals)
  | .publish own => some (p.copyOwnState own)
  | .step now => p.step now
  | .clear floor b2c => some (p.clearOrders floor b2c)
  | .receive now packet => some (p.rxPacketProcessing now packet)

/-- The operations on the shared part of a node. -/
def SoloStep (p : Peers kFloors) (action : SoloAction kFloors) (p' : Peers kFloors) : Prop :=
  p.execSolo action = some p'

end CppElevator
