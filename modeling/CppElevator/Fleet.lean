import CppElevator.Cluster

/-!
# A fleet of whole nodes

The nodes of a cluster with their elevators and controllers. A step is one locked section of the
main loop together with the controller event it belongs to, the sending of a packet, or the
processing of a packet sent earlier. The three threads of a node and the nodes among themselves
interleave in any order.
-/
namespace CppElevator

open Library

variable {kFloors : Nat}

/-- All nodes and every packet sent so far. -/
structure Fleet (kFloors : Nat) where
  /-- The nodes. -/
  node : Fin kElevs → ElevatorNode kFloors
  /-- Packets that may be delivered, oldest first. -/
  sent : List (NetworkPacket kFloors)

/-- A step of the fleet. -/
inductive FleetAction (kFloors : Nat) where
  /-- The first half of `ElevatorNode::Step` at a node, up to the end of its locked section. -/
  | sync (i : Fin kElevs) (now : StepClock kFloors) (signals : Signals kFloors)
  /-- The second half: at most one event. -/
  | handle (i : Fin kElevs) (now : Nat) (floorSensor : Int)
  /-- `TxPacketCopy` at a node. -/
  | transmit (i : Fin kElevs)
  /-- `RecievePacket` and `RxPacketProcessing` at a node, of a packet given by its position among
  those sent. -/
  | receive (i : Fin kElevs) (position : Nat) (now : Nat)

namespace Fleet

/-- All nodes after `ElevatorNode::Init`. -/
def init (signals : Fin kElevs → Signals kFloors) : Fleet kFloors where
  node i := .init i (signals i)
  sent := []

/-- Replace one node. -/
def setNode (s : Fleet kFloors) (i : Fin kElevs) (n : ElevatorNode kFloors) : Fleet kFloors :=
  { s with node := Function.update s.node i n }

/-- Carry out a step. -/
def exec (s : Fleet kFloors) : FleetAction kFloors → Option (Fleet kFloors)
  | .sync i now signals => ((s.node i).sync now signals).map (s.setNode i)
  | .handle i now floorSensor => ((s.node i).handleEvent now floorSensor).map (s.setNode i)
  | .transmit i => some { s with sent := s.sent ++ [(s.node i).peers.txPacketCopy] }
  | .receive i position now =>
    match s.sent[position]? with
    | none => none
    | some packet =>
      some (match recievePacket packet with
        | none => s
        | some received => s.setNode i ((s.node i).rxPacketProcessing now received))

/-- The shared part of every node. -/
def shared (s : Fleet kFloors) : Cluster kFloors where
  node i := (s.node i).peers
  sent := s.sent

end Fleet

/-- The steps of a fleet. -/
def FleetStep (s : Fleet kFloors) (action : FleetAction kFloors) (s' : Fleet kFloors) : Prop :=
  s.exec action = some s'

/-- The floor sensor reads a floor, as `InitToFloor` waits for. -/
def Signals.AtFloor (signals : Signals kFloors) : Prop :=
  0 ≤ signals.floorSensor ∧ signals.floorSensor < kFloors

instance (signals : Signals kFloors) : Decidable signals.AtFloor :=
  inferInstanceAs (Decidable (0 ≤ signals.floorSensor ∧ signals.floorSensor < kFloors))

/-- `ElevatorNode::Init` and the first `ElevatorNode::Step`, which `main` calls before it starts the
threads. -/
def ElevatorNode.launch (nodeId : Fin kElevs) (initial : Signals kFloors)
    (first : StepInput kFloors) : Option (ElevatorNode kFloors) :=
  (ElevatorNode.init nodeId initial).step first []

/-- A step of a fleet whose nodes may crash. -/
inductive FleetRestartAction (kFloors : Nat) where
  /-- A crash-free step. -/
  | run (action : FleetAction kFloors)
  /-- A node crashes and is launched again. Nothing it does lies between, so the steps the others
  take meanwhile may come first or last. -/
  | restart (i : Fin kElevs) (initial : Signals kFloors) (first : StepInput kFloors)

namespace Fleet

/-- Carry out a step, or a crash and the launch that follows it once the car is at a floor. -/
def execRestart (s : Fleet kFloors) : FleetRestartAction kFloors → Option (Fleet kFloors)
  | .run action => s.exec action
  | .restart i initial first =>
    if initial.AtFloor then (ElevatorNode.launch i initial first).map (s.setNode i) else none

/-- All nodes have just been launched and have sent nothing. -/
structure Launched (s : Fleet kFloors) : Prop where
  /-- Each node was launched at a floor. -/
  node : ∀ i, ∃ initial first, initial.AtFloor ∧
    ElevatorNode.launch i initial first = some (s.node i)
  /-- No packet is under way. -/
  sent : s.sent = []

end Fleet

/-- The steps of a fleet whose nodes may crash. -/
def FleetRestartStep (s : Fleet kFloors) (action : FleetRestartAction kFloors)
    (s' : Fleet kFloors) : Prop :=
  s.execRestart action = some s'

end CppElevator
