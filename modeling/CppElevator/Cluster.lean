import CppElevator.Library.Transition
import CppElevator.Node

/-!
# A cluster of nodes

`kElevs` nodes with distinct identities and the packets they have sent. A step is one locked
section of one node, the sending of a packet, or the processing of a packet sent earlier; a
packet stays available for ever, so it may be lost, delayed, duplicated and overtaken. Nodes
that take no step model smaller clusters. The elevator behind a node is any that keeps its
identity, its activity and a positive version, as `Elevator::Init` leaves them.
-/
namespace CppElevator

open Library

variable {kFloors : Nat}

/-- All nodes and every packet sent so far. -/
structure Cluster (kFloors : Nat) where
  /-- The shared part of each node. -/
  node : Fin kElevs → Peers kFloors
  /-- Packets that may be delivered, oldest first. -/
  sent : List (NetworkPacket kFloors)

/-- What a node can publish as its own state once it is initialised. -/
def OwnState (i : Fin kElevs) (own : ElevatorState kFloors) : Prop :=
  own.id = i.val ∧ own.active = true ∧ 0 < own.version

instance (i : Fin kElevs) (own : ElevatorState kFloors) : Decidable (OwnState i own) :=
  inferInstanceAs (Decidable (own.id = i.val ∧ own.active = true ∧ 0 < own.version))

/-- A step of the cluster. -/
inductive Action (kFloors : Nat) where
  /-- `SyncButtonSignals` at a node. -/
  | press (i : Fin kElevs) (buttonSignals : BoolTable kFloors)
  /-- The state update of `SyncPeers` and `Peers::Step` at a node. -/
  | step (i : Fin kElevs) (own : ElevatorState kFloors) (now : StepClock kFloors)
  /-- `Event` at a node: `ClearOrders` and the state update. -/
  | clear (i : Fin kElevs) (own : ElevatorState kFloors) (floor : Fin kFloors) (b2c : ButtonFlags)
  /-- `TxPacketCopy` at a node. -/
  | transmit (i : Fin kElevs)
  /-- `RecievePacket` and `RxPacketProcessing` at a node, of a packet given by its position among
  those sent. -/
  | receive (i : Fin kElevs) (position : Nat) (now : Nat)

namespace Cluster

/-- All nodes in their default state. -/
def initial : Cluster kFloors where
  node i := { nodeId := i }
  sent := []

/-- Replace one node. -/
def setNode (s : Cluster kFloors) (i : Fin kElevs) (p : Peers kFloors) : Cluster kFloors :=
  { s with node := Function.update s.node i p }

/-- Carry out a step. -/
def exec (s : Cluster kFloors) : Action kFloors → Option (Cluster kFloors)
  | .press i buttonSignals => some (s.setNode i ((s.node i).syncButtonSignals buttonSignals))
  | .step i own now =>
    if OwnState i own then (((s.node i).copyOwnState own).step now).map (s.setNode i) else none
  | .clear i own floor b2c =>
    if OwnState i own then
      some (s.setNode i (((s.node i).clearOrders floor b2c).copyOwnState own))
    else none
  | .transmit i => some { s with sent := s.sent ++ [(s.node i).txPacketCopy] }
  | .receive i position now =>
    match s.sent[position]? with
    | none => none
    | some packet =>
      some (match recievePacket packet with
        | none => s
        | some received => s.setNode i ((s.node i).rxPacketProcessing now received))

/-- Carry out a list of steps. -/
def execAll (s : Cluster kFloors) (actions : List (Action kFloors)) : Option (Cluster kFloors) :=
  actions.foldlM exec s

end Cluster

/-- The crash-free steps of a cluster. -/
def ClusterStep (s : Cluster kFloors) (action : Action kFloors) (s' : Cluster kFloors) : Prop :=
  s.exec action = some s'

/-- A step of a cluster whose nodes may crash. -/
inductive RestartAction (kFloors : Nat) where
  /-- A crash-free step. -/
  | run (action : Action kFloors)
  /-- A node crashes and starts again in the default state. -/
  | crash (i : Fin kElevs)

/-- Carry out a step or a crash. -/
def Cluster.execRestart (s : Cluster kFloors) : RestartAction kFloors → Option (Cluster kFloors)
  | .run action => s.exec action
  | .crash i => some (s.setNode i { nodeId := i })

/-- The steps of a cluster whose nodes may crash. -/
def RestartStep (s : Cluster kFloors) (action : RestartAction kFloors) (s' : Cluster kFloors) : Prop :=
  s.execRestart action = some s'

/-- An idle elevator at a floor, as it publishes itself. -/
def ElevatorState.idleAt (i : Fin kElevs) (floor : Int) : ElevatorState kFloors :=
  { id := i.val, floor := floor, active := true, obstruction := false, version := 1 }

end CppElevator
