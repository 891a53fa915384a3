import CppElevator.Controller
import CppElevator.Peers

/-!
# Packets and the elevator node

`udp_bcast.cpp` as far as packets are built and checked, and `elevator_node.cpp`. The locked
sections of a node work on its `Peers` alone: they are stated for `Peers` first, so that a
cluster of nodes can be built from them, and the node's own step is composed of them.
-/
namespace CppElevator

variable {kFloors : Nat}

/-- `NetworkPacket`. -/
structure NetworkPacket (kFloors : Nat) where
  /-- Sender. -/
  id : Int
  /-- The sender's order table. -/
  orders : OrderTable kFloors
  /-- The sender's own state. -/
  state : ElevatorState kFloors
  /-- The sender's copies of all cab orders. -/
  cabButtonOrders : CabOrderTable kFloors

namespace NetworkPacket

/-- `NetworkPacket::Init` with all three parts given. -/
def init (orders : OrderTable kFloors) (state : ElevatorState kFloors)
    (cabButtonOrders : CabOrderTable kFloors) : NetworkPacket kFloors where
  id := state.id
  orders := orders
  state := state
  cabButtonOrders := cabButtonOrders

/-- `NetworkPacket::Valid`. -/
def valid (packet : NetworkPacket kFloors) : Bool :=
  decide (0 ≤ packet.id) && decide (packet.id < kElevs) && packet.state.valid &&
    packet.orders.valid && decide (∀ e f, (packet.cabButtonOrders e f).valid = true)

end NetworkPacket

/-- A packet that has passed `UdpReciever::RecievePacket`. -/
structure ReceivedPacket (kFloors : Nat) extends NetworkPacket kFloors where
  /-- The check the receiver makes. -/
  checked : toNetworkPacket.valid = true

namespace ReceivedPacket

/-- A received packet names a sender inside the arrays of `Peers`. -/
theorem id_range (packet : ReceivedPacket kFloors) : 0 ≤ packet.id ∧ packet.id < kElevs := by
  have checked := packet.checked
  simp only [NetworkPacket.valid, Bool.and_eq_true, decide_eq_true_eq] at checked
  exact checked.1.1.1

/-- The sender of a received packet. -/
def sender (packet : ReceivedPacket kFloors) : Fin kElevs :=
  ⟨packet.id.toNat, toNat_lt packet.id_range⟩

end ReceivedPacket

/-- `UdpReciever::RecievePacket`: packets that are not valid are dropped. -/
def recievePacket (packet : NetworkPacket kFloors) : Option (ReceivedPacket kFloors) :=
  if h : packet.valid = true then some ⟨packet, h⟩ else none

/-- A packet arrives as it was sent. -/
theorem eq_of_recievePacket {packet : NetworkPacket kFloors} {received : ReceivedPacket kFloors}
    (arrived : recievePacket packet = some received) : received.toNetworkPacket = packet := by
  unfold recievePacket at arrived
  split_ifs at arrived
  exact congrArg ReceivedPacket.toNetworkPacket (Option.some.inj arrived).symm

/-- What has been accepted is accepted again. -/
theorem recievePacket_toNetworkPacket (received : ReceivedPacket kFloors) :
    recievePacket received.toNetworkPacket = some received := dif_pos received.checked

namespace Peers

/-- The orders part of `ElevatorNode::SyncButtonSignals`. -/
def syncButtonSignals (p : Peers kFloors) (buttonSignals : BoolTable kFloors) : Peers kFloors :=
  { p with
    orders := fun f b =>
      if buttonSignals f b = true then
        if b = .cab then ((p.orders f b).onRequest p.nodeId).onConfirm p.nodeId.val
        else (p.orders f b).onRequest p.nodeId
      else p.orders f b,
    cabButtonOrders := fun e f =>
      if e = p.nodeId ∧ buttonSignals f .cab = true then
        ((p.cabButtonOrders e f).onRequest p.nodeId).onConfirm p.nodeId.val
      else p.cabButtonOrders e f }

/-- `peers_.State(n)->CopyFrom(elev_.State())`. -/
def copyOwnState (p : Peers kFloors) (state : ElevatorState kFloors) : Peers kFloors :=
  { p with allStates := Function.update p.allStates p.nodeId state }

/-- `ElevatorNode::TxPacketCopy`. -/
def txPacketCopy (p : Peers kFloors) : NetworkPacket kFloors :=
  .init p.orders (p.allStates p.nodeId) p.cabButtonOrders

/-- `ElevatorNode::RxPacketProcessing`. The backup the sender holds of this node's cab orders is
merged into both local copies. -/
def rxPacketProcessing (p : Peers kFloors) (now : Nat) (packet : ReceivedPacket kFloors) :
    Peers kFloors :=
  let sender := packet.sender
  if sender = p.nodeId then p
  else
    { p.updateWatchdogTimer now sender with
      allStates :=
        Function.update p.allStates sender ((p.allStates sender).onUpdate packet.state),
      orders := fun f b =>
        if b = .cab then (p.orders f b).onUpdate (packet.cabButtonOrders p.nodeId f)
        else p.orders.join packet.orders f b,
      cabButtonOrders := fun e f =>
        if e = sender then (p.cabButtonOrders e f).onUpdate (packet.orders f .cab)
        else if e = p.nodeId then
          (p.cabButtonOrders e f).onUpdate (packet.cabButtonOrders p.nodeId f)
        else p.cabButtonOrders e f }

/-- Packets with the node's own identity are ignored. -/
theorem rxPacketProcessing_own {p : Peers kFloors} {now : Nat} {packet : ReceivedPacket kFloors}
    (own : packet.sender = p.nodeId) : p.rxPacketProcessing now packet = p := if_pos own

/-- A foreign packet is merged into every hall order. -/
theorem rxPacketProcessing_hall {p : Peers kFloors} {now : Nat} {packet : ReceivedPacket kFloors}
    (foreign : packet.sender ≠ p.nodeId) {f : Fin kFloors} {b : BtnType} (hall : b ≠ .cab) :
    (p.rxPacketProcessing now packet).orders f b =
      (p.orders f b).onUpdate (packet.orders f b) := by
  simp only [rxPacketProcessing, if_neg foreign, if_neg hall, OrderTable.join]

/-- The backup in a foreign packet is merged into every cab order. -/
theorem rxPacketProcessing_cab {p : Peers kFloors} {now : Nat} {packet : ReceivedPacket kFloors}
    (foreign : packet.sender ≠ p.nodeId) (f : Fin kFloors) :
    (p.rxPacketProcessing now packet).orders f .cab =
      (p.orders f .cab).onUpdate (packet.cabButtonOrders p.nodeId f) := by
  simp only [rxPacketProcessing, if_neg foreign, ↓reduceIte]

end Peers

/-- `ElevatorNode`. -/
structure ElevatorNode (kFloors : Nat) where
  /-- Buttons pressed in the current step. -/
  buttonSignals : BoolTable kFloors := BoolTable.zeros
  /-- The shared part, behind the mutex. -/
  peers : Peers kFloors
  /-- The elevator and its controller. -/
  drive : Drive kFloors

namespace ElevatorNode

/-- `ElevatorNode::Init` on a new node. -/
def init (nodeId : Fin kElevs) (signals : Signals kFloors) : ElevatorNode kFloors where
  peers := { nodeId := nodeId }
  drive := Drive.init nodeId.val signals

/-- `ElevatorNode::RegisterButtonSignals`. -/
def registerButtonSignals (s : ElevatorNode kFloors) (signals : Signals kFloors) :
    ElevatorNode kFloors :=
  { s with
    buttonSignals := fun f b => pressed (signals.buttons f b) (s.drive.elev.orderButtons f b),
    drive := { s.drive with elev := { s.drive.elev with orderButtons := signals.buttons } } }

/-- `ElevatorNode::SyncPeers`. -/
def syncPeers (s : ElevatorNode kFloors) : ElevatorNode kFloors :=
  let peers := s.peers.syncButtonSignals s.buttonSignals
  let state := s.drive.elev.state.incrementVersion
  { s with
    peers := peers.copyOwnState state,
    drive := {
      controller := s.drive.controller.setRequests (peers.orders.toBoolTable s.peers.nodeId.val),
      elev := { s.drive.elev with state := state } } }

/-- `ElevatorNode::RxPacketProcessing`. -/
def rxPacketProcessing (s : ElevatorNode kFloors) (now : Nat) (packet : ReceivedPacket kFloors) :
    ElevatorNode kFloors :=
  { s with peers := s.peers.rxPacketProcessing now packet }

/-- The call of `ClearOrders` in `ElevatorNode::Event`, made when a button is set. It indexes the
order table by the stored floor; `none` stands for an index outside it. -/
def clearServed (p : Peers kFloors) (floor : Int) (b2c : ButtonFlags) : Option (Peers kFloors) :=
  if b2c = ButtonFlags.zeros then some p
  else if h : 0 ≤ floor ∧ floor < kFloors then
    some (p.clearOrders ⟨floor.toNat, toNat_lt h⟩ b2c)
  else none

/-- `ElevatorNode::Event`. -/
def event (s : ElevatorNode kFloors) (b2c : ButtonFlags) : Option (ElevatorNode kFloors) :=
  let state := s.drive.elev.state.incrementVersion
  (clearServed s.peers state.floor b2c).map fun peers =>
    let requests := peers.orders.toBoolTable s.peers.nodeId.val
    let state := { state with requests := requests }
    { s with
      peers := peers.copyOwnState state,
      drive := { controller := s.drive.controller.setRequests requests,
                 elev := { s.drive.elev with state := state } } }

/-- The part of `ElevatorNode::Step` before its events: sample the hardware, then the locked
section. -/
def sync (s : ElevatorNode kFloors) (now : StepClock kFloors) (signals : Signals kFloors) :
    Option (ElevatorNode kFloors) := do
  let s := { s with drive := { s.drive with elev := s.drive.elev.step signals } }
  let s := (s.registerButtonSignals signals).syncPeers
  let peers ← s.peers.step now
  some { s with peers := peers }

/-- The event the current `ElevatorNode::Step` handles, in the order of its tests, and the drive
the tests leave. -/
def nextEvent (d : Drive kFloors) (now : Nat) : Drive kFloors × Option FsmEvent :=
  if d.elev.emergencyStop then (d, some .emergencyStop)
  else if d.elev.emergencyStopReset then (d, some .emergencyStopReset)
  else
    let (hit, elev) := d.elev.hitNewFloor
    let d := { d with elev := elev }
    if hit then (d, some .floorArrival)
    else
      let (updated, controller) := d.controller.requestTableUpdated
      let d := { d with controller := controller }
      if updated then (d, some .tableUpdate)
      else if d.controller.doortimer.expired now then (d, some .doorTimeout)
      else if d.controller.floorTimer.expired now then (d, some .floorTimeout)
      else (d, none)

/-- The part of `ElevatorNode::Step` after the locked section: at most one event is handled. The
floor sensor is the one `FsmEmergencyStop` reads. -/
def handleEvent (s : ElevatorNode kFloors) (now : Nat) (floorSensor : Int) :
    Option (ElevatorNode kFloors) :=
  let (d, next) := nextEvent s.drive now
  match next with
  | none => some { s with drive := d }
  | some e =>
    let (d, b2c) := d.fsm now floorSensor e
    { s with drive := d }.event b2c

/-- Packets the receiving thread processes, each at a clock reading of its own. -/
def receive (s : ElevatorNode kFloors) (packets : List (Nat × ReceivedPacket kFloors)) :
    ElevatorNode kFloors :=
  packets.foldl (fun s packet => s.rxPacketProcessing packet.1 packet.2) s

/-- The node in which `ElevatorNode::Step` looks for an event; the receiving thread may process
packets between the locked sections. -/
def beforeEvent (s : ElevatorNode kFloors) (now : StepClock kFloors) (signals : Signals kFloors)
    (between : List (Nat × ReceivedPacket kFloors)) : Option (ElevatorNode kFloors) :=
  (s.sync now signals).map fun s => s.receive between

end ElevatorNode

/-- What one `ElevatorNode::Step` reads. The tests for an event and its handler take the clock to stand
still; `Peers::Step` does not. -/
structure StepInput (kFloors : Nat) where
  /-- Clock reading of the event. -/
  now : Nat
  /-- Hardware readings at the beginning of the step. -/
  signals : Signals kFloors
  /-- What the clock shows in `Peers::Step`. -/
  locked : StepClock kFloors := .still now
  /-- The floor sensor when the event is handled, where `FsmEmergencyStop` reads it. -/
  stopSensor : Int := signals.floorSensor

/-- What a node meets in one turn of its main loop. -/
structure NodeInput (kFloors : Nat) extends StepInput kFloors where
  /-- Packets processed since the last step. -/
  earlier : List (Nat × ReceivedPacket kFloors) := []
  /-- Packets processed between the locked sections of the step. -/
  between : List (Nat × ReceivedPacket kFloors) := []

namespace ElevatorNode

/-- `ElevatorNode::Step`. -/
def step (s : ElevatorNode kFloors) (input : StepInput kFloors)
    (between : List (Nat × ReceivedPacket kFloors)) : Option (ElevatorNode kFloors) := do
  let s ← s.beforeEvent input.locked input.signals between
  s.handleEvent input.now input.stopSensor

/-- The node in which a turn looks for an event. -/
def due (s : ElevatorNode kFloors) (input : NodeInput kFloors) : Option (ElevatorNode kFloors) :=
  (s.receive input.earlier).beforeEvent input.locked input.signals input.between

/-- One turn: the packets that arrived, then `ElevatorNode::Step`. -/
def turn (s : ElevatorNode kFloors) (input : NodeInput kFloors) : Option (ElevatorNode kFloors) :=
  (s.receive input.earlier).step input.toStepInput input.between

end ElevatorNode

/-- The turns of a node. -/
def NodeStep (s : ElevatorNode kFloors) (input : NodeInput kFloors) (s' : ElevatorNode kFloors) :
    Prop :=
  s.turn input = some s'

end CppElevator
