import CppElevator.Verif.FleetRefinement
import CppElevator.Verif.Participation
import CppElevator.Verif.ShaftPosition

/-!
# Invariants of a fleet

Everything a node does to its shared part, in whatever order its threads interleave and however
often it is launched again, is one of seven operations. A property of the shared part that the
operations keep therefore holds of every node after every run, and what it makes true of the
packets built holds of every packet under way.
-/
namespace CppElevator

open Library

variable {kFloors : Nat}

/-- What a launched node can publish as its own state. -/
structure Presents (i : Fin kElevs) (own : ElevatorState kFloors) : Prop where
  /-- Identity, activity and version. -/
  ownState : OwnState i own
  /-- The floor is one of the building. -/
  inside : 0 ≤ own.floor ∧ own.floor < kFloors

/-- Such a state passes the check of its receivers. -/
theorem Presents.valid {i : Fin kElevs} {own : ElevatorState kFloors} (presents : Presents i own) :
    own.valid = true := by
  obtain ⟨⟨id, -, -⟩, lower, upper⟩ := presents
  have bound := i.isLt
  simp only [ElevatorState.valid, id, Bool.and_eq_true, decide_eq_true_eq]
  omega

namespace Peers

/-- The node has published its state and guards nobody but the others. -/
structure Serves (p : Peers kFloors) : Prop where
  /-- The own state in the view. -/
  presents : Presents p.nodeId (p.allStates p.nodeId)
  /-- Packets with the own identity are dropped. -/
  unwatched : (p.watchdogTimers p.nodeId).active = false

/-- A node that serves takes part. -/
theorem Serves.takesPart {p : Peers kFloors} (serves : p.Serves) : p.TakesPart := by
  obtain ⟨lower, upper⟩ := serves.presents.inside
  refine ⟨serves.presents.ownState.2.1, serves.unwatched, ?_, upper⟩
  omega

/-- The first publication starts the service. -/
theorem serves_copyOwnState {p : Peers kFloors} {own : ElevatorState kFloors}
    (presents : Presents p.nodeId own) (unwatched : (p.watchdogTimers p.nodeId).active = false) :
    (p.copyOwnState own).Serves := by
  refine ⟨?_, unwatched⟩
  have own' : (p.copyOwnState own).allStates p.nodeId = own := Function.update_self _ _ _
  change Presents p.nodeId ((p.copyOwnState own).allStates p.nodeId)
  rwa [own']

/-- What leaves identity, own state and own watchdog alone. -/
theorem Serves.frame {p p' : Peers kFloors} (serves : p.Serves) (node : p'.nodeId = p.nodeId)
    (state : p'.allStates p.nodeId = p.allStates p.nodeId)
    (watchdog : p'.watchdogTimers p.nodeId = p.watchdogTimers p.nodeId) : p'.Serves := by
  refine ⟨?_, ?_⟩
  · rw [node, state]
    exact serves.presents
  · rw [node, watchdog]
    exact serves.unwatched

/-- A step of `Peers`. -/
theorem Serves.step {p p' : Peers kFloors} {now : StepClock kFloors} (serves : p.Serves)
    (done : p.step now = some p') : p'.Serves := by
  have part := serves.takesPart.step done
  have advances := advances_step done
  refine ⟨?_, part.unwatched⟩
  have active := part.active
  rw [advances.nodeId] at active ⊢
  rcases advances.states p.nodeId with same | timedOut
  · rw [same]
    exact serves.presents
  · rw [timedOut] at active
    exact absurd active Bool.false_ne_true

/-- Processing a packet. -/
theorem Serves.rxPacketProcessing {p : Peers kFloors} (serves : p.Serves) (now : Nat)
    (packet : ReceivedPacket kFloors) : (p.rxPacketProcessing now packet).Serves := by
  by_cases own : packet.sender = p.nodeId
  · rwa [rxPacketProcessing_own own]
  · have apart : p.nodeId ≠ packet.sender := Ne.symm own
    refine serves.frame (p.rxPacketProcessing_nodeId now packet) ?_ ?_
    · rw [allStates_rxPacketProcessing own, Function.update_of_ne apart]
    · rw [watchdogTimers_rxPacketProcessing own, Function.update_of_ne apart]

end Peers

/-- A property of the shared part of a node that every operation on it keeps, and the property of
packets that goes with it. -/
structure PeersRule (P : Peers kFloors → Prop) (Q : NetworkPacket kFloors → Prop) : Prop where
  /-- A new process. -/
  fresh : ∀ i, P { nodeId := i }
  /-- `SyncButtonSignals`. -/
  press : ∀ {p signals}, P p → P (p.syncButtonSignals signals)
  /-- `State(n)->CopyFrom`. -/
  publish : ∀ {p own}, P p → Presents p.nodeId own → P (p.copyOwnState own)
  /-- `Peers::Step`. -/
  step : ∀ {p p' now}, P p → p.Serves → p.step now = some p' → P p'
  /-- `Peers::ClearOrders`. -/
  clear : ∀ {p floor b2c}, P p → P (p.clearOrders floor b2c)
  /-- `RxPacketProcessing` of a packet with another identity. -/
  receive : ∀ {p now packet}, P p → Q packet.toNetworkPacket → packet.sender ≠ p.nodeId →
    P (p.rxPacketProcessing now packet)
  /-- `TxPacketCopy`. -/
  transmit : ∀ {p}, P p → p.Serves → Q p.txPacketCopy

namespace Drive

/-- The drive presents its node from a floor of the building. -/
def Sited (d : Drive kFloors) (i : Fin kElevs) : Prop :=
  d.Names i ∧ 0 ≤ d.mode.floor ∧ d.mode.floor < kFloors

/-- What such a drive publishes. -/
theorem Sited.presents {d : Drive kFloors} {i : Fin kElevs} (sited : d.Sited i) :
    Presents i d.elev.state.incrementVersion := ⟨sited.1.ownState, sited.2⟩

/-- `Elevator::Init` at a floor. -/
theorem sited_init (i : Fin kElevs) {initial : Signals kFloors} (atFloor : initial.AtFloor) :
    (init i.val initial).Sited i := by
  refine ⟨identity_init _ _, ?_⟩
  have floor : (init i.val initial : Drive kFloors).mode.floor = initial.floorSensor := by
    have inside : ¬(initial.floorSensor < 0 ∨ (kFloors : Int) ≤ initial.floorSensor) := by
      have := atFloor.1
      have := atFloor.2
      omega
    simp only [init, Elevator.init, mode, ElevatorState.setFloor, if_neg inside]
  rw [floor]
  exact atFloor

/-- Sampling the hardware. -/
theorem Sited.sample {d : Drive kFloors} {i : Fin kElevs} (sited : d.Sited i)
    (signals : Signals kFloors) : ({ d with elev := d.elev.step signals } : Drive kFloors).Sited i := by
  refine ⟨?_, ?_⟩
  · refine Eq.trans ?_ sited.1
    simp only [identity, Elevator.step, ElevatorState.setFloor]
    split_ifs <;> rfl
  · rw [ElevatorNode.mode_sample]
    unfold Mode.sample
    dsimp only
    split_ifs with outside
    · exact sited.2
    · omega

/-- Handling an event. -/
theorem Sited.fsm {d : Drive kFloors} {i : Fin kElevs} (sited : d.Sited i) (now : Nat)
    (floorSensor : Int) (event : FsmEvent) : (d.fsm now floorSensor event).1.Sited i := by
  refine ⟨(d.identity_fsm now floorSensor event).trans sited.1, ?_⟩
  rw [(d.handles_fsm now floorSensor event).floor.1]
  exact sited.2

/-- Looking for an event. -/
theorem Sited.nextEvent {d : Drive kFloors} {i : Fin kElevs} (sited : d.Sited i) (now : Nat) :
    (ElevatorNode.nextEvent d now).1.Sited i := by
  unfold ElevatorNode.nextEvent
  dsimp only
  split_ifs <;> exact sited

end Drive

namespace ElevatorNode

/-- The node as `Peers::Step` finds it: the hardware sampled, the presses and the state taken over. -/
def synced (s : ElevatorNode kFloors) (signals : Signals kFloors) : ElevatorNode kFloors :=
  (registerButtonSignals { s with drive := { s.drive with elev := s.drive.elev.step signals } }
    signals).syncPeers

/-- The first half of a step ends with `Peers::Step`. -/
theorem sync_eq (s : ElevatorNode kFloors) (now : StepClock kFloors) (signals : Signals kFloors) :
    s.sync now signals =
      ((s.synced signals).peers.step now).map fun peers => { s.synced signals with peers := peers } := by
  unfold sync
  rw [Option.map_eq_bind]
  rfl

variable {P : Peers kFloors → Prop} {Q : NetworkPacket kFloors → Prop} {i : Fin kElevs}
  {s s' : ElevatorNode kFloors}

/-- A node whose elevator has found a floor. -/
structure Ready (P : Peers kFloors → Prop) (i : Fin kElevs) (s : ElevatorNode kFloors) : Prop where
  /-- Identity of the shared part. -/
  nodeId : s.peers.nodeId = i
  /-- Nobody guards the node itself. -/
  unwatched : (s.peers.watchdogTimers i).active = false
  /-- The elevator. -/
  sited : s.drive.Sited i
  /-- The property in question. -/
  holds : P s.peers

/-- A node that has published its state. -/
structure Serving (P : Peers kFloors → Prop) (i : Fin kElevs) (s : ElevatorNode kFloors) : Prop where
  /-- Identity of the shared part. -/
  nodeId : s.peers.nodeId = i
  /-- The shared part. -/
  serves : s.peers.Serves
  /-- The elevator. -/
  sited : s.drive.Sited i
  /-- The property in question. -/
  holds : P s.peers

/-- A serving node is ready. -/
theorem Serving.ready (serving : s.Serving P i) : s.Ready P i := by
  refine ⟨serving.nodeId, ?_, serving.sited, serving.holds⟩
  rw [← serving.nodeId]
  exact serving.serves.unwatched

/-- `ElevatorNode::Init` at a floor. -/
theorem ready_init (rule : PeersRule P Q) (i : Fin kElevs) {initial : Signals kFloors}
    (atFloor : initial.AtFloor) : (init i initial).Ready P i :=
  ⟨rfl, rfl, Drive.sited_init i atFloor, rule.fresh i⟩

/-- Up to `Peers::Step`. -/
theorem Ready.synced (rule : PeersRule P Q) (ready : s.Ready P i) (signals : Signals kFloors) :
    (s.synced signals).Serving P i := by
  obtain ⟨rfl, unwatched, sited, holds⟩ := ready
  have presents := (sited.sample signals).presents
  exact ⟨rfl, Peers.serves_copyOwnState presents unwatched, ⟨(sited.sample signals).1,
    (sited.sample signals).2⟩, rule.publish (rule.press holds) presents⟩

/-- The first half of a step. -/
theorem Ready.sync (rule : PeersRule P Q) (ready : s.Ready P i) {now : StepClock kFloors}
    {signals : Signals kFloors} (done : s.sync now signals = some s') : s'.Serving P i := by
  rw [sync_eq] at done
  obtain ⟨peers, stepped, rfl⟩ := Option.map_eq_some_iff.1 done
  have serving := ready.synced rule signals
  exact ⟨(Peers.advances_step stepped).nodeId.trans serving.nodeId, serving.serves.step stepped,
    serving.sited, rule.step serving.holds serving.serves stepped⟩

/-- The locked section of an event. -/
theorem Serving.event (rule : PeersRule P Q) (serving : s.Serving P i) {b2c : ButtonFlags}
    (done : s.event b2c = some s') : s'.Serving P i := by
  obtain ⟨peers, cleared, rfl⟩ := Option.map_eq_some_iff.1 done
  obtain ⟨rfl, serves, sited, holds⟩ := serving
  have kept : peers.nodeId = s.peers.nodeId ∧ peers.watchdogTimers = s.peers.watchdogTimers ∧
      P peers := by
    unfold clearServed at cleared
    split_ifs at cleared
    · rw [← Option.some.inj cleared]
      exact ⟨rfl, rfl, holds⟩
    · rw [← Option.some.inj cleared]
      exact ⟨rfl, rfl, rule.clear holds⟩
  obtain ⟨node, watchdogs, holds⟩ := kept
  have presents : Presents peers.nodeId { s.drive.elev.state.incrementVersion with
      requests := peers.orders.toBoolTable s.peers.nodeId.val } := by
    rw [node]
    exact ⟨sited.1.ownState, sited.2⟩
  refine ⟨node, Peers.serves_copyOwnState presents ?_, ⟨sited.1, sited.2⟩,
    rule.publish holds presents⟩
  rw [watchdogs, node]
  exact serves.unwatched

/-- The second half of a step. -/
theorem Serving.handleEvent (rule : PeersRule P Q) (serving : s.Serving P i) {now : Nat}
    {floorSensor : Int} (done : s.handleEvent now floorSensor = some s') : s'.Serving P i := by
  have tested := serving.sited.nextEvent now
  unfold ElevatorNode.handleEvent at done
  dsimp only at done
  generalize ElevatorNode.nextEvent s.drive now = due at done tested
  obtain ⟨d, next⟩ := due
  cases next with
  | none =>
    obtain rfl := Option.some.inj done
    exact ⟨serving.nodeId, serving.serves, tested, serving.holds⟩
  | some event =>
    have handled : ElevatorNode.Serving P i { s with drive := (d.fsm now floorSensor event).1 } :=
      ⟨serving.nodeId, serving.serves, tested.fsm now floorSensor event, serving.holds⟩
    exact handled.event rule done

/-- Processing a packet. -/
theorem Serving.rxPacketProcessing (rule : PeersRule P Q) (serving : s.Serving P i) (now : Nat)
    {packet : ReceivedPacket kFloors} (carried : Q packet.toNetworkPacket) :
    (s.rxPacketProcessing now packet).Serving P i := by
  refine ⟨(s.peers.rxPacketProcessing_nodeId now packet).trans serving.nodeId,
    serving.serves.rxPacketProcessing now packet, serving.sited, ?_⟩
  change P (s.peers.rxPacketProcessing now packet)
  by_cases own : packet.sender = s.peers.nodeId
  · rw [Peers.rxPacketProcessing_own own]
    exact serving.holds
  · exact rule.receive serving.holds carried own

/-- A launch. -/
theorem serving_launch (rule : PeersRule P Q) {initial : Signals kFloors}
    {first : StepInput kFloors} (atFloor : initial.AtFloor)
    (launched : launch i initial first = some s) :
    s.Serving P i := by
  obtain ⟨synced, sync, handled⟩ := ElevatorNode.launch_cases launched
  exact ((ready_init rule i atFloor).sync rule sync).handleEvent rule handled

end ElevatorNode

namespace Fleet

variable {P : Peers kFloors → Prop} {Q : NetworkPacket kFloors → Prop}

/-- Every node serves, and every packet is as the rule says. -/
structure Serving (P : Peers kFloors → Prop) (Q : NetworkPacket kFloors → Prop) (s : Fleet kFloors) :
    Prop where
  /-- The nodes. -/
  node : ∀ i, (s.node i).Serving P i
  /-- The packets. -/
  sent : ∀ packet ∈ s.sent, Q packet

/-- A packet carries the identity of its sender. -/
theorem Serving.id_txPacketCopy {s : Fleet kFloors} (serving : s.Serving P Q) (i : Fin kElevs) :
    (s.node i).peers.txPacketCopy.id = i.val := by
  have id : (s.node i).peers.txPacketCopy.id = (s.node i).peers.nodeId.val :=
    (serving.node i).serves.presents.ownState.1
  rw [id, (serving.node i).nodeId]

/-- Replacing a node by one that serves. -/
theorem Serving.setNode {s : Fleet kFloors} (serving : s.Serving P Q) {i : Fin kElevs}
    {n : ElevatorNode kFloors} (new : n.Serving P i) : (s.setNode i n).Serving P Q := by
  refine ⟨fun j => ?_, serving.sent⟩
  by_cases same : j = i
  · subst same
    rwa [setNode_node_self]
  · rw [setNode_node_of_ne s n same]
    exact serving.node j

/-- A crash-free step. -/
theorem Serving.exec (rule : PeersRule P Q) {s s' : Fleet kFloors} {action : FleetAction kFloors}
    (serving : s.Serving P Q) (step : s.exec action = some s') : s'.Serving P Q := by
  cases action with
  | sync i now signals =>
    obtain ⟨n, done, rfl⟩ := Option.map_eq_some_iff.1 step
    exact serving.setNode ((serving.node i).ready.sync rule done)
  | handle i now floorSensor =>
    obtain ⟨n, done, rfl⟩ := Option.map_eq_some_iff.1 step
    exact serving.setNode ((serving.node i).handleEvent rule done)
  | transmit i =>
    obtain rfl := Option.some.inj step
    refine ⟨serving.node, fun packet member => ?_⟩
    rcases List.mem_append.1 member with old | new
    · exact serving.sent packet old
    · rw [List.mem_singleton.1 new]
      exact rule.transmit (serving.node i).holds (serving.node i).serves
  | receive i position now =>
    cases sent : s.sent[position]? with
    | none => simp [Fleet.exec, sent] at step
    | some packet =>
      have carried := serving.sent packet (List.mem_of_getElem? sent)
      simp only [Fleet.exec, sent] at step
      cases arrived : recievePacket packet with
      | none =>
        simp only [arrived] at step
        rwa [← Option.some.inj step]
      | some received =>
        simp only [arrived] at step
        rw [← Option.some.inj step]
        rw [← eq_of_recievePacket arrived] at carried
        exact serving.setNode ((serving.node i).rxPacketProcessing rule now carried)

/-- A step, or a crash and the launch that follows. -/
theorem Serving.step (rule : PeersRule P Q) {s s' : Fleet kFloors}
    {action : FleetRestartAction kFloors} (serving : s.Serving P Q)
    (step : FleetRestartStep s action s') : s'.Serving P Q := by
  cases action with
  | run action => exact serving.exec rule step
  | restart i initial first =>
    obtain ⟨atFloor, done⟩ := Option.ite_none_right_eq_some.1 step
    obtain ⟨n, launched, rfl⟩ := Option.map_eq_some_iff.1 done
    exact serving.setNode (ElevatorNode.serving_launch rule atFloor launched)

/-- What the operations on the shared part of a node keep holds of every node after every run. -/
theorem Launched.serving (rule : PeersRule P Q) {start s : Fleet kFloors}
    (launched : start.Launched)
    {trace : List (Transition (Fleet kFloors) (FleetRestartAction kFloors))}
    (run : Run FleetRestartStep start trace s) : s.Serving P Q := by
  refine run.invariant (Serving P Q) (fun step serving => serving.step rule step) ⟨fun i => ?_, ?_⟩
  · obtain ⟨initial, first, atFloor, node⟩ := launched.node i
    exact ElevatorNode.serving_launch rule atFloor node
  · rw [launched.sent]
    exact fun packet member => absurd member List.not_mem_nil

/-- What a car that rests at the bottom floor reads when the clock shows zero. -/
def restingAtBottom : StepInput Config.kFloors where
  now := 0
  signals := { floorSensor := 0 }

/-- A fleet launched with every car at the bottom floor. -/
def atBottom : Fleet Config.kFloors where
  node i := (ElevatorNode.launch i { floorSensor := 0 } restingAtBottom).getD
    (ElevatorNode.init i { floorSensor := 0 })
  sent := []

/-- Every launch succeeds. -/
theorem launched_atBottom : atBottom.Launched := by
  refine ⟨fun i => ⟨{ floorSensor := 0 }, restingAtBottom, by decide, ?_⟩, rfl⟩
  have succeeds : (ElevatorNode.launch i { floorSensor := 0 } restingAtBottom).isSome = true := by
    revert i
    decide
  obtain ⟨n, launched⟩ := Option.isSome_iff_exists.1 succeeds
  simp only [atBottom, launched, Option.getD_some]

end Fleet

end CppElevator
