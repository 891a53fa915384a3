import CppElevator.Fleet
import CppElevator.Verif.NodeEvents

/-!
# The fleet behind the cluster

What a fleet of whole nodes does to the shared parts is what a cluster does: every locked section
of a node is a few steps of the cluster at that node. So whatever holds after every run of a
cluster holds of the shared parts after every run of a fleet, and a turn of one node is part of
such a run.
-/
namespace CppElevator

open Library

variable {kFloors : Nat}

namespace Drive

/-- What the elevator tells its peers about who it is. -/
def identity (d : Drive kFloors) : Int × Bool := (d.elev.state.id, d.elev.state.active)

/-- Carrying out a decision keeps the identity. -/
theorem identity_executeDecision (d : Drive kFloors) (now : Nat) (pair : DirMovPair) :
    (d.executeDecision now pair).identity = d.identity := by
  unfold executeDecision
  split_ifs <;> rfl

/-- Closing the door keeps the identity. -/
theorem identity_closeDoorAndExecute (d : Drive kFloors) (now : Nat) (pair : DirMovPair) :
    (d.closeDoorAndExecute now pair).identity = d.identity := by
  unfold closeDoorAndExecute tryCloseDoor
  split_ifs <;> simp only [Bool.false_eq_true, ↓reduceIte, identity_executeDecision] <;> rfl

/-- Every event keeps the identity. -/
theorem identity_fsm (d : Drive kFloors) (now : Nat) (floorSensor : Int) (event : FsmEvent) :
    (d.fsm now floorSensor event).1.identity = d.identity := by
  cases event with
  | emergencyStop =>
    simp only [fsm, fsmEmergencyStop]
    split_ifs <;> rfl
  | emergencyStopReset =>
    simp only [fsm, fsmEmergencyStopReset]
    split_ifs
    · rfl
    · exact identity_executeDecision _ _ _
  | floorArrival =>
    simp only [fsm, fsmFloorArrival, Elevator.setFloorIndicator]
    split_ifs <;> rfl
  | tableUpdate =>
    simp only [fsm, fsmTableUpdate]
    cases d.elev.state.movingState <;> dsimp only <;> split_ifs <;>
      simp only [identity_executeDecision, identity_closeDoorAndExecute] <;> rfl
  | doorTimeout =>
    simp only [fsm, fsmDoorTimeout]
    split_ifs <;> first
      | rfl
      | exact identity_closeDoorAndExecute _ _ _
      | exact identity_executeDecision _ _ _
  | floorTimeout =>
    simp only [fsm, fsmFloorTimeout]
    split_ifs <;> rfl

/-- An initialised drive has the identity of its node and is active. -/
theorem identity_init (id : Int) (signals : Signals kFloors) :
    (init id signals).identity = (id, true) := by
  simp only [init, Elevator.init, identity, ElevatorState.setFloor]
  split_ifs <;> rfl

/-- The drive of an active node publishes itself under the node's name. -/
def Names (d : Drive kFloors) (i : Fin kElevs) : Prop := d.identity = ((i.val : Int), true)

/-- What such a drive publishes is what a cluster admits. -/
theorem Names.ownState {d : Drive kFloors} {i : Fin kElevs} (names : d.Names i) :
    OwnState i d.elev.state.incrementVersion := by
  obtain ⟨id, active⟩ := Prod.mk.inj names
  exact ⟨id, active, Nat.succ_pos _⟩

end Drive

namespace ElevatorNode

/-- The locked section of the main loop: the presses, then the state update and the passes. -/
theorem sync_cases {s s' : ElevatorNode kFloors} {now : StepClock kFloors} {signals : Signals kFloors}
    (done : s.sync now signals = some s') {i : Fin kElevs} (names : s.drive.Names i) :
    s'.drive.Names i ∧ ∃ buttonSignals own, OwnState i own ∧
      ((s.peers.syncButtonSignals buttonSignals).copyOwnState own).step now = some s'.peers := by
  obtain ⟨peers, stepped, same⟩ := Option.bind_eq_some_iff.1 done
  obtain rfl := Option.some.inj same
  have sampled : ({ s.drive with elev := s.drive.elev.step signals } : Drive kFloors).Names i := by
    refine Eq.trans ?_ names
    simp only [Drive.identity, Elevator.step, ElevatorState.setFloor]
    split_ifs <;> rfl
  exact ⟨sampled, _, _, sampled.ownState, stepped⟩

/-- Clearing no button changes nothing. -/
theorem clearOrders_zeros (p : Peers kFloors) (floor : Fin kFloors) :
    p.clearOrders floor ButtonFlags.zeros = p := by
  simp [Peers.clearOrders, ButtonFlags.zeros]

/-- The locked section of an event: the cleared orders, then the state update. -/
theorem event_cases {s s' : ElevatorNode kFloors} {b2c : ButtonFlags} (done : s.event b2c = some s')
    {i : Fin kElevs} (names : s.drive.Names i) (anyFloor : Fin kFloors) :
    s'.drive.Names i ∧ ∃ floor own, OwnState i own ∧
      s'.peers = (s.peers.clearOrders floor b2c).copyOwnState own := by
  obtain ⟨peers, cleared, rfl⟩ := Option.map_eq_some_iff.1 done
  have own : OwnState i { s.drive.elev.state.incrementVersion with
      requests := peers.orders.toBoolTable s.peers.nodeId.val } := names.ownState
  unfold clearServed at cleared
  split_ifs at cleared with none inside
  · obtain rfl := Option.some.inj cleared
    refine ⟨names, anyFloor, _, own, ?_⟩
    rw [none, clearOrders_zeros]
  · obtain rfl := Option.some.inj cleared
    exact ⟨names, _, _, own, rfl⟩

/-- A launch is a locked section and an event. -/
theorem launch_cases {i : Fin kElevs} {initial : Signals kFloors} {first : StepInput kFloors}
    {s : ElevatorNode kFloors} (launched : launch i initial first = some s) :
    ∃ synced, (init i initial).sync first.locked first.signals = some synced ∧
      synced.handleEvent first.now first.stopSensor = some s := by
  obtain ⟨before, due, handled⟩ := Option.bind_eq_some_iff.1 launched
  obtain ⟨synced, sync, rfl⟩ := Option.map_eq_some_iff.1 due
  exact ⟨synced, sync, handled⟩

/-- The second half of a step handles no event, or is the locked section of one. -/
theorem handleEvent_cases {s s' : ElevatorNode kFloors} {now : Nat} {floorSensor : Int}
    (done : s.handleEvent now floorSensor = some s') {i : Fin kElevs} (names : s.drive.Names i)
    (anyFloor : Fin kFloors) :
    s'.drive.Names i ∧ (s'.peers = s.peers ∨ ∃ floor own b2c, OwnState i own ∧
      s'.peers = (s.peers.clearOrders floor b2c).copyOwnState own) := by
  have tested : (nextEvent s.drive now).1.identity = s.drive.identity := by
    unfold nextEvent
    dsimp only
    split_ifs <;> rfl
  unfold handleEvent at done
  dsimp only at done
  generalize nextEvent s.drive now = due at done tested
  obtain ⟨d, next⟩ := due
  cases next with
  | none =>
    obtain rfl := Option.some.inj done
    exact ⟨tested.trans names, .inl rfl⟩
  | some event =>
    have handled : (d.fsm now floorSensor event).1.Names i :=
      (d.identity_fsm now floorSensor event).trans (tested.trans names)
    obtain ⟨named, floor, own, published, peers⟩ := event_cases done handled anyFloor
    exact ⟨named, .inr ⟨floor, own, _, published, peers⟩⟩

end ElevatorNode

namespace Fleet

/-- Replacing a node replaces its shared part. -/
theorem shared_setNode (s : Fleet kFloors) (i : Fin kElevs) (n : ElevatorNode kFloors) :
    (s.setNode i n).shared = s.shared.setNode i n.peers := by
  simp only [shared, setNode, Cluster.setNode, Cluster.mk.injEq, and_true]
  funext j
  by_cases same : j = i
  · subst same
    simp
  · simp [same]

/-- A node whose shared part stays as it was leaves the cluster as it was. -/
theorem shared_setNode_same (s : Fleet kFloors) {i : Fin kElevs} {n : ElevatorNode kFloors}
    (same : n.peers = (s.node i).peers) : (s.setNode i n).shared = s.shared := by
  rw [shared_setNode, same]
  exact congrArg (Cluster.mk · s.sent) (Function.update_eq_self i _)

/-- Every elevator of the fleet publishes itself under its node's name. -/
def Named (s : Fleet kFloors) : Prop := ∀ i, (s.node i).drive.Names i

/-- Replacing a node by one that names itself. -/
theorem Named.setNode {s : Fleet kFloors} (named : s.Named) {i : Fin kElevs}
    {n : ElevatorNode kFloors} (names : n.drive.Names i) : (s.setNode i n).Named := by
  intro j
  by_cases same : j = i
  · subst same
    simpa [Fleet.setNode] using names
  · simpa [Fleet.setNode, same] using named j

/-- A new fleet names itself. -/
theorem named_init (signals : Fin kElevs → Signals kFloors) : (init signals).Named :=
  fun i => Drive.identity_init i.val (signals i)

/-- The presses and the passes of a node, one after the other. -/
theorem run_press_step (c : Cluster kFloors) {i : Fin kElevs} (buttonSignals : BoolTable kFloors)
    {own : ElevatorState kFloors} {now : StepClock kFloors} {p : Peers kFloors} (published : OwnState i own)
    (stepped : (((c.node i).syncButtonSignals buttonSignals).copyOwnState own).step now = some p) :
    ∃ trace, Run ClusterStep c trace (c.setNode i p) := by
  let noted : Cluster kFloors := c.setNode i ((c.node i).syncButtonSignals buttonSignals)
  have press : ClusterStep c (.press i buttonSignals) noted := rfl
  have step : ClusterStep noted (.step i own now) (c.setNode i p) := by
    have here : noted.node i = (c.node i).syncButtonSignals buttonSignals :=
      Function.update_self i _ _
    have again : noted.setNode i p = c.setNode i p :=
      congrArg (Cluster.mk · c.sent) (Function.update_idem _ _ _)
    unfold ClusterStep
    simp only [Cluster.exec, if_pos published, here, stepped, Option.map_some, again]
  exact ⟨_, (Run.single press).snoc step⟩

/-- Every step of a fleet is matched by steps of the cluster. -/
theorem matched_step {s s' : Fleet kFloors} {action : FleetAction kFloors}
    (anyFloor : Fin kFloors) (step : FleetStep s action s') (named : s.Named) :
    s'.Named ∧ ∃ trace, Run ClusterStep s.shared trace s'.shared := by
  cases action with
  | sync i now signals =>
    obtain ⟨n, done, rfl⟩ := Option.map_eq_some_iff.1 step
    obtain ⟨names, buttonSignals, own, published, stepped⟩ := ElevatorNode.sync_cases done (named i)
    rw [shared_setNode]
    exact ⟨named.setNode names, run_press_step s.shared buttonSignals published stepped⟩
  | handle i now floorSensor =>
    obtain ⟨n, done, rfl⟩ := Option.map_eq_some_iff.1 step
    obtain ⟨names, idle | ⟨floor, own, b2c, published, cleared⟩⟩ :=
      ElevatorNode.handleEvent_cases done (named i) anyFloor
    · rw [shared_setNode_same s idle]
      exact ⟨named.setNode names, [], .nil _⟩
    · rw [shared_setNode, cleared]
      exact ⟨named.setNode names, [⟨_, .clear i own floor b2c, _⟩], .single (if_pos published)⟩
  | transmit i =>
    obtain rfl := Option.some.inj step
    exact ⟨named, [⟨_, .transmit i, _⟩], .single rfl⟩
  | receive i position now =>
    cases sent : s.sent[position]? with
    | none => simp [FleetStep, Fleet.exec, sent] at step
    | some packet =>
      have available : s.shared.sent[position]? = some packet := sent
      simp only [FleetStep, Fleet.exec, sent] at step
      cases arrived : recievePacket packet with
      | none =>
        simp only [arrived] at step
        obtain rfl := Option.some.inj step
        refine ⟨named, [⟨_, .receive i position now, _⟩], .single ?_⟩
        simp only [ClusterStep, Cluster.exec, available, arrived]
      | some received =>
        simp only [arrived] at step
        obtain rfl := Option.some.inj step
        have names : ((s.node i).rxPacketProcessing now received).drive.Names i := named i
        refine ⟨named.setNode names, [⟨_, .receive i position now, _⟩], .single ?_⟩
        simp only [ClusterStep, Cluster.exec, available, arrived, shared_setNode]
        rfl

/-- The shared parts of a fleet behave like a cluster: every run of a fleet from initialised nodes
is matched by a run of the cluster from its initial state. -/
theorem cluster_of_fleet {signals : Fin kElevs → Signals kFloors} (anyFloor : Fin kFloors)
    {trace : List (Transition (Fleet kFloors) (FleetAction kFloors))} {s : Fleet kFloors}
    (run : Run FleetStep (init signals) trace s) :
    ∃ trace', Run ClusterStep Cluster.initial trace' s.shared :=
  (run.simulates shared Named (matched_step anyFloor) (named_init signals)).2

/-- A replaced node. -/
@[simp]
theorem setNode_node_self (s : Fleet kFloors) (i : Fin kElevs) (n : ElevatorNode kFloors) :
    (s.setNode i n).node i = n := by
  simp [setNode]

/-- The other nodes stay. -/
theorem setNode_node_of_ne (s : Fleet kFloors) {i j : Fin kElevs} (n : ElevatorNode kFloors)
    (other : j ≠ i) : (s.setNode i n).node j = s.node j := Function.update_of_ne other _ _

/-- A packet is rejected, or processed. -/
theorem receive_cases {s s' : Fleet kFloors} {j : Fin kElevs} {position now : Nat}
    (step : FleetRestartStep s (.run (.receive j position now)) s') :
    (∃ packet, s.sent[position]? = some packet ∧ recievePacket packet = none ∧ s' = s) ∨
      ∃ received : ReceivedPacket kFloors, s.sent[position]? = some received.toNetworkPacket ∧
        s' = s.setNode j ((s.node j).rxPacketProcessing now received) := by
  simp only [FleetRestartStep, execRestart, exec] at step
  cases sent : s.sent[position]? with
  | none => simp [sent] at step
  | some packet =>
    cases arrived : recievePacket packet with
    | none =>
      simp only [sent, arrived] at step
      exact .inl ⟨packet, rfl, arrived, (Option.some.inj step).symm⟩
    | some received =>
      simp only [sent, arrived] at step
      exact .inr ⟨received, by rw [eq_of_recievePacket arrived], (Option.some.inj step).symm⟩

/-- The last replacement counts. -/
@[simp]
theorem setNode_setNode (s : Fleet kFloors) (i : Fin kElevs) (n n' : ElevatorNode kFloors) :
    (s.setNode i n).setNode i n' = s.setNode i n' :=
  congrArg (Fleet.mk · s.sent) (Function.update_idem _ _ _)

/-- A node may process packets that have been sent, one after the other. -/
theorem run_receive (s : Fleet kFloors) (i : Fin kElevs) (n : ElevatorNode kFloors)
    (packets : List (Nat × ReceivedPacket kFloors))
    (available : ∀ packet ∈ packets, packet.2.toNetworkPacket ∈ s.sent) :
    ∃ trace, Run FleetStep (s.setNode i n) trace (s.setNode i (n.receive packets)) := by
  induction packets generalizing n with
  | nil => exact ⟨[], .nil _⟩
  | cons packet packets ih =>
    obtain ⟨position, sent⟩ := List.mem_iff_getElem?.1 (available packet List.mem_cons_self)
    have arrives : recievePacket packet.2.toNetworkPacket = some packet.2 := dif_pos packet.2.checked
    have first : FleetStep (s.setNode i n) (.receive i position packet.1)
        (s.setNode i (n.rxPacketProcessing packet.1 packet.2)) := by
      have there : (s.setNode i n).sent[position]? = some packet.2.toNetworkPacket := sent
      simp only [FleetStep, exec, there, arrives, setNode_node_self, setNode_setNode]
    obtain ⟨trace, rest⟩ := ih (n.rxPacketProcessing packet.1 packet.2)
      fun packet member => available packet (List.mem_cons_of_mem _ member)
    exact ⟨_, (Run.single first).append rest⟩

/-- A turn of one node is a run of the fleet, if the packets it processes have been sent. -/
theorem run_of_turn {s : Fleet kFloors} {i : Fin kElevs} {input : NodeInput kFloors}
    {n : ElevatorNode kFloors} (turned : NodeStep (s.node i) input n)
    (available : ∀ packet ∈ input.earlier ++ input.between, packet.2.toNetworkPacket ∈ s.sent) :
    ∃ trace, Run FleetStep s trace (s.setNode i n) := by
  obtain ⟨q, due, handled⟩ := ElevatorNode.turn_cases turned
  obtain ⟨synced, sync, rfl⟩ := Option.map_eq_some_iff.1 due
  obtain ⟨before, earlier⟩ := s.run_receive i (s.node i) input.earlier
    fun packet member => available packet (List.mem_append_left _ member)
  obtain ⟨after, between⟩ := s.run_receive i synced input.between
    fun packet member => available packet (List.mem_append_right _ member)
  have same : s.setNode i (s.node i) = s :=
    congrArg (Fleet.mk · s.sent) (Function.update_eq_self i s.node)
  have locked : FleetStep (s.setNode i ((s.node i).receive input.earlier))
      (.sync i input.locked input.signals) (s.setNode i synced) := by
    simp only [FleetStep, exec, setNode_node_self, sync, Option.map_some, setNode_setNode]
  have event : FleetStep (s.setNode i (synced.receive input.between))
      (.handle i input.now input.stopSensor) (s.setNode i n) := by
    simp only [FleetStep, exec, setNode_node_self, handled, Option.map_some, setNode_setNode]
  rw [same] at earlier
  exact ⟨_, ((earlier.snoc locked).append between).snoc event⟩

end Fleet

end CppElevator
