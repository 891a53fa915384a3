import CppElevator.Library.Gossip
import CppElevator.Verif.OrderGrowth
import CppElevator.Verif.PacketValidity

/-!
# The fleet gossips about each hall order

What the nodes of a fleet know of one hall order is a gossip over the semilattice of versioned
knowledge: pressing, stepping and clearing add to what a node knows, a packet carries what its sender
knows, and processing it joins that to what the receiver knows. Only a launch makes a node forget.
-/
namespace CppElevator

open Library Peers

variable {kFloors : Nat}

/-- What is known of a hall order. -/
abbrev HallInfo := Versioned (Set ℕ × (ℕ ×ₗ ℤᵒᵈ))

namespace NetworkPacket

/-- The elevator a packet names as its sender. -/
def origin (packet : NetworkPacket kFloors) : Fin kElevs := Fin.ofNat kElevs packet.id.toNat

/-- It is the one with the identity of the packet. -/
theorem origin_eq {packet : NetworkPacket kFloors} {i : Fin kElevs} (id : packet.id = i.val) :
    packet.origin = i := by
  apply Fin.ext
  simp only [origin, id, Int.toNat_natCast, Fin.val_ofNat]
  exact Nat.mod_eq_of_lt i.isLt

end NetworkPacket

namespace Fleet

variable {s s' l l' : Fleet kFloors} {action : FleetRestartAction kFloors} {f : Fin kFloors}
  {b : BtnType}

/-- What the nodes and the packets of a fleet know of a hall order. -/
def gossip (f : Fin kFloors) (b : BtnType) (s : Fleet kFloors) : Gossip (Fin kElevs) HallInfo where
  know j := (s.order j f b).knowledge
  sent := s.sent.map fun packet => (packet.origin, (packet.orders f b).knowledge)

/-- What a step of the fleet means to the gossip. A packet of its own teaches a node nothing. -/
def gossipAction (t : Transition (Fleet kFloors) (FleetRestartAction kFloors)) :
    GossipAction (Fin kElevs) :=
  match t.action with
  | .run (.sync i _ _) => .learn i
  | .run (.handle i _ _) => .learn i
  | .run (.transmit i) => .send i
  | .run (.receive j position _) =>
    if t.pre.sent[position]?.any (fun packet => decide (packet.origin = j)) = true then .learn j
    else .merge j position
  | .restart i _ _ => .forget i

/-- The transition of the gossip. -/
def gossipStep (f : Fin kFloors) (b : BtnType)
    (t : Transition (Fleet kFloors) (FleetRestartAction kFloors)) :
    Transition (Gossip (Fin kElevs) HallInfo) (GossipAction (Fin kElevs)) :=
  ⟨t.pre.gossip f b, gossipAction t, t.post.gossip f b⟩

/-- A node that only its own thread changes learns by itself. -/
theorem learns (hall : b ≠ .cab) (step : FleetRestartStep s action s') {i : Fin kElevs}
    (stays : ¬Relaunches i action) (sent : s'.sent = s.sent)
    (others : ∀ k, k ≠ i → s'.node k = s.node k) :
    GossipStep (s.gossip f b) (.learn i) (s'.gossip f b) := by
  refine ⟨?_, knowledge_le_of_step step stays f hall, fun k apart => ?_⟩
  · simp only [gossip, sent]
  · simp only [gossip, order, others k apart]

/-- Every step of a fleet is a step of the gossip. -/
theorem gossip_of_step (hall : b ≠ .cab) (serving : s.Serving OrdersValid (·.valid = true))
    (step : FleetRestartStep s action s') :
    GossipStep (s.gossip f b) (gossipAction ⟨s, action, s'⟩) (s'.gossip f b) := by
  have executed := step
  cases action with
  | run action =>
    cases action with
    | sync i now signals =>
      obtain ⟨n, -, rfl⟩ := Option.map_eq_some_iff.1 executed
      exact learns hall step id rfl fun k apart => setNode_node_of_ne s n apart
    | handle i now floorSensor =>
      obtain ⟨n, -, rfl⟩ := Option.map_eq_some_iff.1 executed
      exact learns hall step id rfl fun k apart => setNode_node_of_ne s n apart
    | transmit i =>
      obtain rfl := Option.some.inj executed
      refine ⟨?_, rfl⟩
      simp only [gossip, List.map_append, List.map_cons, List.map_nil]
      rw [NetworkPacket.origin_eq (serving.id_txPacketCopy i)]
      rfl
    | receive j position now =>
      rcases receive_cases executed with ⟨packet, sent, rejected, -⟩ | ⟨received, sent, rfl⟩
      · have valid := serving.sent packet (List.mem_of_getElem? sent)
        simp [recievePacket, valid] at rejected
      have origin : received.toNetworkPacket.origin = received.sender :=
        NetworkPacket.origin_eq received.id_eq_sender
      have others (k : Fin kElevs) (apart : k ≠ j) :=
        setNode_node_of_ne s ((s.node j).rxPacketProcessing now received) apart
      simp only [gossipAction, sent, Option.any_some, origin, decide_eq_true_eq]
      split_ifs with own
      · exact learns hall step id rfl others
      · have foreign : received.sender ≠ (s.node j).peers.nodeId := by
          rwa [(serving.node j).nodeId]
        refine ⟨rfl, fun k apart => ?_, received.sender, (received.orders f b).knowledge, ?_, ?_⟩
        · simp only [gossip, order, others k apart]
        · simp only [gossip, List.getElem?_map, sent, Option.map_some, origin]
        · simp only [gossip, order, setNode_node_self]
          exact knowledge_rxPacketProcessing now foreign hall
  | restart i initial first =>
    obtain ⟨-, done⟩ := Option.ite_none_right_eq_some.1 executed
    obtain ⟨n, -, rfl⟩ := Option.map_eq_some_iff.1 done
    refine ⟨rfl, fun k apart => ?_⟩
    simp only [gossip, order, setNode_node_of_ne s n apart]

/-- From a state in which all nodes serve, every run of a fleet is a run of the gossip. -/
theorem Serving.gossips (serving : s.Serving OrdersValid (·.valid = true)) (hall : b ≠ .cab)
    {trace : List (Transition (Fleet kFloors) (FleetRestartAction kFloors))}
    (run : Run FleetRestartStep s trace s') :
    Run GossipStep (s.gossip f b) (trace.map (gossipStep f b)) (s'.gossip f b) :=
  run.image (gossip f b) gossipAction (Serving OrdersValid (·.valid = true))
    (fun step serving => ⟨serving.step OrdersValid.rule step, gossip_of_step hall serving step⟩) serving

/-- Every run of a fleet launched at floors, crashes and launches included, is for each hall order a run
of the gossip about the order, step by step: only a launch takes back what a node knows, a packet
carries what its sender knows, and what is received is joined to what is known. -/
theorem fleet_gossips (hall : b ≠ .cab) {start : Fleet kFloors} (launched : start.Launched)
    {trace : List (Transition (Fleet kFloors) (FleetRestartAction kFloors))}
    (run : Run FleetRestartStep start trace s) :
    Run GossipStep (start.gossip f b) (trace.map (gossipStep f b)) (s.gossip f b) :=
  (launched.serving OrdersValid.rule (.nil start)).gossips hall run

/-- A node is called, tells another, and is launched again. -/
theorem fleet_gossips_called : ∃ trace s, Run FleetRestartStep atBottom trace s ∧
    trace.length = 4 ∧ Run GossipStep (atBottom.gossip 1 .hallUp) (trace.map (gossipStep 1 .hallUp))
      (Fleet.gossip 1 .hallUp s) := by
  let actions : List (FleetRestartAction Config.kFloors) :=
    [.run (.sync 0 (.still 40) { floorSensor := 0, buttons := .only 1 .hallUp }), .run (.transmit 0),
      .run (.receive 1 0 50), .restart 0 { floorSensor := 0 } { now := 900, signals := { floorSensor := 0 } }]
  have evaluated : (actions.foldlM execRestart atBottom).any (fun _ => true) = true := by decide +kernel
  obtain ⟨trace, s, run, labels, -⟩ := Run.of_check FleetRestartStep id evaluated
  have four : trace.length = 4 := by
    rw [← List.length_map Transition.action, labels]
    rfl
  exact ⟨trace, s, run, four, fleet_gossips (by decide) launched_atBottom run⟩

end Fleet

end CppElevator
