import CppElevator.Cluster
import CppElevator.Verif.Orders
import CppElevator.Verif.Passes

/-!
# What a step of the cluster does to one order

Every node of a reachable cluster keeps its identity, and one step changes at most one node.
The case lemmas say how a hall order of a node changes, and which packets are added.
-/
namespace CppElevator

open Library

variable {kFloors : Nat}

/-- Node `i` carries identity `i`. -/
def Cluster.Identified (s : Cluster kFloors) : Prop := ∀ i, (s.node i).nodeId = i

/-- The initial nodes carry their identities. -/
theorem Cluster.identified_initial : (Cluster.initial : Cluster kFloors).Identified :=
  fun _ => rfl

namespace Cluster

/-- The replaced node. -/
@[simp]
theorem setNode_node_self (s : Cluster kFloors) (i : Fin kElevs) (p : Peers kFloors) :
    (s.setNode i p).node i = p := by
  simp [setNode]

/-- The other nodes. -/
theorem setNode_node_of_ne (s : Cluster kFloors) {i j : Fin kElevs} (p : Peers kFloors)
    (other : j ≠ i) : (s.setNode i p).node j = s.node j := by
  simp [setNode, other]

/-- What holds of every node holds after one of them is replaced by a node of which it holds. -/
theorem forall_setNode (Good : Fin kElevs → Peers kFloors → Prop) {s : Cluster kFloors}
    {i : Fin kElevs} {p : Peers kFloors} (old : ∀ j, Good j (s.node j)) (new : Good i p) :
    ∀ j, Good j ((s.setNode i p).node j) := by
  intro j
  by_cases here : j = i
  · subst here
    rw [setNode_node_self]
    exact new
  · rw [setNode_node_of_ne _ _ here]
    exact old j

end Cluster

/-- The results of a step of the cluster, by action. -/
theorem clusterStep_cases {s s' : Cluster kFloors} {action : Action kFloors}
    (step : ClusterStep s action s') :
    (∃ i buttonSignals, action = .press i buttonSignals ∧
      s' = s.setNode i ((s.node i).syncButtonSignals buttonSignals)) ∨
    (∃ i own now p, action = .step i own now ∧ OwnState i own ∧
      ((s.node i).copyOwnState own).step now = some p ∧ s' = s.setNode i p) ∨
    (∃ i own floor b2c, action = .clear i own floor b2c ∧ OwnState i own ∧
      s' = s.setNode i (((s.node i).clearOrders floor b2c).copyOwnState own)) ∨
    (∃ i, action = .transmit i ∧ s' = { s with sent := s.sent ++ [(s.node i).txPacketCopy] }) ∨
    (∃ i position now packet, action = .receive i position now ∧
      s.sent[position]? = some packet ∧
      (s' = s ∨ ∃ received, recievePacket packet = some received ∧
        s' = s.setNode i ((s.node i).rxPacketProcessing now received))) := by
  cases action with
  | press i buttonSignals => exact .inl ⟨i, buttonSignals, rfl, (Option.some.inj step).symm⟩
  | step i own now =>
    simp only [ClusterStep, Cluster.exec] at step
    split_ifs at step with valid
    obtain ⟨p, stepped, rfl⟩ := Option.map_eq_some_iff.1 step
    exact .inr (.inl ⟨i, own, now, p, rfl, valid, stepped, rfl⟩)
  | clear i own floor b2c =>
    simp only [ClusterStep, Cluster.exec] at step
    split_ifs at step with valid
    exact .inr (.inr (.inl ⟨i, own, floor, b2c, rfl, valid, (Option.some.inj step).symm⟩))
  | transmit i =>
    exact .inr (.inr (.inr (.inl ⟨i, rfl, (Option.some.inj step).symm⟩)))
  | receive i position now =>
    simp only [ClusterStep, Cluster.exec] at step
    cases found : s.sent[position]? with
    | none => simp [found] at step
    | some packet =>
      refine .inr (.inr (.inr (.inr
        ⟨i, position, now, packet, rfl, found, ?_⟩)))
      simp only [found, Option.some.injEq] at step
      cases arrived : recievePacket packet with
      | none =>
        rw [arrived] at step
        exact .inl step.symm
      | some received =>
        rw [arrived] at step
        exact .inr ⟨received, rfl, step.symm⟩

/-- Processing a packet keeps the node's identity. -/
theorem Peers.rxPacketProcessing_nodeId (p : Peers kFloors) (now : Nat)
    (packet : ReceivedPacket kFloors) : (p.rxPacketProcessing now packet).nodeId = p.nodeId := by
  unfold rxPacketProcessing
  dsimp only
  split_ifs <;> rfl

/-- Steps keep the identities. -/
theorem Cluster.Identified.step {s s' : Cluster kFloors} {action : Action kFloors}
    (ids : s.Identified) (step : ClusterStep s action s') : s'.Identified := by
  have replaced {i : Fin kElevs} {p : Peers kFloors} (same : p.nodeId = (s.node i).nodeId) :
      (s.setNode i p).Identified :=
    Cluster.forall_setNode (fun j p => p.nodeId = j) ids (same.trans (ids i))
  rcases clusterStep_cases step with ⟨i, _, _, rfl⟩ | ⟨i, own, now, p, _, _, stepped, rfl⟩ |
    ⟨i, _, _, _, _, _, rfl⟩ | ⟨i, _, rfl⟩ | ⟨i, _, now, _, _, _, rfl | ⟨received, _, rfl⟩⟩
  · exact replaced rfl
  · exact replaced (Peers.advances_step stepped).nodeId
  · exact replaced rfl
  · exact ids
  · exact ids
  · exact replaced (Peers.rxPacketProcessing_nodeId _ _ _)

/-- The sender of a received packet in terms of the identity it carries. -/
theorem ReceivedPacket.id_eq_sender (packet : ReceivedPacket kFloors) :
    packet.id = packet.sender.val := by
  have range := packet.id_range
  simp only [sender]
  omega

/-- A node publishes its own identity, or none yet. -/
def Peers.PublishesSelf (i : Fin kElevs) (p : Peers kFloors) : Prop :=
  (p.allStates i).id = -1 ∨ (p.allStates i).id = i.val

/-- No node publishes a foreign identity. -/
def Cluster.Published (s : Cluster kFloors) : Prop :=
  ∀ i, ((s.node i).allStates i).id = -1 ∨ ((s.node i).allStates i).id = i.val

/-- Replacing a node by one that publishes itself. -/
theorem Cluster.Published.setNode {s : Cluster kFloors} (published : s.Published) {i : Fin kElevs}
    {p : Peers kFloors} (own : p.PublishesSelf i) : (s.setNode i p).Published :=
  Cluster.forall_setNode Peers.PublishesSelf published own

/-- No step publishes a foreign identity. -/
theorem Cluster.Published.step {s s' : Cluster kFloors} {action : Action kFloors}
    (published : s.Published) (ids : s.Identified) (step : ClusterStep s action s') :
    s'.Published := by
  rcases clusterStep_cases step with ⟨i, signals, -, rfl⟩ | ⟨i, own, now, p, -, valid, stepped, rfl⟩ |
    ⟨i, own, floor, b2c, -, valid, rfl⟩ | ⟨i, -, rfl⟩ |
    ⟨i, position, now, packet, -, sent, rfl | ⟨received, arrived, rfl⟩⟩
  · exact published.setNode (published i)
  · apply published.setNode
    have node : (s.node i).nodeId = i := ids i
    have state := (Peers.advances_step stepped).states i
    simp only [Peers.copyOwnState, node, Function.update_self] at state
    right
    rcases state with kept | timedOut
    · rw [kept, valid.1]
    · rw [timedOut]
      exact valid.1
  · apply published.setNode
    have node : ((s.node i).clearOrders floor b2c).nodeId = i := ids i
    simp only [Peers.PublishesSelf, Peers.copyOwnState, node, Function.update_self]
    exact .inr valid.1
  · exact published
  · exact published
  · apply published.setNode
    by_cases own : received.sender = (s.node i).nodeId
    · rw [Peers.rxPacketProcessing_own own]
      exact published i
    · have other : i ≠ received.sender := fun same => own (same ▸ (ids i).symm)
      simp only [Peers.PublishesSelf, Peers.rxPacketProcessing, if_neg own,
        Function.update_of_ne other]
      exact published i

/-- A crash keeps the identities. -/
theorem Cluster.Identified.restart {s s' : Cluster kFloors} {action : RestartAction kFloors}
    (ids : s.Identified) (step : RestartStep s action s') : s'.Identified := by
  cases action with
  | run action => exact Cluster.Identified.step ids step
  | crash i =>
    obtain rfl := Option.some.inj step
    exact Cluster.forall_setNode (fun j p => p.nodeId = j) ids rfl

/-- A crashed node publishes nothing until it is initialised. -/
theorem Cluster.Published.restart {s s' : Cluster kFloors} {action : RestartAction kFloors}
    (published : s.Published) (ids : s.Identified) (step : RestartStep s action s') :
    s'.Published := by
  cases action with
  | run action => exact Cluster.Published.step published ids step
  | crash i =>
    obtain rfl := Option.some.inj step
    exact published.setNode (.inl rfl)

/-- How one step changes the hall order of a cell at node `i`. -/
inductive HallChange (s : Cluster kFloors) (i : Fin kElevs) (f : Fin kFloors) (b : BtnType)
    (o : Order) : Action kFloors → Order → Prop where
  /-- The step does not concern the cell. -/
  | same (action : Action kFloors) : HallChange s i f b o action o
  /-- The button is pressed at the node. -/
  | request (buttonSignals : BoolTable kFloors) :
      HallChange s i f b o (.press i buttonSignals) (o.onRequest i)
  /-- The node runs its passes. -/
  | passes (own : ElevatorState kFloors) (now : StepClock kFloors) {o' : Order} (path : HallPath i o o') :
      HallChange s i f b o (.step i own now) o'
  /-- The node clears an order assigned to it. -/
  | clear (own : ElevatorState kFloors) (b2c : ButtonFlags) (flag : b2c b = true)
      (assigned : o.assignedId = i.val) : HallChange s i f b o (.clear i own f b2c) o.onClear
  /-- The node merges the copy of a packet another node sent earlier. -/
  | merge (position now : Nat) {received : ReceivedPacket kFloors}
      (sent : s.sent[position]? = some received.toNetworkPacket) (foreign : received.sender ≠ i) :
      HallChange s i f b o (.receive i position now) (o.onUpdate (received.orders f b))

/-- Replacing a node changes the copy there alone. -/
theorem hallChange_of_setNode {s : Cluster kFloors} {action : Action kFloors} {i j : Fin kElevs}
    {p : Peers kFloors} {f : Fin kFloors} {b : BtnType}
    (here : i = j → HallChange s i f b ((s.node i).orders f b) action (p.orders f b)) :
    HallChange s j f b ((s.node j).orders f b) action (((s.setNode i p).node j).orders f b) := by
  by_cases same : i = j
  · subst same
    rw [Cluster.setNode_node_self]
    exact here rfl
  · rw [Cluster.setNode_node_of_ne _ _ (Ne.symm same)]
    exact .same action

/-- A step changes every hall order of every node in one of the listed ways. -/
theorem hallChange_of_step {s s' : Cluster kFloors} {action : Action kFloors}
    (ids : s.Identified) (step : ClusterStep s action s') (j : Fin kElevs) (f : Fin kFloors)
    {b : BtnType} (hall : b ≠ .cab) :
    HallChange s j f b ((s.node j).orders f b) action ((s'.node j).orders f b) := by
  rcases clusterStep_cases step with ⟨i, signals, rfl, rfl⟩ | ⟨i, own, now, p, rfl, _, stepped, rfl⟩ |
    ⟨i, own, floor, b2c, rfl, _, rfl⟩ | ⟨i, rfl, rfl⟩ |
    ⟨i, position, now, packet, rfl, sent, rfl | ⟨received, arrived, rfl⟩⟩
  · refine hallChange_of_setNode fun _ => ?_
    by_cases set : signals f b = true
    · simp only [Peers.syncButtonSignals, set, ↓reduceIte, hall, ids i]
      exact .request signals
    · simp only [Peers.syncButtonSignals, set, Bool.false_eq_true, ↓reduceIte]
      exact .same _
  · refine hallChange_of_setNode fun _ => ?_
    have path := (Peers.advances_step stepped).hall f b hall
    have node : ((s.node i).copyOwnState own).nodeId = i := ids i
    rw [node] at path
    exact .passes own now path
  · refine hallChange_of_setNode fun _ => ?_
    by_cases set : f = floor ∧ b2c b = true
    · obtain ⟨rfl, flag⟩ := set
      by_cases assigned : ((s.node i).orders f b).assignedId = i.val
      · simp only [Peers.copyOwnState, Peers.clearOrders, flag, and_self, ↓reduceIte, hall,
          ids i, assigned]
        exact .clear own b2c flag assigned
      · simp only [Peers.copyOwnState, Peers.clearOrders, flag, and_self, ↓reduceIte, hall,
          ids i, assigned]
        exact .same _
    · simp only [Peers.copyOwnState, Peers.clearOrders, set, ↓reduceIte]
      exact .same _
  · exact .same _
  · exact .same _
  · refine hallChange_of_setNode fun _ => ?_
    by_cases own : received.sender = (s.node i).nodeId
    · rw [Peers.rxPacketProcessing_own own]
      exact .same _
    · rw [Peers.rxPacketProcessing_hall own hall]
      rw [← eq_of_recievePacket arrived] at sent
      exact .merge position now sent (by rwa [ids i] at own)

/-- The passes never lower a version. -/
theorem version_le_of_path {n : Fin kElevs} {o o' : Order} (path : HallPath n o o') :
    o.version ≤ o'.version := by
  induction path with
  | refl => exact le_rfl
  | tail _ step ih =>
    refine ih.trans ?_
    cases step with
    | observe _ => exact le_rfl
    | confirm requested e =>
      rw [Order.onConfirm_of_requested _ requested]
      exact Nat.le_succ _
    | reset clear =>
      rw [Order.onReset_of_clear clear]
      exact Nat.le_succ _
    | reassign _ e => exact Nat.le_succ _

/-- No step lowers the version of a hall order. -/
theorem HallChange.version_le {s : Cluster kFloors} {i : Fin kElevs} {f : Fin kFloors} {b : BtnType}
    {o o' : Order} {action : Action kFloors} (change : HallChange s i f b o action o') :
    o.version ≤ o'.version := by
  cases change with
  | same => exact le_rfl
  | request =>
    by_cases open_ : o.status = .none ∨ o.status = .clear
    · rw [Order.onRequest_of_open _ open_]
      exact Nat.le_succ _
    · rw [Order.onRequest_of_underway _ open_]
  | passes own now path => exact version_le_of_path path
  | clear own b2c flag assigned =>
    by_cases confirmed : o.status = .confirmed
    · rw [Order.onClear_of_confirmed confirmed]
      exact Nat.le_succ _
    · rw [Order.onClear_of_not_confirmed confirmed]
  | merge position now sent foreign => exact o.version_le_onUpdate _

/-- A packet after a step was sent before, or carries the tables of a node that the step leaves as
it is. -/
theorem sent_of_step {s s' : Cluster kFloors} {action : Action kFloors}
    (step : ClusterStep s action s') {packet : NetworkPacket kFloors} (sent : packet ∈ s'.sent) :
    packet ∈ s.sent ∨ s'.node = s.node ∧ ∃ i, packet = (s.node i).txPacketCopy := by
  rcases clusterStep_cases step with ⟨i, _, _, rfl⟩ | ⟨i, _, _, _, _, _, _, rfl⟩ |
    ⟨i, _, _, _, _, _, rfl⟩ | ⟨i, _, rfl⟩ | ⟨i, _, _, _, _, _, rfl | ⟨_, _, rfl⟩⟩
  · exact .inl sent
  · exact .inl sent
  · exact .inl sent
  · rcases List.mem_append.1 sent with earlier | now
    · exact .inl earlier
    · exact .inr ⟨rfl, i, List.mem_singleton.1 now⟩
  · exact .inl sent
  · exact .inl sent

/-- A step in which the passes of node `i` confirm the order of a hall cell. -/
def ConfirmsAt (i : Fin kElevs) (f : Fin kFloors) (b : BtnType)
    (t : Transition (Cluster kFloors) (Action kFloors)) : Prop :=
  ∃ own now, t.action = .step i own now ∧ ((t.pre.node i).orders f b).status = .requested ∧
    ((t.post.node i).orders f b).status = .confirmed

end CppElevator
