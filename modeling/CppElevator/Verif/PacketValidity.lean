import CppElevator.Verif.FleetInvariants
import CppElevator.Verif.OrderRules
import CppElevator.Verif.Orders

/-!
# Packets pass the check of their receivers

`NetworkPacket::Valid` looks at the state and at every order of a packet. The state is valid because
a launched elevator stays at floors of its building; an order is valid because no operation names
an elevator outside the cluster or sets a bit above those of the cluster, and a merge takes its
fields from two valid orders.
-/
namespace CppElevator

open Library

variable {kFloors : Nat}

namespace Order

/-- The parts of `Order::Valid`; every status is legal. -/
theorem valid_iff {o : Order} :
    o.valid = true ↔ (-1 ≤ o.assignedId ∧ o.assignedId < kElevs) ∧
      o.observedMask &&& ~~~((1#32 <<< kElevs) - 1#32) = 0#32 := by
  have legal : o.status.toNat ≤ OrderStatus.clear.toNat := by cases o.status <;> decide
  simp only [valid, Bool.and_eq_true, decide_eq_true_eq, legal, and_true]

/-- A default order is valid. -/
theorem valid_default : ({} : Order).valid = true := by decide

/-- An elevator of the cluster is a legal assignee. -/
theorem elev_range (e : Fin kElevs) : -1 ≤ (e.val : Int) ∧ (e.val : Int) < kElevs := by
  have bound := e.isLt
  omega

/-- A valid order with another assignee, status and version. -/
theorem valid_with {o : Order} (valid : o.valid = true) {assignedId : Int}
    (range : -1 ≤ assignedId ∧ assignedId < kElevs) (status : OrderStatus) (version : Nat) :
    ({ o with assignedId := assignedId, status := status, version := version } : Order).valid =
      true := valid_iff.2 ⟨range, (valid_iff.1 valid).2⟩

/-- Masks of valid orders may be joined. -/
theorem mask_or {left right : BitVec 32}
    (first : left &&& ~~~((1#32 <<< kElevs) - 1#32) = 0#32)
    (second : right &&& ~~~((1#32 <<< kElevs) - 1#32) = 0#32) :
    (left ||| right) &&& ~~~((1#32 <<< kElevs) - 1#32) = 0#32 := by
  rw [BitVec.and_or_distrib_right, first, second, BitVec.zero_or]

/-- The bit of an elevator of the cluster. -/
theorem mask_bit (e : Fin kElevs) :
    (1#32 <<< e.val) &&& ~~~((1#32 <<< kElevs) - 1#32) = 0#32 := by
  revert e
  decide

/-- `Order::Observe`. -/
theorem valid_observe {o : Order} (valid : o.valid = true) (e : Fin kElevs) :
    (o.observe e.val).valid = true := by
  obtain ⟨range, mask⟩ := valid_iff.1 valid
  exact valid_iff.2 ⟨range, mask_or mask (mask_bit e)⟩

/-- No local transition makes an order invalid. -/
theorem valid_rule : OrderRule fun o => o.valid = true where
  observe e valid := valid_observe valid e
  onRequest e valid := by
    unfold onRequest
    split_ifs
    · refine valid_observe ?_ e
      exact valid_iff.2 ⟨(valid_iff.1 valid).1, BitVec.zero_and⟩
    · exact valid
  onConfirm e valid := by
    unfold onConfirm
    split_ifs
    · exact valid_with valid (elev_range e) _ _
    · exact valid
  onClear valid := by
    unfold onClear
    split_ifs
    · exact valid_with valid (valid_iff.1 valid).1 _ _
    · exact valid
  onReset valid := by
    unfold onReset
    split_ifs
    · exact valid_with valid (valid_iff.1 valid).1 _ _
    · exact valid
  onReassignment e valid := valid_with valid (elev_range e) _ _

/-- `Order::OnUpdate`. -/
theorem valid_onUpdate {o rcv : Order} (valid : o.valid = true) (received : rcv.valid = true) :
    (o.onUpdate rcv).valid = true := by
  obtain ⟨range, mask⟩ := valid_iff.1 valid
  obtain ⟨rcvRange, rcvMask⟩ := valid_iff.1 received
  have joined := mask_or mask rcvMask
  unfold onUpdate
  dsimp only
  split_ifs
  · exact received
  · exact valid_iff.2 ⟨rcvRange, joined⟩
  · exact valid_iff.2 ⟨rcvRange, joined⟩
  · exact valid_iff.2 ⟨range, joined⟩
  · exact valid

end Order

namespace Peers

/-- Every order and every backup of the node is valid. -/
structure OrdersValid (p : Peers kFloors) : Prop where
  /-- The order table. -/
  orders : ∀ f b, (p.orders f b).valid = true
  /-- The backups. -/
  cabButtonOrders : ∀ e f, (p.cabButtonOrders e f).valid = true

namespace OrdersValid

variable {p : Peers kFloors}

/-- In other words, every order of the node is valid. -/
theorem every (valid : p.OrdersValid) : p.EveryOrder fun o => o.valid = true :=
  ⟨valid.orders, valid.cabButtonOrders⟩

/-- And the other way round. -/
theorem of_every (every : p.EveryOrder fun o => o.valid = true) : p.OrdersValid :=
  ⟨every.orders, every.cabButtonOrders⟩

/-- A packet built of valid parts is valid. -/
theorem txPacketCopy (valid : p.OrdersValid) (serves : p.Serves) : p.txPacketCopy.valid = true := by
  have state := serves.presents.valid
  have id := (Order.elev_range p.nodeId).2
  simp only [NetworkPacket.valid, Peers.txPacketCopy, NetworkPacket.init, OrderTable.valid, state,
    serves.presents.ownState.1, Bool.and_eq_true, decide_eq_true_eq, and_true]
  exact ⟨⟨⟨by omega, id⟩, valid.orders⟩, valid.cabButtonOrders⟩

/-- Valid orders make valid packets, whatever is received. -/
theorem rule : PeersRule (@OrdersValid kFloors) (fun packet => packet.valid = true) where
  fresh _ := ⟨fun _ _ => Order.valid_default, fun _ _ => Order.valid_default⟩
  press valid := of_every (Order.valid_rule.syncButtonSignals valid.every _)
  publish valid _ := ⟨valid.orders, valid.cabButtonOrders⟩
  step valid _ done := of_every (Order.valid_rule.advances valid.every (advances_step done))
  clear valid := of_every (Order.valid_rule.clearOrders valid.every _ _)
  receive valid _ foreign := of_every <| valid.every.rxPacketProcessing foreign _
    fun _ _ merges old => Order.valid_onUpdate old merges.valid
  transmit valid serves := valid.txPacketCopy serves

end OrdersValid

end Peers

/-- In every run of a fleet whose nodes may crash and be launched again, every packet a node could
build next passes the check of its receivers, as does every packet under way. -/
theorem built_packets_valid {start s : Fleet kFloors} (launched : start.Launched)
    {trace : List (Transition (Fleet kFloors) (FleetRestartAction kFloors))}
    (run : Run FleetRestartStep start trace s) :
    (∀ i, (s.node i).peers.txPacketCopy.valid = true) ∧ ∀ packet ∈ s.sent, packet.valid = true := by
  have serving := launched.serving Peers.OrdersValid.rule run
  exact ⟨fun i => (serving.node i).holds.txPacketCopy (serving.node i).serves, serving.sent⟩

/-- A run in which a packet is under way when its sender is launched again. -/
theorem built_packets_valid_relaunched : ∃ trace s, Run FleetRestartStep Fleet.atBottom trace s ∧
    s.sent.length = 2 ∧ (∀ i, (s.node i).peers.txPacketCopy.valid = true) ∧
    ∀ packet ∈ s.sent, packet.valid = true := by
  let actions : List (FleetRestartAction Config.kFloors) := [.run (.transmit 0),
    .restart 0 { floorSensor := 1 } { now := 900, signals := { floorSensor := 1 } }, .run (.receive 1 0 950),
    .run (.transmit 1)]
  have evaluated : (actions.foldlM Fleet.execRestart Fleet.atBottom).any
      (fun s => s.sent.length = 2) = true := by decide
  obtain ⟨trace, s, run, -, two⟩ := Run.of_check FleetRestartStep id evaluated
  obtain ⟨next, sent⟩ := built_packets_valid Fleet.launched_atBottom run
  exact ⟨trace, s, run, of_decide_eq_true two, next, sent⟩

end CppElevator
