import CppElevator.Verif.Deliveries

/-!
# Properties of single orders

A node changes an order by the transitions of `ordersync.cpp` alone, always with identities of the
cluster. A property of single orders that these transitions keep therefore holds of every order of
a node after each of its operations; of a delivery as far as it holds of the merges made.
-/
namespace CppElevator

variable {kFloors : Nat}

/-- A property of single orders that the local transitions keep. -/
structure OrderRule (P : Order → Prop) : Prop where
  /-- `Order::Observe`. -/
  observe : ∀ {o : Order} (e : Fin kElevs), P o → P (o.observe e.val)
  /-- `Order::OnRequest`. -/
  onRequest : ∀ {o : Order} (e : Fin kElevs), P o → P (o.onRequest e.val)
  /-- `Order::OnConfirm`. -/
  onConfirm : ∀ {o : Order} (e : Fin kElevs), P o → P (o.onConfirm e.val)
  /-- `Order::OnClear`. -/
  onClear : ∀ {o : Order}, P o → P o.onClear
  /-- `Order::OnReset`. -/
  onReset : ∀ {o : Order}, P o → P o.onReset
  /-- `Order::OnReassignment`. -/
  onReassignment : ∀ {o : Order} (e : Fin kElevs), P o → P (o.onReassignment e.val)

/-- Every order and every backup of a node has a property. -/
structure Peers.EveryOrder (P : Order → Prop) (p : Peers kFloors) : Prop where
  /-- The order table. -/
  orders : ∀ f b, P (p.orders f b)
  /-- The cab order table. -/
  cabButtonOrders : ∀ e f, P (p.cabButtonOrders e f)

/-- Deliveries, when the merges have the property. -/
theorem Peers.EveryOrder.rxPacketProcessing {P : Order → Prop} {p : Peers kFloors}
    {packet : ReceivedPacket kFloors} (every : p.EveryOrder P)
    (foreign : packet.sender ≠ p.nodeId) (now : Nat)
    (merged : ∀ o rcv, p.Merges packet o rcv → P o → P (o.onUpdate rcv)) :
    (p.rxPacketProcessing now packet).EveryOrder P := by
  constructor
  · intro f b
    obtain ⟨rcv, merges, same⟩ := orders_rxPacketProcessing foreign now f b
    rw [same]
    exact merged _ _ merges (every.orders f b)
  · intro e f
    rcases cabButtonOrders_rxPacketProcessing foreign now e f with same | ⟨rcv, merges, same⟩
    · rw [same]
      exact every.cabButtonOrders e f
    · rw [same]
      exact merged _ _ merges (every.cabButtonOrders e f)

namespace OrderRule

variable {P : Order → Prop} {p p' : Peers kFloors}

/-- The passes of a step on one hall order. -/
theorem path (rule : OrderRule P) {n : Fin kElevs} {o o' : Order} (path : HallPath n o o')
    (old : P o) : P o' := by
  induction path with
  | refl => exact old
  | tail _ step ih =>
    cases step with
    | observe _ => exact rule.observe n ih
    | confirm _ e => exact rule.onConfirm e ih
    | reset _ => exact rule.onReset ih
    | reassign _ e => exact rule.onReassignment e ih

/-- The passes of a step. -/
theorem advances (rule : OrderRule P) (every : p.EveryOrder P) (advances : p.Advances p') :
    p'.EveryOrder P := by
  constructor
  · intro f b
    by_cases cab : b = .cab
    · subst cab
      rw [advances.cab f]
      exact every.orders f .cab
    · exact rule.path (advances.hall f b cab) (every.orders f b)
  · intro e f
    rw [advances.cabButtonOrders]
    exact every.cabButtonOrders e f

/-- Presses. -/
theorem syncButtonSignals (rule : OrderRule P) (every : p.EveryOrder P)
    (signals : BoolTable kFloors) : (p.syncButtonSignals signals).EveryOrder P := by
  constructor
  · intro f b
    have requested := rule.onRequest p.nodeId (every.orders f b)
    simp only [Peers.syncButtonSignals]
    split_ifs
    · exact rule.onConfirm p.nodeId requested
    · exact requested
    · exact every.orders f b
  · intro e f
    simp only [Peers.syncButtonSignals]
    split_ifs
    · exact rule.onConfirm p.nodeId (rule.onRequest p.nodeId (every.cabButtonOrders e f))
    · exact every.cabButtonOrders e f

/-- Clearings. -/
theorem clearOrders (rule : OrderRule P) (every : p.EveryOrder P) (floor : Fin kFloors)
    (b2c : ButtonFlags) : (p.clearOrders floor b2c).EveryOrder P := by
  constructor
  · intro f b
    have cleared := rule.onClear (every.orders f b)
    simp only [Peers.clearOrders]
    split_ifs
    · exact rule.onReset cleared
    · exact cleared
    · exact every.orders f b
    · exact every.orders f b
  · intro e f
    simp only [Peers.clearOrders]
    split_ifs
    · exact rule.onReset (rule.onClear (every.cabButtonOrders e f))
    · exact every.cabButtonOrders e f

end OrderRule

end CppElevator
