import CppElevator.Verif.ClusterCells

/-!
# What a delivery merges

`RxPacketProcessing` merges pairs of one copy kept by the node and one carried by the packet.
`Merges` lists the pairs; every order of the node afterwards is the merge of such a pair, or the
backup of an elevator that is neither the sender nor the node, which stays.
-/
namespace CppElevator

variable {kFloors : Nat}

namespace ReceivedPacket

/-- Every order a received packet carries has passed `Order::Valid`. -/
theorem orders_valid (packet : ReceivedPacket kFloors) (f : Fin kFloors) (b : BtnType) :
    (packet.orders f b).valid = true := by
  have checked := packet.checked
  simp only [NetworkPacket.valid, OrderTable.valid, Bool.and_eq_true, decide_eq_true_eq] at checked
  exact checked.1.2 f b

/-- So has every backup. -/
theorem cabButtonOrders_valid (packet : ReceivedPacket kFloors) (e : Fin kElevs)
    (f : Fin kFloors) : (packet.cabButtonOrders e f).valid = true := by
  have checked := packet.checked
  simp only [NetworkPacket.valid, OrderTable.valid, Bool.and_eq_true, decide_eq_true_eq] at checked
  exact checked.2 e f

end ReceivedPacket

namespace Peers

/-- The pairs of orders a delivery merges, the node's copy first. -/
inductive Merges (p : Peers kFloors) (packet : ReceivedPacket kFloors) : Order → Order → Prop where
  /-- `OrderTable::Join`. -/
  | hall (f : Fin kFloors) {b : BtnType} (hall : b ≠ .cab) :
      Merges p packet (p.orders f b) (packet.orders f b)
  /-- The backup the sender holds of the node's cab order, into the order table. -/
  | cab (f : Fin kFloors) :
      Merges p packet (p.orders f .cab) (packet.cabButtonOrders p.nodeId f)
  /-- The same backup, into the node's own row of the cab order table. -/
  | backup (f : Fin kFloors) :
      Merges p packet (p.cabButtonOrders p.nodeId f) (packet.cabButtonOrders p.nodeId f)
  /-- The sender's cab order. -/
  | sender (f : Fin kFloors) :
      Merges p packet (p.cabButtonOrders packet.sender f) (packet.orders f .cab)

variable {p : Peers kFloors} {packet : ReceivedPacket kFloors}

/-- What is merged has passed `Order::Valid`. -/
theorem Merges.valid {o rcv : Order} (merges : p.Merges packet o rcv) : rcv.valid = true := by
  cases merges with
  | hall f _ => exact packet.orders_valid f _
  | cab f => exact packet.cabButtonOrders_valid _ f
  | backup f => exact packet.cabButtonOrders_valid _ f
  | sender f => exact packet.orders_valid f _

/-- Every order after a delivery is the merge of a pair. -/
theorem orders_rxPacketProcessing (foreign : packet.sender ≠ p.nodeId) (now : Nat)
    (f : Fin kFloors) (b : BtnType) :
    ∃ rcv, p.Merges packet (p.orders f b) rcv ∧
      (p.rxPacketProcessing now packet).orders f b = (p.orders f b).onUpdate rcv := by
  by_cases hall : b = .cab
  · subst hall
    exact ⟨_, .cab f, rxPacketProcessing_cab foreign f⟩
  · exact ⟨_, .hall f hall, rxPacketProcessing_hall foreign hall⟩

/-- Every backup after a delivery stays, or is the merge of a pair. -/
theorem cabButtonOrders_rxPacketProcessing (foreign : packet.sender ≠ p.nodeId) (now : Nat)
    (e : Fin kElevs) (f : Fin kFloors) :
    (p.rxPacketProcessing now packet).cabButtonOrders e f = p.cabButtonOrders e f ∨
      ∃ rcv, p.Merges packet (p.cabButtonOrders e f) rcv ∧
        (p.rxPacketProcessing now packet).cabButtonOrders e f =
          (p.cabButtonOrders e f).onUpdate rcv := by
  by_cases sender : e = packet.sender
  · subst sender
    refine .inr ⟨_, .sender f, ?_⟩
    simp only [rxPacketProcessing, if_neg foreign, ↓reduceIte]
  · by_cases self : e = p.nodeId
    · subst self
      refine .inr ⟨_, .backup f, ?_⟩
      simp only [rxPacketProcessing, if_neg foreign, if_neg sender, ↓reduceIte]
    · left
      simp only [rxPacketProcessing, if_neg foreign, if_neg sender, if_neg self]

/-- Every merged pair leaves its merge at the node. -/
theorem Merges.kept {o rcv : Order} (merges : p.Merges packet o rcv)
    (foreign : packet.sender ≠ p.nodeId) (now : Nat) :
    (∃ f b, (p.rxPacketProcessing now packet).orders f b = o.onUpdate rcv) ∨
      ∃ e f, (p.rxPacketProcessing now packet).cabButtonOrders e f = o.onUpdate rcv := by
  cases merges with
  | hall f hall => exact .inl ⟨f, _, rxPacketProcessing_hall foreign hall⟩
  | cab f => exact .inl ⟨f, .cab, rxPacketProcessing_cab foreign f⟩
  | backup f =>
    refine .inr ⟨p.nodeId, f, ?_⟩
    simp only [rxPacketProcessing, if_neg foreign, if_neg foreign.symm, ↓reduceIte]
  | sender f =>
    refine .inr ⟨packet.sender, f, ?_⟩
    simp only [rxPacketProcessing, if_neg foreign, ↓reduceIte]

end Peers

end CppElevator
