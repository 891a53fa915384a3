import CppElevator.Verif.SoloRefinement
import CppElevator.Verif.StaleEchoes

/-!
# What is known of a hall order grows

No operation of a node on a hall order takes back what is known of the order: neither the passes of a
step, nor presses, clearings and merges. What a node or a packet has once known of an order is a lower
bound for everything that comes after it.
-/
namespace CppElevator

open Library

variable {kFloors : Nat}

namespace Order

/-- A transition of the passes. -/
theorem knowledge_le_of_hallStep {n : Fin kElevs} {o o' : Order} (step : HallStep n o o') :
    o.knowledge ≤ o'.knowledge := by
  cases step with
  | observe _ => exact o.knowledge_le_apply (.observe n)
  | confirm _ e => exact o.knowledge_le_apply (.onConfirm e.val)
  | reset _ => exact o.knowledge_le_apply .onReset
  | reassign _ e => exact o.knowledge_le_apply (.onReassignment e.val)

/-- Any number of them. -/
theorem knowledge_le_of_path {n : Fin kElevs} {o o' : Order} (path : HallPath n o o') :
    o.knowledge ≤ o'.knowledge := by
  induction path with
  | refl => exact le_rfl
  | tail _ step ih => exact ih.trans (knowledge_le_of_hallStep step)

/-- More is known than a copy of the order tells: a newer version, or a later decision on the same
one. -/
def Outdated (o o' : Order) : Prop :=
  o.version < o'.version ∨ o.version = o'.version ∧ o.decision < o'.decision

/-- What is known grows, so an outdated copy stays outdated. -/
theorem Outdated.mono {o o' o'' : Order} (outdated : o.Outdated o')
    (grows : o'.knowledge ≤ o''.knowledge) : o.Outdated o'' := by
  rcases grows with newer | ⟨same, -, decision⟩
  · left
    rcases outdated with before | ⟨before, -⟩
    · exact before.trans newer
    · exact Nat.lt_of_le_of_lt (Nat.le_of_eq before) newer
  · have version : o'.version = o''.version := same
    rcases outdated with before | ⟨before, later⟩
    · exact .inl (Nat.lt_of_lt_of_le before (Nat.le_of_eq version))
    · exact .inr ⟨before.trans version, lt_of_lt_of_le later decision⟩

/-- What is known grows, or nothing but observers is added. -/
theorem outdated_or_same {o o' : Order} (grows : o.knowledge ≤ o'.knowledge) :
    o.Outdated o' ∨ o'.version = o.version ∧ o'.decision = o.decision := by
  rcases grows with newer | ⟨same, -, decision⟩
  · exact .inl (.inl newer)
  · have version : o.version = o'.version := same
    rcases lt_or_eq_of_le decision with later | equal
    · exact .inl (.inr ⟨version, later⟩)
    · exact .inr ⟨version.symm, equal.symm⟩

/-- A copy that agrees in version, status and assignee is up to date. -/
theorem not_outdated {o o' : Order} (version : o'.version = o.version)
    (decision : o'.decision = o.decision) : ¬o.Outdated o' := by
  rintro (newer | ⟨-, later⟩)
  · exact Nat.lt_irrefl _ (version ▸ newer)
  · rw [decision] at later
    exact lt_irrefl _ later

end Order

namespace Peers

variable {p p' : Peers kFloors} {f : Fin kFloors} {b : BtnType}

/-- A press. -/
theorem knowledge_le_syncButtonSignals (p : Peers kFloors) (signals : BoolTable kFloors)
    (hall : b ≠ .cab) :
    (p.orders f b).knowledge ≤ ((p.syncButtonSignals signals).orders f b).knowledge := by
  simp only [syncButtonSignals, if_neg hall]
  split_ifs
  · exact (p.orders f b).knowledge_le_apply (.onRequest p.nodeId)
  · exact le_rfl

/-- A clearing. -/
theorem knowledge_le_clearOrders (p : Peers kFloors) (floor : Fin kFloors) (b2c : ButtonFlags)
    (hall : b ≠ .cab) :
    (p.orders f b).knowledge ≤ ((p.clearOrders floor b2c).orders f b).knowledge := by
  simp only [clearOrders, if_neg hall]
  split_ifs
  · exact (p.orders f b).knowledge_le_apply .onClear
  · exact le_rfl
  · exact le_rfl

/-- A packet is merged, and what it carries is known from then on. -/
theorem knowledge_rxPacketProcessing (now : Nat) {packet : ReceivedPacket kFloors}
    (foreign : packet.sender ≠ p.nodeId) (hall : b ≠ .cab) :
    ((p.rxPacketProcessing now packet).orders f b).knowledge =
      (p.orders f b).knowledge ⊔ (packet.orders f b).knowledge := by
  rw [rxPacketProcessing_hall foreign hall, Order.knowledge_onUpdate]

end Peers

/-- No operation on the shared part of a node takes back what is known of a hall order. -/
theorem SoloStep.knowledge_le {p p' : Peers kFloors} {action : SoloAction kFloors}
    (step : SoloStep p action p') (f : Fin kFloors) {b : BtnType} (hall : b ≠ .cab) :
    (p.orders f b).knowledge ≤ (p'.orders f b).knowledge := by
  cases action with
  | press signals =>
    obtain rfl := Option.some.inj step
    exact p.knowledge_le_syncButtonSignals signals hall
  | publish own =>
    obtain rfl := Option.some.inj step
    exact le_rfl
  | step now => exact Order.knowledge_le_of_path ((Peers.advances_step step).hall f b hall)
  | clear floor b2c =>
    obtain rfl := Option.some.inj step
    exact p.knowledge_le_clearOrders floor b2c hall
  | receive now packet =>
    obtain rfl := Option.some.inj step
    by_cases own : packet.sender = p.nodeId
    · rw [Peers.rxPacketProcessing_own own]
    · rw [Peers.knowledge_rxPacketProcessing now own hall]
      exact le_sup_left

namespace Fleet

/-- The copy a node has of an order. -/
def order (s : Fleet kFloors) (j : Fin kElevs) (f : Fin kFloors) (b : BtnType) : Order :=
  (s.node j).peers.orders f b

/-- No step of a fleet takes back what a node knows of a hall order, unless the node is launched
again. -/
theorem knowledge_le_of_step {s s' : Fleet kFloors} {action : FleetRestartAction kFloors}
    {j : Fin kElevs} (step : FleetRestartStep s action s') (stays : ¬Relaunches j action)
    (f : Fin kFloors) {b : BtnType} (hall : b ≠ .cab) :
    (s.order j f b).knowledge ≤ (s'.order j f b).knowledge := by
  obtain ⟨trace, run⟩ := solo_of_step step stays
  exact run.invariant (fun p => (s.order j f b).knowledge ≤ (p.orders f b).knowledge)
    (fun step known => known.trans (step.knowledge_le f hall)) le_rfl

end Fleet

end CppElevator
