import Mathlib.Data.Prod.Lex
import Mathlib.Data.Set.Lattice
import Mathlib.Order.ConditionallyCompleteLattice.Basic
import CppElevator.Library.Merge
import CppElevator.Node

/-!
# Gossip converges

An order is read as versioned knowledge: the set of its observers and its decision, the status
with the assignee as far as the status gives it a meaning. Under this reading the merge of the
code is the join of a semilattice, so the merged order depends only on the set of copies
received. Orders read alike when they agree in everything but the assignee of an order that is
not confirmed.
-/
namespace CppElevator

open Library

namespace Order

/-- Agreement in everything but a meaningless assignee. -/
structure Equivalent (left right : Order) : Prop where
  /-- Equal versions. -/
  version : left.version = right.version
  /-- Equal statuses. -/
  status : left.status = right.status
  /-- Equal masks. -/
  observedMask : left.observedMask = right.observedMask
  /-- Equal assignees, where the status gives them a meaning. -/
  assignedId : left.status = .confirmed → left.assignedId = right.assignedId

/-- The elevators whose bits are set. -/
def observers (o : Order) : Set ℕ := {e | o.observedMask.getLsbD e = true}

/-- The status, and for a confirmed order the assignee; lower assignees win. -/
def decision (o : Order) : ℕ ×ₗ ℤᵒᵈ :=
  toLex (o.status.toNat, OrderDual.toDual (if o.status = .confirmed then o.assignedId else 0))

/-- What a merge can tell about an order. -/
def knowledge (o : Order) : Versioned (Set ℕ × (ℕ ×ₗ ℤᵒᵈ)) :=
  ⟨o.version, (o.observers, o.decision)⟩

/-- The observers determine the mask. -/
theorem observers_injective {left right : Order} :
    left.observers = right.observers ↔ left.observedMask = right.observedMask := by
  constructor
  · intro same
    apply BitVec.eq_of_getLsbD_eq
    intro e _
    have bit := Set.ext_iff.1 same e
    simp only [observers, Set.mem_ofPred_eq] at bit
    exact Bool.eq_iff_iff.2 bit
  · intro same
    simp only [observers, same]

/-- Equal decisions are equal statuses, with equal assignees of confirmed orders. -/
theorem decision_eq_iff {left right : Order} :
    left.decision = right.decision ↔ left.status = right.status ∧
      (left.status = .confirmed → left.assignedId = right.assignedId) := by
  have pairs : left.decision = right.decision ↔ left.status.toNat = right.status.toNat ∧
      (if left.status = .confirmed then left.assignedId else 0) =
        (if right.status = .confirmed then right.assignedId else 0) := by
    simp [decision]
  rw [pairs, OrderStatus.toNat_injective.eq_iff]
  constructor
  · rintro ⟨status, assignee⟩
    refine ⟨status, fun confirmed => ?_⟩
    simpa only [← status, confirmed, ↓reduceIte] using assignee
  · rintro ⟨status, assignee⟩
    refine ⟨status, ?_⟩
    rw [← status]
    split_ifs with confirmed
    · exact assignee confirmed
    · rfl

/-- Two orders read alike exactly when they are equivalent. -/
theorem knowledge_eq_iff {left right : Order} :
    left.knowledge = right.knowledge ↔ left.Equivalent right := by
  simp only [knowledge, Versioned.mk.injEq, Prod.mk.injEq, observers_injective, decision_eq_iff]
  constructor
  · rintro ⟨version, mask, status, assignee⟩
    exact ⟨version, status, mask, assignee⟩
  · rintro ⟨version, status, mask, assignee⟩
    exact ⟨version, mask, status, assignee⟩

/-- The union of two masks. -/
theorem observers_or (o rcv : Order) :
    {e | (o.observedMask ||| rcv.observedMask).getLsbD e = true} =
      o.observers ∪ rcv.observers := by
  ext e
  simp [observers]

/-- The decision of the higher status. -/
theorem decision_lt_of_status {left right : Order} (lower : left.status.toNat < right.status.toNat) :
    left.decision < right.decision :=
  Prod.Lex.toLex_lt_toLex.2 (.inl lower)

/-- The merge joins what the two orders tell. -/
theorem knowledge_onUpdate (o rcv : Order) :
    (o.onUpdate rcv).knowledge = o.knowledge ⊔ rcv.knowledge := by
  rcases lt_trichotomy o.version rcv.version with older | same | newer
  · rw [Versioned.sup_of_lt older]
    simp [onUpdate, older, knowledge, observers, decision]
  · rw [Versioned.sup_of_eq same.symm]
    by_cases raise : o.status.toNat < rcv.status.toNat
    · have joined : o.decision ⊔ rcv.decision = rcv.decision :=
        sup_eq_right.2 (decision_lt_of_status raise).le
      simp only [onUpdate, same, lt_irrefl, ↓reduceIte, raise, knowledge, Prod.mk_sup_mk, joined]
      simp only [observers, decision, Versioned.mk.injEq, Prod.mk.injEq, true_and, and_true]
      exact observers_or o rcv
    · by_cases tie : o.status = .confirmed ∧ rcv.status = .confirmed ∧ rcv.assignedId < o.assignedId
      · obtain ⟨own, other, lower⟩ := tie
        have joined : o.decision ⊔ rcv.decision = rcv.decision := by
          apply sup_eq_right.2
          simp only [decision, own, other, ↓reduceIte]
          exact Prod.Lex.toLex_le_toLex.2 (.inr ⟨rfl, lower.le⟩)
        simp only [onUpdate, same, lt_irrefl, ↓reduceIte, own, other, lower, and_self, knowledge,
          Prod.mk_sup_mk, joined]
        simp only [observers, decision, other, Versioned.mk.injEq, Prod.mk.injEq, true_and,
          and_true]
        exact observers_or o rcv
      · have joined : o.decision ⊔ rcv.decision = o.decision := by
          apply sup_eq_left.2
          rcases (not_lt.1 raise).lt_or_eq with lower | equal
          · exact (decision_lt_of_status lower).le
          · have status : rcv.status = o.status := OrderStatus.toNat_injective equal
            refine Prod.Lex.toLex_le_toLex.2 (.inr ⟨equal, ?_⟩)
            rw [status]
            split_ifs with confirmed
            · exact not_lt.1 fun lower => tie ⟨confirmed, status.trans confirmed, lower⟩
            · exact le_rfl
        simp only [onUpdate, same, lt_irrefl, ↓reduceIte, raise, tie, knowledge, Prod.mk_sup_mk,
          joined]
        simp only [observers, decision, Versioned.mk.injEq, Prod.mk.injEq, true_and, and_true]
        exact observers_or o rcv
  · rw [Versioned.sup_of_gt newer]
    simp [onUpdate, newer.not_gt, newer.ne]

/-- The reading of orders as knowledge. -/
theorem joinReading : JoinReading onUpdate knowledge := ⟨knowledge_onUpdate⟩

end Order

/-- Gossip converges. Received copies may come in any order and any number of times: the merged
orders are equivalent, merging respects equivalence, and joining tables is commutative,
associative and idempotent on hall cells. Two nodes that process each other's packet agree on
every hall order and on who is assigned to it. -/
theorem gossip_converges :
    (∀ (start : Order) (left right : List Order), (∀ o, o ∈ left ↔ o ∈ right) →
      (left.foldl Order.onUpdate start).Equivalent (right.foldl Order.onUpdate start)) ∧
    (∀ o o' rcv rcv' : Order, o.Equivalent o' → rcv.Equivalent rcv' →
      (o.onUpdate rcv).Equivalent (o'.onUpdate rcv')) ∧
    (∀ (kFloors : ℕ) (s t u : OrderTable kFloors) (f : Fin kFloors) (b : BtnType), b ≠ .cab →
      (s.join t f b).Equivalent (t.join s f b) ∧
      (OrderTable.join (s.join t) u f b).Equivalent (s.join (t.join u) f b) ∧
      (s.join s f b).Equivalent (s f b)) ∧
    (∀ (kFloors now now' : ℕ) (p q : Peers kFloors) (fromP fromQ : ReceivedPacket kFloors),
      recievePacket p.txPacketCopy = some fromP → recievePacket q.txPacketCopy = some fromQ →
      fromP.sender ≠ q.nodeId → fromQ.sender ≠ p.nodeId →
      ∀ (f : Fin kFloors) (b : BtnType), b ≠ .cab →
        ((p.rxPacketProcessing now fromQ).orders f b).Equivalent
          ((q.rxPacketProcessing now' fromP).orders f b)) := by
  refine ⟨?_, ?_, ?_, ?_⟩
  · intro start left right same
    exact Order.knowledge_eq_iff.1 (Order.joinReading.foldl_read_eq start same)
  · intro o o' rcv rcv' states received
    exact Order.knowledge_eq_iff.1 (Order.joinReading.read_merge_congr
      (Order.knowledge_eq_iff.2 states) (Order.knowledge_eq_iff.2 received))
  · intro kFloors s t u f b hall
    have join (x y : OrderTable kFloors) : x.join y f b = (x f b).onUpdate (y f b) := if_neg hall
    simp only [join]
    exact ⟨Order.knowledge_eq_iff.1 (Order.joinReading.read_merge_comm _ _),
      Order.knowledge_eq_iff.1 (Order.joinReading.read_merge_assoc _ _ _),
      Order.knowledge_eq_iff.1 (Order.joinReading.read_merge_self _)⟩
  · intro kFloors now now' p q fromP fromQ sentP sentQ foreignP foreignQ f b hall
    rw [Peers.rxPacketProcessing_hall foreignQ hall, Peers.rxPacketProcessing_hall foreignP hall,
      eq_of_recievePacket sentP, eq_of_recievePacket sentQ]
    exact Order.knowledge_eq_iff.1 (Order.joinReading.read_merge_comm _ _)

/-- A node where the up button of a floor has been pressed. -/
def calledAt (nodeId : Fin kElevs) (floor : Fin Config.kFloors) : Peers Config.kFloors :=
  (({ nodeId } : Peers Config.kFloors).copyOwnState { id := nodeId.val, floor := 0 }).syncButtonSignals
    (.only floor .hallUp)

/-- The packet of node 0, called to floor 1. -/
def callAtOne : ReceivedPacket Config.kFloors := ⟨(calledAt 0 1).txPacketCopy, by decide +kernel⟩

/-- The packet of node 1, called to floor 2. -/
def callAtTwo : ReceivedPacket Config.kFloors := ⟨(calledAt 1 2).txPacketCopy, by decide +kernel⟩

/-- Two nodes that tell each other of their calls both know both. -/
theorem calls_exchanged : ∀ f ∈ [(1 : Fin Config.kFloors), 2],
    (((calledAt 0 1).rxPacketProcessing 5 callAtTwo).orders f .hallUp).status = .requested ∧
    (((calledAt 0 1).rxPacketProcessing 5 callAtTwo).orders f .hallUp).Equivalent
      (((calledAt 1 2).rxPacketProcessing 7 callAtOne).orders f .hallUp) := by
  have known : ∀ f ∈ [(1 : Fin Config.kFloors), 2],
      (((calledAt 0 1).rxPacketProcessing 5 callAtTwo).orders f .hallUp).status = .requested := by
    decide +kernel
  refine fun f listed => ⟨known f listed, ?_⟩
  exact gossip_converges.2.2.2 _ 5 7 (calledAt 0 1) (calledAt 1 2) callAtOne callAtTwo
    (recievePacket_toNetworkPacket callAtOne) (recievePacket_toNetworkPacket callAtTwo)
    (by decide +kernel) (by decide +kernel) f .hallUp (by decide)

end CppElevator
