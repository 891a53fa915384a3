import CppElevator.Verif.Gossip
import CppElevator.Verif.Orders

/-!
# Stale echoes

Every operation on an order lets its knowledge grow, the merge with any copy included. A copy
taken earlier is therefore below the order, and merging it back changes nothing at all: not even
the assignee, which the knowledge of an order that is not confirmed leaves open.
-/
namespace CppElevator

open Library

namespace Order

/-- A newer version knows more. -/
theorem knowledge_le_of_version {left right : Order} (older : left.version < right.version) :
    left.knowledge ≤ right.knowledge := .inl older

/-- Observing an order adds to what is known of it. -/
theorem knowledge_le_observe (o : Order) (elevId : Nat) :
    o.knowledge ≤ (o.observe elevId).knowledge := by
  refine .inr ⟨rfl, ?_, le_rfl⟩
  intro e bit
  have kept : o.observedMask.getLsbD e = true := bit
  change (o.observedMask ||| 1#32 <<< elevId).getLsbD e = true
  rw [BitVec.getLsbD_or, kept, Bool.true_or]

/-- Every operation lets the knowledge of an order grow. -/
theorem knowledge_le_apply (o : Order) (op : OrderOp) : o.knowledge ≤ (o.apply op).knowledge := by
  cases op with
  | observe elevId => exact o.knowledge_le_observe elevId
  | onRequest elevId =>
    by_cases open_ : o.status = .none ∨ o.status = .clear
    · apply knowledge_le_of_version
      rw [apply, onRequest_of_open elevId open_]
      exact Nat.lt_succ_self _
    · rw [apply, onRequest_of_underway elevId open_]
  | onConfirm elevId =>
    by_cases requested : o.status = .requested
    · apply knowledge_le_of_version
      rw [apply, onConfirm_of_requested elevId requested]
      exact Nat.lt_succ_self _
    · exact (congrArg knowledge (if_neg requested)).ge
  | onClear =>
    by_cases confirmed : o.status = .confirmed
    · apply knowledge_le_of_version
      rw [apply, onClear_of_confirmed confirmed]
      exact Nat.lt_succ_self _
    · rw [apply, onClear_of_not_confirmed confirmed]
  | onReset =>
    by_cases clear : o.status = .clear
    · apply knowledge_le_of_version
      rw [apply, onReset_of_clear clear]
      exact Nat.lt_succ_self _
    · rw [apply, onReset_of_not_clear clear]
  | onRevoke =>
    by_cases confirmed : o.status = .confirmed
    · apply knowledge_le_of_version
      rw [apply, onRevoke, if_pos confirmed]
      exact Nat.lt_succ_self _
    · exact (congrArg knowledge (if_neg confirmed)).ge
  | onReassignment assignedId => exact knowledge_le_of_version (Nat.lt_succ_self _)
  | onUpdate rcv =>
    have joined : (o.apply (.onUpdate rcv)).knowledge = o.knowledge ⊔ rcv.knowledge :=
      o.knowledge_onUpdate rcv
    rw [joined]
    exact le_sup_left

/-- A copy that is not above the order leaves the assignee alone. -/
theorem assignedId_onUpdate_of_le {o snapshot : Order}
    (below : snapshot.knowledge ≤ o.knowledge) : (o.onUpdate snapshot).assignedId = o.assignedId := by
  rcases below with older | ⟨same, _, decision⟩
  · rw [onUpdate_of_gt older]
  · have version : snapshot.version = o.version := same
    have notRaised : ¬ o.status.toNat < snapshot.status.toNat := fun raised =>
      (decision_lt_of_status raised).not_ge decision
    have noTie : ¬(o.status = .confirmed ∧ snapshot.status = .confirmed ∧
        snapshot.assignedId < o.assignedId) := by
      rintro ⟨own, other, lower⟩
      have above : o.decision < snapshot.decision := by
        refine Prod.Lex.toLex_lt_toLex.2 (.inr ⟨by rw [own, other], ?_⟩)
        rw [if_pos own, if_pos other]
        exact lower
      exact above.not_ge decision
    simp only [onUpdate, version, lt_irrefl, ↓reduceIte, if_neg notRaised, if_neg noTie]

/-- A copy that is not above the order is merged without any effect. -/
theorem onUpdate_of_knowledge_le {o snapshot : Order}
    (below : snapshot.knowledge ≤ o.knowledge) : o.onUpdate snapshot = o := by
  have reads := joinReading.read_merge_of_le below
  obtain ⟨version, status, mask, -⟩ := knowledge_eq_iff.1 reads
  exact Order.ext (assignedId_onUpdate_of_le below) mask status version

/-- More knowledge comes with a version that is not lower. -/
theorem version_le_of_knowledge_le {left right : Order}
    (below : left.knowledge ≤ right.knowledge) : left.version ≤ right.version := by
  rcases below with older | ⟨same, _⟩
  · exact older.le
  · exact same.le

end Order

/-- Stale echoes never undo local progress. However an order gets from a snapshot to its present
state, by local transitions and merges with arbitrary copies in any order, its version has not
decreased, and merging the snapshot back leaves the whole order as it is. -/
theorem stale_echo_absorbed (start : Order) (before after : List OrderOp) :
    let snapshot := before.foldl Order.apply start
    let final := after.foldl Order.apply snapshot
    final.onUpdate snapshot = final ∧ snapshot.version ≤ final.version := by
  intro snapshot final
  have below : snapshot.knowledge ≤ final.knowledge :=
    read_le_foldl Order.knowledge_le_apply snapshot after
  exact ⟨Order.onUpdate_of_knowledge_le below, Order.version_le_of_knowledge_le below⟩

end CppElevator
