import CppElevator.Verif.Participation

/-!
# The order table after a step

A step of a node that takes part leaves every hall order in normal form: none is cleared, a
request waits for an elevator of the view that has not observed it, and the timer of an order runs
exactly when the order is confirmed to the node. The last pass over an order in each status
establishes its part, and the later ones keep it.
-/
namespace CppElevator

open Library

variable {kFloors : Nat}

namespace Peers

open Config

/-- What a request waits for: the node itself has observed it, an elevator active in the view has
not. -/
structure Awaited (p : Peers kFloors) (o : Order) : Prop where
  /-- Observed by the node. -/
  observed : o.observedBy p.nodeId = true
  /-- Not observed by somebody active. -/
  missing : ∃ e, (p.allStates e).active = true ∧ o.observedBy e = false

/-- The normal form of a hall order. -/
structure NormalForm (p : Peers kFloors) (f : Fin kFloors) (b : BtnType) : Prop where
  /-- A cleared order has been reset. -/
  notClear : (p.orders f b).status ≠ .clear
  /-- A request waits for somebody. -/
  awaited : (p.orders f b).status = .requested → p.Awaited (p.orders f b)
  /-- The timer runs for the orders confirmed to the node. -/
  timed : (p.orderTimers f b).active = true ↔
    (p.orders f b).status = .confirmed ∧ (p.orders f b).assignedId = p.nodeId.val

/-- A request the node has gone through is marked by it. -/
theorem observeOrders_observed {p : Peers kFloors} {f : Fin kFloors} {b : BtnType} (hall : b ≠ .cab)
    (requested : (p.observeOrders.orders f b).status = .requested) :
    (p.observeOrders.orders f b).observedBy p.nodeId = true := by
  rw [observeOrders, orders_mapHall _ _ _ hall] at requested ⊢
  dsimp only at requested ⊢
  split_ifs at requested ⊢ with seen
  · exact seen
  · exact (Order.observedBy_bit (Order.elev_fits _) (Order.elev_fits _) rfl).2 (.inr rfl)
  · contradiction

/-- A request that is left unconfirmed waits for somebody. -/
theorem TakesPart.awaited {p : Peers kFloors} (part : p.TakesPart) (fits : CostsFit kFloors)
    {now : StepClock kFloors} {f : Fin kFloors} {b : BtnType} (hall : b ≠ .cab)
    (requested : ((p.observeOrders.confirmHallOrders now).orders f b).status = .requested) :
    p.Awaited ((p.observeOrders.confirmHallOrders now).orders f b) := by
  rw [confirmHallOrders, orders_mapHall _ _ _ hall] at requested ⊢
  dsimp only at requested ⊢
  by_cases blocked : p.observeOrders.observedByAll f b = false ∨
      (p.observeOrders.orders f b).status ≠ .requested
  · rw [if_pos blocked] at requested ⊢
    have unseen := blocked.resolve_right (not_not.2 requested)
    refine ⟨observeOrders_observed hall requested, ?_⟩
    obtain ⟨e, unmet⟩ := not_forall.1 (of_decide_eq_false unseen)
    obtain ⟨active, missing⟩ := Classical.not_imp.1 unmet
    exact ⟨e, active, Bool.eq_false_iff.2 missing⟩
  · rw [if_neg blocked] at requested
    obtain ⟨_, open_⟩ := not_or.1 blocked
    cases costs : p.observeOrders.calculateElevatorCosts f with
    | nil => exact absurd costs (p.observeOrders.calculateElevatorCosts_ne_nil f)
    | cons best others =>
      obtain ⟨cost, best⟩ := best
      have least := calculateElevatorCosts_head costs p.nodeId
      have finite := elevatorCost_lt fits part.active part.placed f
      have below : cost ≠ intMax := (least.trans_lt finite).ne
      simp only [costs, if_neg below, Order.onConfirm_of_requested _ (not_not.1 open_)] at requested
      cases requested

/-- A reset order is not cleared. -/
theorem resetHallOrders_status {p : Peers kFloors} {f : Fin kFloors} {b : BtnType} (hall : b ≠ .cab) :
    (p.resetHallOrders.orders f b).status ≠ .clear ∧
      ((p.resetHallOrders.orders f b).status = .requested →
        p.resetHallOrders.orders f b = p.orders f b) := by
  rw [resetHallOrders, orders_mapHall _ _ _ hall]
  dsimp only
  by_cases clear : (p.orders f b).status = .clear
  · rw [Order.onReset_of_clear clear]
    exact ⟨by simp, by simp⟩
  · rw [Order.onReset_of_not_clear clear]
    exact ⟨clear, fun _ => rfl⟩

/-- The order timer pass leaves confirmed orders confirmed. -/
theorem status_of_monitorHallOrderTimers {p p' : Peers kFloors} {now : StepClock kFloors}
    (done : p.monitorHallOrderTimers now = some p') {f : Fin kFloors} {b : BtnType} (hall : b ≠ .cab) :
    (p'.orders f b).status = (p.orders f b).status := by
  have moved := (forHall_spec done).2.2 f b hall
  change (p'.cell (f, b)).1.status = (p.cell (f, b)).1.status
  generalize p.cell (f, b) = before at moved
  split_ifs at moved with running other
  · rw [← Option.some.inj moved]
  · rw [← Option.some.inj moved]
  · obtain ⟨o, reassigned, same⟩ := Option.map_eq_some_iff.1 moved
    obtain ⟨e, rfl⟩ := reassignHallOrder_eq reassigned
    rw [← same]
    rfl

/-- Control leaves the timer of an order running exactly when the order is the node's. -/
theorem timed_controlHallOrderTimers (p : Peers kFloors) (now : StepClock kFloors) {f : Fin kFloors}
    {b : BtnType} (hall : b ≠ .cab) :
    ((p.controlHallOrderTimers now).orderTimers f b).active = true ↔
      (p.orders f b).status = .confirmed ∧ (p.orders f b).assignedId = p.nodeId.val := by
  rw [controlHallOrderTimers, orderTimers_mapHall _ _ _ hall]
  dsimp only
  by_cases own : (p.orders f b).status = .confirmed ∧ (p.orders f b).assignedId = p.nodeId.val
  · cases running : (p.orderTimers f b).active
    · simp [own]
    · simp only [own, and_self, Bool.true_eq_false, and_false, ↓reduceIte, not_true_eq_false,
        true_and, iff_true]
      split_ifs
      · rfl
      · exact running
  · cases running : (p.orderTimers f b).active <;> simp [own, running]

/-- What a request waits for depends on the view alone. -/
theorem Awaited.frame {p p' : Peers kFloors} {o : Order} (awaited : p.Awaited o)
    (node : p'.nodeId = p.nodeId) (states : p'.allStates = p.allStates) : p'.Awaited o := by
  refine ⟨?_, ?_⟩
  · rw [node]
    exact awaited.observed
  · rw [states]
    exact awaited.missing

/-- A step of a node that takes part leaves every hall order in normal form. -/
theorem TakesPart.normalForm {p p' : Peers kFloors} (part : p.TakesPart) (fits : CostsFit kFloors)
    {now : StepClock kFloors} (done : p.step now = some p') {f : Fin kFloors} {b : BtnType}
    (hall : b ≠ .cab) : p'.NormalForm f b := by
  obtain ⟨watched, faulted, timed, watch, fault, timers, rfl⟩ := step_cases done
  have here := (part.updateNumElevs.watched watch).faulted fault
  have order : (timed.controlHallOrderTimers now).orders f b = timed.orders f b :=
    orders_of_controlHallOrderTimers timed now hall
  have status : (timed.orders f b).status = _ := status_of_monitorHallOrderTimers timers hall
  obtain ⟨notClear, unconfirmed⟩ :=
    @resetHallOrders_status _ (faulted.observeOrders.confirmHallOrders now) f b hall
  refine ⟨?_, fun requested => ?_, ?_⟩
  · rw [order, status]
    exact notClear
  · -- the timers touch confirmed orders only, so the request is the one left by the confirmation
    rw [order] at requested ⊢
    have waiting := requested
    rw [status] at waiting
    rw [orders_of_monitorHallOrderTimers timers hall (by simp [waiting]), unconfirmed waiting]
    rw [unconfirmed waiting] at waiting
    have node := (advances_monitorHallOrderTimers timers).nodeId
    have states := allStates_of_monitorHallOrderTimers timers
    exact (here.awaited fits hall waiting).frame node states
  · rw [order]
    exact timed_controlHallOrderTimers timed now hall

end Peers

open Peers

/-- A step of a node that takes part ends with every hall order in normal form and the cab orders
as they were. -/
theorem step_normal_form (fits : CostsFit kFloors) {p : Peers kFloors} (part : p.TakesPart)
    (assigned : p.HallAssigned) (now : StepClock kFloors) :
    ∃ p', p.step now = some p' ∧ (∀ f b, b ≠ .cab → p'.NormalForm f b) ∧
      (∀ f, p'.orders f .cab = p.orders f .cab) ∧ p'.cabButtonOrders = p.cabButtonOrders := by
  obtain ⟨p', done⟩ := part.step_total fits assigned now
  have advance := advances_step done
  exact ⟨p', done, fun f b hall => part.normalForm fits done hall, advance.cab,
    advance.cabButtonOrders⟩

/-- Two elevators take part and one of them has confirmed a request to the other. -/
def confirmedToOther : Peers Config.kFloors where
  nodeId := 0
  allStates e := if e = 0 ∨ e = 1 then .idleAt e 0 else {}
  orders f b := if f = 1 ∧ b = .hallUp then { assignedId := 1, status := .confirmed } else {}

/-- The hypotheses hold there. -/
theorem step_normal_form_confirmedToOther :
    ∃ p', confirmedToOther.step 0 = some p' ∧ (∀ f b, b ≠ .cab → p'.NormalForm f b) ∧
      (∀ f, p'.orders f .cab = confirmedToOther.orders f .cab) ∧
      p'.cabButtonOrders = confirmedToOther.cabButtonOrders := by
  refine step_normal_form costsFit_config ⟨rfl, rfl, ?_⟩ ?_ 0
  · unfold ElevatorState.Placed
    decide
  · unfold HallAssigned Order.Assigned
    decide

end CppElevator
