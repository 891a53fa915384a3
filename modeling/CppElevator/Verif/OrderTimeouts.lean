import CppElevator.Verif.Handovers

/-!
# Timers of hall orders that run out

`MonitorHallOrderTimers` reassigns every confirmed order whose timer has run out, whoever it is
assigned to. `ControlHallOrderTimers` stops the timers of other elevators' orders, but it is the
last pass of a step: a timer that runs out before an order is given away is looked at first. The
order of a timer that has run out is followed through the passes between, and the timer is found to
act on an order of its own exactly when the view the step begins with says one of five things about
that order.
-/
namespace CppElevator

open Library

variable {kFloors : Nat}

/-- The clock goes on by less than the time an order is given while a step lasts. -/
def StepClock.Short (now : StepClock kFloors) : Prop :=
  ∀ call call', now call < now call' + Config.kReassignOrderTimeMs

/-- A clock that stands still is short. -/
theorem StepClock.short_still (now : Nat) : (StepClock.still now : StepClock kFloors).Short :=
  fun _ _ => Nat.lt_add_of_pos_right (by decide)

/-- What holds of every step holds of a short one. -/
theorem StepClock.and_short_of_iff {now : StepClock kFloors} {left right : Prop}
    (same : left ↔ right) : (left → right) ∧ (now.Short → right → left) :=
  ⟨same.1, fun _ => same.2⟩

namespace Peers

open Config

/-- `MonitorHallOrderTimers` in a step, from the node it finds to the node it leaves. -/
structure TimerPass (p : Peers kFloors) (now : StepClock kFloors) (q q' : Peers kFloors) : Prop where
  /-- The passes before it. -/
  reached : p.beforeTimers now = some q
  /-- The pass. -/
  done : q.monitorHallOrderTimers now = some q'

/-- In a step, the timers of hall orders move orders confirmed to the node, and no others. -/
def TimesOutOwn (p : Peers kFloors) (now : StepClock kFloors) : Prop :=
  ∀ q q', p.TimerPass now q q' → ∀ f b, q'.orders f b ≠ q.orders f b →
    (q.orders f b).status = .confirmed ∧ (q.orders f b).assignedId = p.nodeId.val

/-- What the view a step begins with says about a hall order, so that its timer, run out, does not move
an order of somebody else. -/
inductive InHand (p : Peers kFloors) (now : StepClock kFloors) (f : Fin kFloors) (b : BtnType) :
    Prop where
  /-- The order is over. -/
  | ended (status : (p.orders f b).status = .none ∨ (p.orders f b).status = .clear)
  /-- The order is the node's, and no fault makes the node give it away to somebody. -/
  | own (confirmed : (p.orders f b).status = .confirmed)
      (assigned : (p.orders f b).assignedId = p.nodeId.val)
      (keeps : (p.allStates p.nodeId).fault = false ∨ ∀ e, p.Stays now e → e = p.nodeId)
  /-- The order has been requested again and waits for another elevator to observe it. -/
  | awaited (requested : (p.orders f b).status = .requested) {e : Fin kElevs} (other : e ≠ p.nodeId)
      (stays : p.Stays now e) (missing : (p.orders f b).observedBy e = false)
  /-- The order has been requested again and the node has the least cost for it. -/
  | cheapest (requested : (p.orders f b).status = .requested)
      (least : ∀ e, p.Stays now e → CostLe (elevatorCost (p.allStates p.nodeId) f, p.nodeId)
        (elevatorCost (p.allStates e) f, e))
  /-- The order is taken from an elevator that is silent or reports a fault, and comes to the node. -/
  | comes (confirmed : (p.orders f b).status = .confirmed) {prev : Fin kElevs}
      (assigned : (p.orders f b).assignedId = prev.val)
      (taken : p.Silent now prev ∨ p.Faulty now prev) (comes : p.ComesTo now f prev p.nodeId)

/-- Every timer of a hall order that has run out when it is looked at belongs to an order in hand. -/
def TimeoutsInHand (p : Peers kFloors) (now : StepClock kFloors) : Prop :=
  ∀ f b, b ≠ .cab → (p.orderTimers f b).expired (now (.timerExpired (f, b))) = true →
    p.InHand now f b

variable {p q watched faulted : Peers kFloors} {now : StepClock kFloors} {f : Fin kFloors}
  {b : BtnType}

/-- The pass changes the confirmed orders whose timers have run out. -/
theorem monitorHallOrderTimers_changes {q' : Peers kFloors}
    (done : q.monitorHallOrderTimers now = some q') (f : Fin kFloors) (b : BtnType) :
    q'.orders f b ≠ q.orders f b ↔ b ≠ .cab ∧
      (q.orderTimers f b).expired (now (.timerExpired (f, b))) = true ∧
        (q.orders f b).status = .confirmed := by
  by_cases hall : b = .cab
  · subst hall
    simp [(advances_monitorHallOrderTimers done).cab f]
  · rcases monitorHallOrderTimers_cases (f := f) done hall with ⟨kept, other⟩ | ⟨out, called⟩
    · simp [kept, hall, other]
    · obtain ⟨e, reassigned⟩ := reassignHallOrder_eq (reassignCell_cases called).1
      have raised : q'.orders f b ≠ q.orders f b := fun same => by
        have version := congrArg Order.version (reassigned.symm.trans same)
        exact Nat.succ_ne_self _ version
      exact iff_of_true raised ⟨hall, out⟩

/-- Who has observed a request once the node itself has. -/
theorem observedByAll_observeOrders (hall : b ≠ .cab)
    (requested : (p.orders f b).status = .requested) : p.observeOrders.observedByAll f b = true ↔
      ∀ e, (p.allStates e).active = true → e = p.nodeId ∨ (p.orders f b).observedBy e = true := by
  have marked (e : Fin kElevs) : (p.observeOrders.orders f b).observedBy e = true ↔
      e = p.nodeId ∨ (p.orders f b).observedBy e = true := by
    rw [observeOrders, orders_mapHall _ _ _ hall]
    dsimp only
    split_ifs with seen
    · refine ⟨.inr, fun observed => observed.elim (fun self => ?_) id⟩
      rw [self]
      exact seen
    · rw [Order.observedBy_bit (Order.elev_fits e) (Order.elev_fits p.nodeId) rfl,
        Order.observedBy_iff (Order.elev_fits e), or_comm, Fin.ext_iff]
  rw [observedByAll, decide_eq_true_eq]
  exact forall_congr' fun e => imp_congr_right fun _ => marked e

/-- Observing leaves a request one, and its timer alone. -/
theorem observeOrders_keeps (hall : b ≠ .cab) (requested : (p.orders f b).status = .requested) :
    (p.observeOrders.orders f b).status = .requested ∧
      p.observeOrders.orderTimers f b = p.orderTimers f b := by
  rw [observeOrders, orders_mapHall _ _ _ hall, orderTimers_mapHall _ _ _ hall]
  dsimp only
  split_ifs
  · exact ⟨requested, rfl⟩
  · exact ⟨requested, rfl⟩

/-- What becomes of a request before the timers are looked at: it waits, or it is confirmed to the
elevator with the least cost. -/
theorem requested_cases {q : Peers kFloors}
    (reset : q = (p.observeOrders.confirmHallOrders now).resetHallOrders) (hall : b ≠ .cab)
    (requested : (p.orders f b).status = .requested) :
    ∃ best others, p.calculateElevatorCosts f = best :: others ∧
      ((p.observeOrders.observedByAll f b = false ∨ best.1 = intMax) ∧
          (q.orders f b).status ≠ .confirmed ∨
        p.observeOrders.observedByAll f b = true ∧ (q.orders f b).status = .confirmed ∧
          (q.orders f b).assignedId = best.2.val ∧
          (best.2 ≠ p.nodeId → q.orderTimers f b = p.orderTimers f b)) := by
  obtain ⟨observed, timer⟩ := observeOrders_keeps hall requested
  obtain ⟨best, others, costs⟩ := List.exists_cons_of_ne_nil (p.calculateElevatorCosts_ne_nil f)
  have costs' : p.observeOrders.calculateElevatorCosts f = best :: others := costs
  refine ⟨best, others, costs, ?_⟩
  rcases confirmHallOrders_cases now hall observed costs' with
    ⟨blocked, kept⟩ | ⟨ready, -, confirmed⟩
  · left
    have order : (p.observeOrders.confirmHallOrders now).orders f b =
        p.observeOrders.orders f b := orders_of_cell kept
    have last : q.orders f b = p.observeOrders.orders f b := by
      rw [reset, ← order]
      exact orders_of_cell (cell_resetHallOrders (by simp [order, observed]))
    exact ⟨blocked, by simp [last, observed]⟩
  · right
    have order := orders_of_cell confirmed
    rw [Order.onConfirm_of_requested _ observed] at order
    have last : q.orders f b = (p.observeOrders.confirmHallOrders now).orders f b := by
      rw [reset]
      exact orders_of_cell (cell_resetHallOrders (by simp [order]))
    refine ⟨ready, by rw [last, order], by rw [last, order], fun other => ?_⟩
    rw [reset, orderTimers_resetHallOrders hall, orderTimers_of_cell confirmed]
    exact (if_neg other).trans timer

/-- An order that is over is not confirmed when the timers are looked at. -/
theorem not_confirmed_of_ended {q : Peers kFloors}
    (reset : q = (p.observeOrders.confirmHallOrders now).resetHallOrders) (hall : b ≠ .cab)
    (ended : (p.orders f b).status = .none ∨ (p.orders f b).status = .clear) :
    (q.orders f b).status ≠ .confirmed := by
  have other : (p.orders f b).status ≠ .requested := by
    rcases ended with status | status <;> simp [status]
  have same : (p.observeOrders.confirmHallOrders now).orders f b = p.orders f b :=
    orders_of_cell (cell_of_not_requested other now)
  rw [reset, resetHallOrders, orders_mapHall _ _ _ hall]
  dsimp only
  rw [same]
  rcases ended with status | status
  · rw [Order.onReset_of_not_clear (by simp [status]), status]
    decide
  · rw [Order.onReset_of_clear status]
    simp

/-- The timer of an order, looked at, moves an order of the node or none. -/
def ActsOnOwn (p q : Peers kFloors) (now : StepClock kFloors) (f : Fin kFloors) (b : BtnType) : Prop :=
  (q.orderTimers f b).expired (now (.timerExpired (f, b))) = true →
    (q.orders f b).status = .confirmed → (q.orders f b).assignedId = p.nodeId.val

/-- The monitors leave alone an order that is not confirmed. -/
theorem cell_of_unconfirmed (watch : p.updateNumElevs.monitorWatchdogTimers now = some watched)
    (fault : watched.monitorFault now = some faulted) (hall : b ≠ .cab)
    (other : (p.orders f b).status ≠ .confirmed) : faulted.cell (f, b) = p.cell (f, b) := by
  have first : watched.cell (f, b) = p.cell (f, b) := (monitor_watchdogs now).untouched watch hall other
  rw [show p.orders f b = watched.orders f b from (orders_of_cell first).symm] at other
  exact ((monitor_faults now).untouched fault hall other).trans first

/-- The timer of a requested order moves nothing but an order of the node exactly when the order is in
hand. -/
theorem TakesPart.acts_of_requested (part : p.TakesPart) (fits : CostsFit kFloors)
    (watch : p.updateNumElevs.monitorWatchdogTimers now = some watched)
    (fault : watched.monitorFault now = some faulted)
    (reset : q = (faulted.observeOrders.confirmHallOrders now).resetHallOrders) (hall : b ≠ .cab)
    (requested : (p.orders f b).status = .requested) : p.ActsOnOwn q now f b ↔
      ((p.orderTimers f b).expired (now (.timerExpired (f, b))) = true → p.InHand now f b) := by
  have kept : faulted.cell (f, b) = p.cell (f, b) :=
    cell_of_unconfirmed watch fault hall (by rw [requested]; exact nofun)
  have order : faulted.orders f b = p.orders f b := orders_of_cell kept
  have node : faulted.nodeId = p.nodeId :=
    (advances_monitorFault fault).nodeId.trans (advances_monitorWatchdogTimers watch).nodeId
  have view := (monitorFault_sound fault).1
  have stays (e : Fin kElevs) : (faulted.allStates e).active = true ↔ p.Stays now e := by
    rw [view]
    exact stays_iff watch e
  have state {e : Fin kElevs} (here : p.Stays now e) : faulted.allStates e = p.allStates e := by
    rw [view]
    exact here.state watch
  have here : (faulted.orders f b).status = .requested := order ▸ requested
  have seen := observedByAll_observeOrders hall here
  obtain ⟨best, others, costs, outcome⟩ := requested_cases reset hall here
  have first (e : Fin kElevs) (here : p.Stays now e) :
      CostLe best (elevatorCost (p.allStates e) f, e) := by
    rw [← state here]
    exact calculateElevatorCosts_first costs e
  have finite : best.1 ≠ intMax := by
    have least := first p.nodeId part.stays
    have cost := elevatorCost_lt fits part.active part.placed f
    unfold CostLe at least
    dsimp only at least
    omega
  rcases outcome with ⟨blocked, waits⟩ | ⟨ready, confirmed, named, started⟩
  · refine iff_of_true (fun _ confirmed => absurd confirmed waits) fun _ => ?_
    have missing := mt seen.2 (by rw [blocked.resolve_right finite]; exact nofun)
    simp only [not_forall, not_or] at missing
    obtain ⟨e, active, other, unseen⟩ := missing
    rw [node] at other
    rw [order] at unseen
    exact .awaited requested other ((stays e).1 active) (Bool.eq_false_iff.2 unseen)
  · have listed := cost_of_mem (costs ▸ List.mem_cons_self : best ∈ faulted.calculateElevatorCosts f)
    have chosen : p.Stays now best.2 := (stays _).1 (active_of_elevatorCost f (listed ▸ finite))
    rw [state chosen] at listed
    by_cases self : best.2 = p.nodeId
    · refine iff_of_true (fun _ _ => by rw [named, self]) fun _ => .cheapest requested fun e here => ?_
      rw [← self, ← listed]
      exact first e here
    · have timer : q.orderTimers f b = p.orderTimers f b :=
        (started (by rw [node]; exact self)).trans (orderTimers_of_cell kept)
      unfold ActsOnOwn
      rw [timer]
      refine forall_congr' fun _ => iff_of_false (fun owned => self ?_) fun hand => self ?_
      · exact Fin.ext (Int.ofNat.inj (named.symm.trans (owned confirmed)))
      · cases hand with
        | ended status => simp [requested] at status
        | own confirmed | comes confirmed => simp [requested] at confirmed
        | @awaited _ e other here missing =>
          rcases seen.1 ready e ((stays e).2 here) with same | observed
          · exact absurd (same.trans node) other
          · rw [order, missing] at observed
            cases observed
        | cheapest _ least =>
          have below := least best.2 chosen
          have above := first p.nodeId part.stays
          rw [← listed] at below
          unfold CostLe at below above
          dsimp only at below above
          omega

/-- So does the timer of a confirmed order, the one that the node has started in a short step and does
not keep the order for included. -/
theorem TakesPart.acts_of_confirmed (part : p.TakesPart) (fits : CostsFit kFloors)
    (dispatches : p.Dispatches) (watch : p.updateNumElevs.monitorWatchdogTimers now = some watched)
    (fault : watched.monitorFault now = some faulted)
    (reset : q = (faulted.observeOrders.confirmHallOrders now).resetHallOrders) (hall : b ≠ .cab)
    (confirmed : (p.orders f b).status = .confirmed) :
    (p.ActsOnOwn q now f b →
      (p.orderTimers f b).expired (now (.timerExpired (f, b))) = true → p.InHand now f b) ∧
      (now.Short →
        ((p.orderTimers f b).expired (now (.timerExpired (f, b))) = true → p.InHand now f b) →
          p.ActsOnOwn q now f b) := by
  have range := dispatches.assigned.orders f b confirmed
  obtain ⟨prev, assigned⟩ : ∃ prev : Fin kElevs, (p.orders f b).assignedId = prev.val :=
    ⟨⟨_, toNat_lt range⟩, (Int.toNat_of_nonneg range.1).symm⟩
  have unique {e : Fin kElevs} (named : (p.orders f b).assignedId = e.val) : prev = e :=
    Fin.ext (Int.ofNat.inj (assigned.symm.trans named))
  by_cases taken : p.Silent now prev ∨ p.Faulty now prev
  · obtain ⟨e, had, handed, own, same⟩ := handedTo_of_taken watch fault fits dispatches part hall
      confirmed assigned taken
    have last := cell_of_confirmed reset handed.confirmed
    unfold ActsOnOwn
    rw [orderTimers_of_cell last, orders_of_cell last]
    by_cases had : had
    · obtain ⟨call, started⟩ := handed.started had
      refine ⟨fun _ _ => ?_, fun short _ out => ?_⟩
      · rcases same.1 had with comes | alone
        · exact .comes confirmed assigned taken comes
        · rw [← alone _ part.stays] at assigned alone
          exact .own confirmed assigned (.inr alone)
      · have early : ¬now call + kReassignOrderTimeMs ≤ now (.timerExpired (f, b)) :=
          not_le.2 (short _ _)
        rw [show (faulted.cell (f, b)).2 = faulted.orderTimers f b from rfl, started] at out
        simp [Timer.expired, Timer.start, early] at out
    · rw [show (faulted.cell (f, b)).2 = p.orderTimers f b from handed.untouched had]
      refine StepClock.and_short_of_iff ?_
      refine forall_congr' fun _ => iff_of_false (fun owned => had (own ?_)) fun hand => ?_
      · exact Fin.ext (Int.ofNat.inj (handed.assigned.symm.trans (owned handed.confirmed)))
      · cases hand with
        | ended status => simp [confirmed] at status
        | own _ self keeps =>
          obtain rfl := unique self
          rcases keeps with sound | alone
          · rcases taken with silent | faulty
            · exact part.stays.2 silent
            · exact Bool.false_ne_true (sound.symm.trans faulty.2)
          · exact had (same.2 (.inr alone))
        | awaited requested | cheapest requested => simp [confirmed] at requested
        | comes _ named _ comes =>
          obtain rfl := unique named
          exact had (same.2 (.inl comes))
  · obtain ⟨heard, sound⟩ := not_or.1 taken
    have handed := handedTo_of_sound watch fault hall confirmed assigned heard sound
    have last := cell_of_confirmed reset handed.confirmed
    unfold ActsOnOwn
    rw [orderTimers_of_cell last, orders_of_cell last,
      show (faulted.cell (f, b)).2 = p.orderTimers f b from handed.untouched id]
    refine StepClock.and_short_of_iff (forall_congr' fun _ => ⟨fun owned => ?_, fun hand _ => ?_⟩)
    · obtain rfl : prev = p.nodeId :=
        Fin.ext (Int.ofNat.inj (handed.assigned.symm.trans (owned handed.confirmed)))
      refine .own confirmed assigned (.inl ?_)
      exact Bool.eq_false_iff.2 fun fault => sound ⟨part.stays, fault⟩
    · refine handed.assigned.trans ?_
      cases hand with
      | ended status => simp [confirmed] at status
      | own _ self _ => rw [unique self]
      | awaited requested | cheapest requested => simp [confirmed] at requested
      | comes _ named taken' _ =>
        obtain rfl := unique named
        exact absurd taken' taken

/-- The timer of an order that is over moves nothing. -/
theorem acts_of_ended (watch : p.updateNumElevs.monitorWatchdogTimers now = some watched)
    (fault : watched.monitorFault now = some faulted)
    (reset : q = (faulted.observeOrders.confirmHallOrders now).resetHallOrders) (hall : b ≠ .cab)
    (ended : (p.orders f b).status = .none ∨ (p.orders f b).status = .clear) : p.ActsOnOwn q now f b ↔
      ((p.orderTimers f b).expired (now (.timerExpired (f, b))) = true → p.InHand now f b) := by
  have kept : faulted.orders f b = p.orders f b := by
    refine orders_of_cell (cell_of_unconfirmed watch fault hall ?_)
    rcases ended with status | status <;> rw [status] <;> exact nofun
  refine iff_of_true (fun _ confirmed => ?_) fun _ => .ended ended
  rw [← kept] at ended
  exact absurd confirmed (not_confirmed_of_ended reset hall ended)

/-- A step that ends has looked at the timers. -/
theorem timerPass_of_step {p' : Peers kFloors} (done : p.step now = some p') :
    ∃ q q', p.TimerPass now q q' := by
  obtain ⟨watched, faulted, timed, watch, fault, timers, -⟩ := step_cases done
  exact ⟨_, timed, beforeTimers_eq watch fault, timers⟩

/-- The timers of a node move orders of its own only when those that have run out belong to orders in
hand, and also if they do, unless the step is long. -/
theorem TakesPart.timesOutOwn_iff (part : p.TakesPart) (fits : CostsFit kFloors)
    (dispatches : p.Dispatches) {q q' : Peers kFloors} (timers : p.TimerPass now q q') :
    (p.TimesOutOwn now → p.TimeoutsInHand now) ∧
      (now.Short → p.TimeoutsInHand now → p.TimesOutOwn now) := by
  obtain ⟨reached, done⟩ := timers
  obtain ⟨watched, faulted, watch, fault, reset⟩ := beforeTimers_cases reached
  have acts (f : Fin kFloors) (b : BtnType) (hall : b ≠ .cab) : (p.ActsOnOwn q now f b →
      (p.orderTimers f b).expired (now (.timerExpired (f, b))) = true → p.InHand now f b) ∧
      (now.Short →
        ((p.orderTimers f b).expired (now (.timerExpired (f, b))) = true → p.InHand now f b) →
          p.ActsOnOwn q now f b) := by
    cases status : (p.orders f b).status with
    | none => exact StepClock.and_short_of_iff (acts_of_ended watch fault reset hall (.inl status))
    | clear => exact StepClock.and_short_of_iff (acts_of_ended watch fault reset hall (.inr status))
    | requested =>
      exact StepClock.and_short_of_iff (part.acts_of_requested fits watch fault reset hall status)
    | confirmed => exact part.acts_of_confirmed fits dispatches watch fault reset hall status
  constructor
  · refine fun own f b hall => (acts f b hall).1 fun out confirmed => ?_
    have moved := (monitorHallOrderTimers_changes done f b).2 ⟨hall, out, confirmed⟩
    exact (own q q' ⟨reached, done⟩ f b moved).2
  · intro short inHand r r' other f b moved
    obtain rfl := Option.some.inj (reached.symm.trans other.reached)
    obtain ⟨hall, out, confirmed⟩ := (monitorHallOrderTimers_changes other.done f b).1 moved
    exact ⟨confirmed, (acts f b hall).2 short (inHand f b hall) out confirmed⟩

end Peers

open Peers

/-- In every run of a fleet, whenever a node, also one that is being launched, gets to
`Peers::Step`, the step looks at the timers of the hall orders. They move nothing but orders confirmed
to the node only when each of them that has run out when it is looked at belongs to an order which the
view the step begins with keeps in hand; and whenever each does, unless the step takes the time an order
is given. -/
theorem hall_timers_own_orders (fits : CostsFit kFloors) {start s : Fleet kFloors}
    (launched : start.Launched)
    {trace : List (Transition (Fleet kFloors) (FleetRestartAction kFloors))}
    (run : Run FleetRestartStep start trace s) {i : Fin kElevs} {n : ElevatorNode kFloors}
    (stepping : n = s.node i ∨ ∃ initial : Signals kFloors, initial.AtFloor ∧ n = .init i initial)
    (signals : Signals kFloors) (now : StepClock kFloors) :
    (∃ q q', (n.synced signals).peers.TimerPass now q q') ∧
      ((n.synced signals).peers.TimesOutOwn now → (n.synced signals).peers.TimeoutsInHand now) ∧
      (now.Short → (n.synced signals).peers.TimeoutsInHand now →
        (n.synced signals).peers.TimesOutOwn now) := by
  have serving := launched.dispatching run stepping signals
  obtain ⟨p', done⟩ := serving.step_total fits now
  obtain ⟨q, q', timers⟩ := timerPass_of_step done
  exact ⟨⟨q, q', timers⟩, serving.serves.takesPart.timesOutOwn_iff fits serving.holds timers⟩

/-- The readings of a car at the bottom floor while somebody calls it to the top one. -/
def calledToTop : Signals Config.kFloors := { floorSensor := 0, buttons := .only 3 .hallUp }

/-- Node 0 takes a call, hears of node 1, and finds the timer of the call run out. -/
theorem hall_timers_own_orders_called : ∃ trace s, Run FleetRestartStep Fleet.atBottom trace s ∧
    (((s.node 0).synced { floorSensor := 0 }).peers.orderTimers 3 .hallUp).expired 25060 = true ∧
    ((s.node 0).synced { floorSensor := 0 }).peers.TimesOutOwn (.still 25060) := by
  let actions : List (FleetRestartAction Config.kFloors) := [.run (.sync 0 (.still 40) calledToTop),
    .run (.transmit 1), .run (.receive 0 0 25030)]
  have evaluated : (actions.foldlM Fleet.execRestart Fleet.atBottom).any (fun s =>
      let p := ((s.node 0).synced { floorSensor := 0 }).peers
      decide ((p.orderTimers 3 .hallUp).expired 25060 = true ∧
        ∀ f b, b ≠ .cab → (p.orderTimers f b).expired 25060 = true →
          (p.orders f b).status = .confirmed ∧ (p.orders f b).assignedId = p.nodeId.val ∧
            (p.allStates p.nodeId).fault = false)) = true := by decide
  obtain ⟨trace, s, run, -, reached⟩ := Run.of_check FleetRestartStep id evaluated
  obtain ⟨out, own⟩ := of_decide_eq_true reached
  refine ⟨trace, s, run, out, ((hall_timers_own_orders costsFit_config Fleet.launched_atBottom run
    (.inl rfl) { floorSensor := 0 } (.still 25060)).2.2 (StepClock.short_still _)) fun f b hall out => ?_⟩
  obtain ⟨confirmed, assigned, sound⟩ := own f b hall out
  exact .own confirmed assigned (.inl sound)

/-- Node 1 misses the packets of node 0 and takes its call over; node 0 learns of it just before the
timer of the call is looked at, and takes the call back. -/
theorem hall_timer_moves_order_of_other : ∃ trace s,
    Run FleetRestartStep Fleet.atBottom trace s ∧ ∃ q q',
      ((s.node 0).synced { floorSensor := 0 }).peers.TimerPass (.still 25060) q q' ∧
      (((s.node 0).synced { floorSensor := 0 }).peers.orders 3 .hallUp).assignedId = 1 ∧
      (q.orders 3 .hallUp).status = .confirmed ∧ (q.orders 3 .hallUp).assignedId = 1 ∧
      (q'.orders 3 .hallUp).assignedId = 0 ∧
      ¬((s.node 0).synced { floorSensor := 0 }).peers.TimesOutOwn (.still 25060) := by
  let actions : List (FleetRestartAction Config.kFloors) := [.run (.sync 0 (.still 40) calledToTop),
    .run (.transmit 0), .run (.receive 1 0 24300), .run (.sync 1 (.still 24950) { floorSensor := 0 }),
    .run (.transmit 1), .run (.receive 0 1 25030)]
  have evaluated : (actions.foldlM Fleet.execRestart Fleet.atBottom).any (fun s =>
      let p := ((s.node 0).synced { floorSensor := 0 }).peers
      decide ((p.orders 3 .hallUp).assignedId = 1) && (p.beforeTimers (.still 25060)).any fun q =>
        (q.monitorHallOrderTimers (.still 25060)).any fun q' =>
          decide ((q.orders 3 .hallUp).status = .confirmed ∧ (q.orders 3 .hallUp).assignedId = 1 ∧
            (q'.orders 3 .hallUp).assignedId = 0)) = true := by decide
  obtain ⟨trace, s, run, -, reached⟩ := Run.of_check FleetRestartStep id evaluated
  obtain ⟨merged, passed⟩ := Bool.and_eq_true_iff.1 reached
  obtain ⟨q, before, passed⟩ := (Option.any_eq_true _ _).1 passed
  obtain ⟨q', done, moved⟩ := (Option.any_eq_true _ _).1 passed
  obtain ⟨confirmed, other, taken⟩ := of_decide_eq_true moved
  refine ⟨trace, s, run, q, q', ⟨before, done⟩, of_decide_eq_true merged, confirmed, other, taken,
    fun own => ?_⟩
  have changed : q'.orders 3 .hallUp ≠ q.orders 3 .hallUp := by
    intro same
    rw [same, other] at taken
    cases taken
  have self := (own q q' ⟨before, done⟩ 3 .hallUp changed).2
  have node : ((s.node 0).synced { floorSensor := 0 }).peers.nodeId = 0 :=
    (Fleet.launched_atBottom.dispatching run (.inl rfl) { floorSensor := 0 }).nodeId
  rw [other, node] at self
  cases self

end CppElevator
