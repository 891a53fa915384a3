import Mathlib.Logic.Relation
import CppElevator.Peers
import CppElevator.Verif.Orders

/-!
# What a step of `Peers` does to an order

The passes of `Peers::Step` change a hall order by four transitions only, each from one status:
a requested order is observed or confirmed, a cleared one reset, a confirmed one reassigned.
`Peers.Advances` says so of two states of one node, with the cab orders untouched; every pass
advances its node, and so does a whole step.
-/
namespace CppElevator

open Library

variable {kFloors : Nat}

/-- The transitions the passes of node `n` make on a hall order. -/
inductive HallStep (n : Fin kElevs) : Order → Order → Prop where
  /-- `ObserveOrders`. -/
  | observe {o : Order} (requested : o.status = .requested) : HallStep n o (o.observe n)
  /-- `ConfirmHallOrders`. -/
  | confirm {o : Order} (requested : o.status = .requested) (e : Fin kElevs) :
      HallStep n o (o.onConfirm e.val)
  /-- `ResetHallOrders`. -/
  | reset {o : Order} (clear : o.status = .clear) : HallStep n o o.onReset
  /-- `ReassignHallOrder`. -/
  | reassign {o : Order} (confirmed : o.status = .confirmed) (e : Fin kElevs) :
      HallStep n o (o.onReassignment e.val)

/-- Any number of transitions of the passes of one node. -/
abbrev HallPath (n : Fin kElevs) : Order → Order → Prop := Relation.ReflTransGen (HallStep n)

/-- The hall cells are visited once each. -/
theorem hallCells_nodup : (hallCells kFloors).Nodup := by
  rw [hallCells, List.nodup_flatMap]
  constructor
  · intro f _
    simp
  · refine (List.nodup_finRange kFloors).imp ?_
    intro f g apart cell left right
    simp only [List.mem_cons, List.not_mem_nil, or_false] at left right
    rcases left with rfl | rfl <;> rcases right with same | same <;>
      exact apart (congrArg Prod.fst same)

/-- The visited cells are those of the hall buttons. -/
theorem mem_hallCells {key : Fin kFloors × BtnType} : key ∈ hallCells kFloors ↔ key.2 ≠ .cab := by
  obtain ⟨f, b⟩ := key
  cases b <;> simp [hallCells]

namespace Peers

open Config

/-- The order of a cell. -/
theorem orders_of_cell {p : Peers kFloors} {f : Fin kFloors} {b : BtnType} {cell : Order × Timer}
    (same : p.cell (f, b) = cell) : p.orders f b = cell.1 := congrArg Prod.fst same

/-- The timer of a cell. -/
theorem orderTimers_of_cell {p : Peers kFloors} {f : Fin kFloors} {b : BtnType} {cell : Order × Timer}
    (same : p.cell (f, b) = cell) : p.orderTimers f b = cell.2 := congrArg Prod.snd same

/-- A fallible pass applies its body to every hall cell, and changes nothing but cells. -/
theorem forHall_spec {p p' : Peers kFloors}
    {body : Fin kFloors × BtnType → Order × Timer → Option (Order × Timer)}
    (done : p.forHall body = some p') :
    p' = p.withCells p'.cell ∧ (∀ f, p'.cell (f, .cab) = p.cell (f, .cab)) ∧
      ∀ f b, b ≠ .cab → body (f, b) (p.cell (f, b)) = some (p'.cell (f, b)) := by
  obtain ⟨cells, looped, rfl⟩ := Option.map_eq_some_iff.1 done
  obtain ⟨listed, others⟩ := loopCells_spec hallCells_nodup looped
  refine ⟨rfl, fun f => others (f, .cab) (by simp [mem_hallCells]), fun f b hall => ?_⟩
  exact listed (f, b) (mem_hallCells.2 hall)

/-- A total pass applies its body to every hall cell. -/
theorem mapHall_cell (p : Peers kFloors)
    (body : Fin kFloors × BtnType → Order × Timer → Order × Timer) (f : Fin kFloors) (b : BtnType) :
    (p.mapHall body).cell (f, b) =
      if b = .cab then p.cell (f, b) else body (f, b) (p.cell (f, b)) := rfl

/-- A total pass on the order of a hall cell. -/
theorem orders_mapHall (p : Peers kFloors)
    (body : Fin kFloors × BtnType → Order × Timer → Order × Timer) (f : Fin kFloors) {b : BtnType}
    (hall : b ≠ .cab) :
    (p.mapHall body).orders f b = (body (f, b) (p.orders f b, p.orderTimers f b)).1 :=
  congrArg Prod.fst ((p.mapHall_cell body f b).trans (if_neg hall))

/-- A total pass on the timer of a hall cell. -/
theorem orderTimers_mapHall (p : Peers kFloors)
    (body : Fin kFloors × BtnType → Order × Timer → Order × Timer) (f : Fin kFloors) {b : BtnType}
    (hall : b ≠ .cab) :
    (p.mapHall body).orderTimers f b = (body (f, b) (p.orders f b, p.orderTimers f b)).2 :=
  congrArg Prod.snd ((p.mapHall_cell body f b).trans (if_neg hall))

/-- The second state follows from the first by passes of the same node. -/
structure Advances (p p' : Peers kFloors) : Prop where
  /-- The node stays the same. -/
  nodeId : p'.nodeId = p.nodeId
  /-- The copies of the cab orders are untouched. -/
  cabButtonOrders : p'.cabButtonOrders = p.cabButtonOrders
  /-- The cab orders are untouched. -/
  cab : ∀ f, p'.orders f .cab = p.orders f .cab
  /-- States change by watchdog timeouts alone. -/
  states : ∀ e, p'.allStates e = p.allStates e ∨ p'.allStates e = (p.allStates e).onWatchdogTimeout
  /-- Hall orders change by the transitions of the passes. -/
  hall : ∀ f b, b ≠ .cab → HallPath p.nodeId (p.orders f b) (p'.orders f b)

/-- A node that does nothing advances. -/
theorem Advances.refl (p : Peers kFloors) : p.Advances p :=
  ⟨rfl, rfl, fun _ => rfl, fun _ => .inl rfl, fun _ _ _ => .refl⟩

/-- Passes compose. -/
theorem Advances.trans {p q r : Peers kFloors} (first : p.Advances q) (second : q.Advances r) :
    p.Advances r where
  nodeId := second.nodeId.trans first.nodeId
  cabButtonOrders := second.cabButtonOrders.trans first.cabButtonOrders
  cab f := (second.cab f).trans (first.cab f)
  states e := by
    rcases first.states e with one | one <;> rcases second.states e with two | two <;>
      rw [two, one]
    · exact .inl rfl
    · exact .inr rfl
    · exact .inr rfl
    · exact .inr rfl
  hall f b hall := (first.hall f b hall).trans (first.nodeId ▸ second.hall f b hall)

/-- A pass advances its node when its body makes transitions of the passes. -/
theorem advances_of_forHall {p p' : Peers kFloors}
    {body : Fin kFloors × BtnType → Order × Timer → Option (Order × Timer)}
    (done : p.forHall body = some p')
    (moves : ∀ key cell cell', body key cell = some cell' → HallPath p.nodeId cell.1 cell'.1) :
    p.Advances p' := by
  obtain ⟨outside, cab, hall⟩ := forHall_spec done
  exact ⟨by rw [outside]; rfl, by rw [outside]; rfl, fun f => congrArg Prod.fst (cab f),
    fun e => .inl (by rw [outside]; rfl), fun f b isHall => moves _ _ _ (hall f b isHall)⟩

/-- A total pass advances its node when its body makes transitions of the passes. -/
theorem advances_mapHall (p : Peers kFloors)
    {body : Fin kFloors × BtnType → Order × Timer → Order × Timer}
    (moves : ∀ f b, b ≠ .cab → HallPath p.nodeId (p.orders f b) (body (f, b) (p.cell (f, b))).1) :
    p.Advances (p.mapHall body) :=
  ⟨rfl, rfl, fun _ => rfl, fun _ => .inl rfl, fun f b hall => by
    have moved := moves f b hall
    have cell := p.mapHall_cell body f b
    rw [if_neg hall] at cell
    rw [← cell] at moved
    exact moved⟩

/-- A reassignment keeps the order confirmed, one version later and assigned to an elevator of
the cluster. -/
theorem reassignHallOrder_eq {p : Peers kFloors} {floor : Fin kFloors} {o o' : Order}
    (done : p.reassignHallOrder floor o = some o') :
    ∃ e : Fin kElevs, o' = o.onReassignment e.val := by
  unfold reassignHallOrder at done
  split_ifs at done with range single
  · exact ⟨_, (Option.some.inj done).symm⟩
  · obtain ⟨e, _, rfl⟩ := Option.map_eq_some_iff.1 done
    exact ⟨e, rfl⟩

/-- A reassignment with its timer is one transition of the passes. -/
theorem reassignCell_step {p : Peers kFloors} {now : Nat} {floor : Fin kFloors}
    {cell cell' : Order × Timer} (confirmed : cell.1.status = .confirmed)
    (done : p.reassignCell now floor cell = some cell') : HallStep p.nodeId cell.1 cell'.1 := by
  obtain ⟨o, reassigned, rfl⟩ := Option.map_eq_some_iff.1 done
  obtain ⟨e, rfl⟩ := reassignHallOrder_eq reassigned
  exact .reassign confirmed e

/-- `ReassignHallOrders` on one order: a call for a confirmed order of the elevator, or nothing. -/
theorem reassignHallOrders_cases {p p' : Peers kFloors} {now : Fin kFloors × BtnType → Nat}
    {e : Fin kElevs}
    (done : p.reassignHallOrders now e = some p') {f : Fin kFloors} {b : BtnType} (hall : b ≠ .cab) :
    p'.cell (f, b) = p.cell (f, b) ∧
        ¬((p.orders f b).status = .confirmed ∧ (p.orders f b).assignedId = e.val) ∨
      ((p.orders f b).status = .confirmed ∧ (p.orders f b).assignedId = e.val) ∧
        p.reassignCell (now (f, b)) f (p.cell (f, b)) = some (p'.cell (f, b)) := by
  have moved := (forHall_spec done).2.2 f b hall
  have order : p.orders f b = (p.cell (f, b)).1 := rfl
  rw [order]
  generalize p.cell (f, b) = before at moved
  split_ifs at moved with open_ elsewhere
  · exact .inl ⟨(Option.some.inj moved).symm, fun named => open_ named.1⟩
  · exact .inl ⟨(Option.some.inj moved).symm, fun named => elsewhere named.2⟩
  · exact .inr ⟨⟨not_not.1 open_, not_not.1 elsewhere⟩, moved⟩

/-- A reassignment starts the timer of the cell for the node, or leaves it as it is. -/
theorem reassignCell_cases {p : Peers kFloors} {now : Nat} {floor : Fin kFloors}
    {cell cell' : Order × Timer} (done : p.reassignCell now floor cell = some cell') :
    p.reassignHallOrder floor cell.1 = some cell'.1 ∧
      (cell'.1.assignedId = p.nodeId.val ∧ cell'.2 = .start now kReassignOrderTimeMs ∨
        cell'.1.assignedId ≠ p.nodeId.val ∧ cell'.2 = cell.2) := by
  obtain ⟨o, reassigned, rfl⟩ := Option.map_eq_some_iff.1 done
  refine ⟨reassigned, ?_⟩
  by_cases own : o.assignedId = p.nodeId.val
  · exact .inl ⟨own, if_pos own⟩
  · exact .inr ⟨own, if_neg own⟩

/-- A reassignment raises the version by one. -/
theorem version_reassignCell {p : Peers kFloors} {now : Nat} {floor : Fin kFloors}
    {cell cell' : Order × Timer} (done : p.reassignCell now floor cell = some cell') :
    cell'.1.version = cell.1.version + 1 := by
  obtain ⟨e, reassigned⟩ := reassignHallOrder_eq (reassignCell_cases done).1
  rw [reassigned]
  rfl

/-- `ReassignHallOrders` advances its node. -/
theorem advances_reassignHallOrders {p p' : Peers kFloors} {now : Fin kFloors × BtnType → Nat}
    {e : Fin kElevs} (done : p.reassignHallOrders now e = some p') : p.Advances p' := by
  apply advances_of_forHall done
  intro key cell cell' body
  split_ifs at body with other elsewhere
  · rw [Option.some.inj body]
  · rw [Option.some.inj body]
  · exact .single (reassignCell_step (not_not.1 other) body)

/-- A fold of fallible passes over the elevators advances its node when each pass does. -/
theorem advances_foldlM {pass : Peers kFloors → Fin kElevs → Option (Peers kFloors)}
    (advances : ∀ {p p' e}, pass p e = some p' → p.Advances p') {elevs : List (Fin kElevs)}
    {p p' : Peers kFloors} (done : elevs.foldlM pass p = some p') : p.Advances p' :=
  invariant_of_foldlM (fun q => p.Advances q)
    (fun iteration before => before.trans (advances iteration)) done (.refl p)

/-- The node once it has taken an elevator out of its view. -/
def silenced (p : Peers kFloors) (e : Fin kElevs) : Peers kFloors :=
  { p with watchdogTimers := Function.update p.watchdogTimers e (p.watchdogTimers e).stop,
           allStates := Function.update p.allStates e (p.allStates e).onWatchdogTimeout }

/-- The watchdog of an elevator has run out. -/
def watchdogDue (now : StepClock kFloors) (q : Peers kFloors) (e : Fin kElevs) : Bool :=
  (q.watchdogTimers e).expired (now (.watchdogExpired e))

/-- An elevator takes part and reports a fault. -/
def faultDue (q : Peers kFloors) (e : Fin kElevs) : Bool :=
  (q.allStates e).active && (q.allStates e).fault

/-- The form `MonitorWatchdogTimers` and `MonitorFault` have in common. `starts` is what the clock shows
when they start a timer. -/
structure Monitor (starts : Fin kElevs → Fin kFloors × BtnType → Nat)
    (pass : Peers kFloors → Fin kElevs → Option (Peers kFloors))
    (due : Peers kFloors → Fin kElevs → Bool)
    (caller : Peers kFloors → Fin kElevs → Peers kFloors) : Prop where
  /-- An iteration reassigns the orders of an elevator that is due. -/
  body : ∀ q e, pass q e = if due q e then (caller q e).reassignHallOrders (starts e) e else some q
  /-- The caller is the node. -/
  nodeId : ∀ q e, (caller q e).nodeId = q.nodeId
  /-- With its orders and timers. -/
  cell : ∀ q e, (caller q e).cell = q.cell

/-- `MonitorWatchdogTimers`. -/
theorem monitor_watchdogs (now : StepClock kFloors) :
    Monitor (fun e key => now (.watchdogStart e key)) (monitorWatchdogTimer now) (watchdogDue now)
      silenced :=
  ⟨fun _ _ => rfl, fun _ _ => rfl, fun _ _ => rfl⟩

/-- `MonitorFault`. -/
theorem monitor_faults (now : StepClock kFloors) :
    Monitor (fun e key => now (.faultStart e key)) (monitorFaultOf now) faultDue fun q _ => q :=
  ⟨fun _ _ => rfl, fun _ _ => rfl, fun _ _ => rfl⟩

namespace Monitor

variable {starts : Fin kElevs → Fin kFloors × BtnType → Nat}
  {pass : Peers kFloors → Fin kElevs → Option (Peers kFloors)}
  {due : Peers kFloors → Fin kElevs → Bool} {caller : Peers kFloors → Fin kElevs → Peers kFloors}
  {q q' : Peers kFloors} {e : Fin kElevs} {elevs : List (Fin kElevs)}

/-- What an iteration keeps, when the reassignments for an elevator that is due keep it. -/
theorem keeps (monitor : Monitor starts pass due caller) (P : Peers kFloors → Prop)
    (done : pass q e = some q') (before : P q)
    (reassigns : due q e = true → (caller q e).reassignHallOrders (starts e) e = some q' → P q') :
    P q' := by
  rw [monitor.body] at done
  split_ifs at done with isDue
  · exact reassigns isDue done
  · rw [← Option.some.inj done]
    exact before

/-- An iteration on one order: a call for a confirmed order of an elevator that is due, or
nothing. -/
theorem cases (monitor : Monitor starts pass due caller) (done : pass q e = some q')
    {f : Fin kFloors} {b : BtnType} (hall : b ≠ .cab) :
    q'.cell (f, b) = q.cell (f, b) ∧ ¬(due q e = true ∧ (q.orders f b).status = .confirmed ∧
        (q.orders f b).assignedId = e.val) ∨
      (due q e = true ∧ (q.orders f b).status = .confirmed ∧ (q.orders f b).assignedId = e.val) ∧
        (caller q e).reassignCell (starts e (f, b)) f (q.cell (f, b)) = some (q'.cell (f, b)) := by
  rw [monitor.body] at done
  by_cases isDue : due q e = true
  · rw [if_pos isDue] at done
    have order : (caller q e).orders f b = q.orders f b :=
      orders_of_cell (congrFun (monitor.cell q e) (f, b))
    rcases reassignHallOrders_cases done hall with ⟨kept, other⟩ | ⟨named, called⟩
    · rw [order] at other
      rw [monitor.cell] at kept
      exact .inl ⟨kept, fun named => other named.2⟩
    · rw [order] at named
      rw [monitor.cell] at called
      exact .inr ⟨⟨isDue, named⟩, called⟩
  · rw [if_neg isDue] at done
    obtain rfl := Option.some.inj done
    exact .inl ⟨rfl, fun named => isDue named.1⟩

/-- An iteration is one of the node. -/
theorem node (monitor : Monitor starts pass due caller) (done : pass q e = some q') :
    q'.nodeId = q.nodeId :=
  monitor.keeps (fun r => r.nodeId = q.nodeId) done rfl fun _ called =>
    (advances_reassignHallOrders called).nodeId.trans (monitor.nodeId q e)

/-- The pass touches confirmed orders only. -/
theorem untouched (monitor : Monitor starts pass due caller) (done : elevs.foldlM pass q = some q')
    {f : Fin kFloors} {b : BtnType} (hall : b ≠ .cab) (other : (q.orders f b).status ≠ .confirmed) :
    q'.cell (f, b) = q.cell (f, b) := by
  refine invariant_of_foldlM (fun r => r.cell (f, b) = q.cell (f, b)) ?_ done rfl
  intro r r' e iteration same
  rcases monitor.cases iteration hall with ⟨kept, -⟩ | ⟨⟨-, confirmed, -⟩, -⟩
  · exact kept.trans same
  · rw [orders_of_cell same] at confirmed
    exact absurd confirmed other

end Monitor

/-- An iteration of `MonitorWatchdogTimers` advances its node. -/
theorem advances_monitorWatchdogTimer {p p' : Peers kFloors} {now : StepClock kFloors} {e : Fin kElevs}
    (pass : p.monitorWatchdogTimer now e = some p') : p.Advances p' := by
  refine (monitor_watchdogs now).keeps p.Advances pass (.refl p) fun _ called => ?_
  have moved := advances_reassignHallOrders called
  refine ⟨moved.nodeId, moved.cabButtonOrders, moved.cab, fun i => ?_, moved.hall⟩
  have state := moved.states i
  by_cases timedOut : i = e
  · subst timedOut
    simp only [silenced, Function.update_self] at state
    rcases state with once | again
    · exact .inr once
    · exact .inr again
  · simpa only [silenced, Function.update_of_ne timedOut] using state

/-- `MonitorWatchdogTimers` advances its node. -/
theorem advances_monitorWatchdogTimers {p p' : Peers kFloors} {now : StepClock kFloors}
    (done : p.monitorWatchdogTimers now = some p') : p.Advances p' :=
  advances_foldlM advances_monitorWatchdogTimer done

/-- An iteration of `MonitorFault` advances its node. -/
theorem advances_monitorFaultOf {p p' : Peers kFloors} {now : StepClock kFloors} {e : Fin kElevs}
    (pass : p.monitorFaultOf now e = some p') : p.Advances p' :=
  (monitor_faults now).keeps p.Advances pass (.refl p) fun _ called =>
    advances_reassignHallOrders called

/-- `MonitorFault` advances its node. -/
theorem advances_monitorFault {p p' : Peers kFloors} {now : StepClock kFloors}
    (done : p.monitorFault now = some p') : p.Advances p' :=
  advances_foldlM advances_monitorFaultOf done

/-- `ObserveOrders` advances its node. -/
theorem advances_observeOrders (p : Peers kFloors) : p.Advances p.observeOrders := by
  apply advances_mapHall
  intro f b _
  dsimp only [cell]
  split_ifs with seen requested
  · exact .refl
  · exact .single (.observe requested)
  · exact .refl

/-- `ConfirmHallOrders` advances its node. -/
theorem advances_confirmHallOrders (p : Peers kFloors) (now : StepClock kFloors) :
    p.Advances (p.confirmHallOrders now) := by
  apply advances_mapHall
  intro f b _
  dsimp only [cell]
  split_ifs with blocked
  · exact .refl
  · obtain ⟨_, requested⟩ := not_or.1 blocked
    cases costs : p.calculateElevatorCosts f with
    | nil => exact .refl
    | cons best others =>
      obtain ⟨cost, best⟩ := best
      dsimp only
      split_ifs
      · exact .refl
      · exact .single (.confirm (not_not.1 requested) best)
      · exact .single (.confirm (not_not.1 requested) best)

/-- `ResetHallOrders` advances its node. -/
theorem advances_resetHallOrders (p : Peers kFloors) : p.Advances p.resetHallOrders := by
  apply advances_mapHall
  intro f b _
  by_cases clear : (p.orders f b).status = .clear
  · exact .single (.reset clear)
  · simp only [cell, Order.onReset_of_not_clear clear]
    exact .refl

/-- `MonitorHallOrderTimers` advances its node. -/
theorem advances_monitorHallOrderTimers {p p' : Peers kFloors} {now : StepClock kFloors}
    (done : p.monitorHallOrderTimers now = some p') : p.Advances p' := by
  apply advances_of_forHall done
  intro key cell cell' body
  split_ifs at body with running other
  · rw [Option.some.inj body]
  · rw [← Option.some.inj body]
  · have confirmed : cell.1.status = .confirmed := not_not.1 other
    exact .single (@reassignCell_step _ _ _ _ (cell.1, cell.2.stop) _ confirmed body)

/-- `ControlHallOrderTimers` touches no order. -/
theorem advances_controlHallOrderTimers (p : Peers kFloors) (now : StepClock kFloors) :
    p.Advances (p.controlHallOrderTimers now) := by
  apply advances_mapHall
  intro f b _
  dsimp only [cell]
  split_ifs <;> exact .refl

/-- The fallible passes of a step of `Peers`, one after another. -/
theorem step_cases {p p' : Peers kFloors} {now : StepClock kFloors} (done : p.step now = some p') :
    ∃ watched faulted timed, p.updateNumElevs.monitorWatchdogTimers now = some watched ∧
      watched.monitorFault now = some faulted ∧
      (faulted.observeOrders.confirmHallOrders now).resetHallOrders.monitorHallOrderTimers now =
        some timed ∧
      p' = timed.controlHallOrderTimers now := by
  unfold step at done
  obtain ⟨watched, watch, done⟩ := Option.bind_eq_some_iff.1 done
  obtain ⟨faulted, fault, done⟩ := Option.bind_eq_some_iff.1 done
  obtain ⟨timed, timers, done⟩ := Option.bind_eq_some_iff.1 done
  exact ⟨watched, faulted, timed, watch, fault, timers, (Option.some.inj done).symm⟩

/-- A pass whose body keeps the order of a hall cell keeps that order. -/
theorem orders_of_forHall {p p' : Peers kFloors}
    {body : Fin kFloors × BtnType → Order × Timer → Option (Order × Timer)}
    (done : p.forHall body = some p') {f : Fin kFloors} {b : BtnType} (hall : b ≠ .cab)
    (keeps : ∀ t cell, body (f, b) (p.orders f b, t) = some cell → cell.1 = p.orders f b) :
    p'.orders f b = p.orders f b :=
  keeps _ _ ((forHall_spec done).2.2 f b hall)

/-- The watchdog pass touches confirmed orders only. -/
theorem orders_of_monitorWatchdogTimers {p p' : Peers kFloors} {now : StepClock kFloors}
    (done : p.monitorWatchdogTimers now = some p') {f : Fin kFloors} {b : BtnType} (hall : b ≠ .cab)
    (other : (p.orders f b).status ≠ .confirmed) : p'.orders f b = p.orders f b :=
  orders_of_cell ((monitor_watchdogs now).untouched done hall other)

/-- The fault pass touches confirmed orders only. -/
theorem orders_of_monitorFault {p p' : Peers kFloors} {now : StepClock kFloors}
    (done : p.monitorFault now = some p') {f : Fin kFloors} {b : BtnType} (hall : b ≠ .cab)
    (other : (p.orders f b).status ≠ .confirmed) : p'.orders f b = p.orders f b :=
  orders_of_cell ((monitor_faults now).untouched done hall other)

/-- The order timer pass touches confirmed orders only. -/
theorem orders_of_monitorHallOrderTimers {p p' : Peers kFloors} {now : StepClock kFloors}
    (done : p.monitorHallOrderTimers now = some p') {f : Fin kFloors} {b : BtnType}
    (hall : b ≠ .cab) (other : (p.orders f b).status ≠ .confirmed) :
    p'.orders f b = p.orders f b := by
  refine orders_of_forHall done hall fun t cell body => ?_
  by_cases running : t.expired (now (.timerExpired (f, b))) = false
  · rw [if_pos running] at body
    rw [← Option.some.inj body]
  · rw [if_neg running, if_pos other] at body
    rw [← Option.some.inj body]

/-- The order timer pass leaves the view alone. -/
theorem allStates_of_monitorHallOrderTimers {p p' : Peers kFloors} {now : StepClock kFloors}
    (done : p.monitorHallOrderTimers now = some p') : p'.allStates = p.allStates := by
  rw [(forHall_spec done).1]
  rfl

/-- Observing a request marks it for the node itself. -/
theorem observeOrders_of_requested {p : Peers kFloors} {f : Fin kFloors} {b : BtnType}
    (hall : b ≠ .cab) (requested : (p.orders f b).status = .requested) :
    p.observeOrders.orders f b = p.orders f b ∨
      p.observeOrders.orders f b = (p.orders f b).observe p.nodeId := by
  rw [observeOrders, orders_mapHall _ _ _ hall]
  dsimp only
  split_ifs
  · exact .inl rfl
  · exact .inr rfl

/-- A request is confirmed only when every elevator active in the view has observed it. -/
theorem observedByAll_of_confirmHallOrders {p : Peers kFloors} {now : StepClock kFloors} {f : Fin kFloors}
    {b : BtnType} (hall : b ≠ .cab)
    (changed : (p.confirmHallOrders now).orders f b ≠ p.orders f b) :
    p.observedByAll f b = true := by
  by_contra blocked
  apply changed
  rw [confirmHallOrders, orders_mapHall _ _ _ hall]
  exact congrArg Prod.fst (if_pos (.inl (Bool.eq_false_iff.2 blocked)))

/-- `ConfirmHallOrders` on a request: it stays, or the elevator with the least cost gets it. -/
theorem confirmHallOrders_cases {p : Peers kFloors} (now : StepClock kFloors) {f : Fin kFloors}
    {b : BtnType} (hall : b ≠ .cab) (requested : (p.orders f b).status = .requested) {best : Int × Fin kElevs}
    {others : List (Int × Fin kElevs)} (costs : p.calculateElevatorCosts f = best :: others) :
    (p.observedByAll f b = false ∨ best.1 = intMax) ∧
        (p.confirmHallOrders now).cell (f, b) = p.cell (f, b) ∨
      p.observedByAll f b = true ∧ best.1 ≠ intMax ∧ (p.confirmHallOrders now).cell (f, b) =
        ((p.orders f b).onConfirm best.2.val,
          if best.2 = p.nodeId then .start (now (.confirmStart (f, b))) kReassignOrderTimeMs
          else p.orderTimers f b) := by
  obtain ⟨cost, best⟩ := best
  rw [confirmHallOrders, mapHall_cell, if_neg hall]
  dsimp only [cell]
  rw [costs, requested]
  cases ready : p.observedByAll f b with
  | false =>
    left
    simp only [true_or, ↓reduceIte, and_self]
  | true =>
    by_cases infinite : cost = intMax
    · left
      simp only [infinite, or_true, ↓reduceIte, ite_self, and_self]
    · right
      simp only [infinite, ne_eq, not_true_eq_false, Bool.true_eq_false, or_self, not_false_eq_true,
        ↓reduceIte, and_self]

/-- `ObserveOrders` on an order the node has nothing to mark in. -/
theorem cell_observeOrders {p : Peers kFloors} {f : Fin kFloors} {b : BtnType}
    (marked : (p.orders f b).status = .requested → (p.orders f b).observedBy p.nodeId = true) :
    p.observeOrders.cell (f, b) = p.cell (f, b) := by
  rw [observeOrders, mapHall_cell]
  dsimp only [cell]
  split_ifs with _ seen requested
  · rfl
  · rfl
  · exact absurd (marked requested) seen
  · rfl

/-- `ConfirmHallOrders` on an order that is not ready. -/
theorem cell_confirmHallOrders {p : Peers kFloors} {now : StepClock kFloors} {f : Fin kFloors} {b : BtnType}
    (blocked : p.observedByAll f b = false ∨ (p.orders f b).status ≠ .requested) :
    (p.confirmHallOrders now).cell (f, b) = p.cell (f, b) := by
  rw [confirmHallOrders, mapHall_cell]
  dsimp only [cell]
  split_ifs
  · rfl
  · rfl

/-- `ResetHallOrders` on an order that is not cleared. -/
theorem cell_resetHallOrders {p : Peers kFloors} {f : Fin kFloors} {b : BtnType}
    (notClear : (p.orders f b).status ≠ .clear) :
    p.resetHallOrders.cell (f, b) = p.cell (f, b) := by
  rw [resetHallOrders, mapHall_cell]
  dsimp only [cell]
  rw [Order.onReset_of_not_clear notClear, ite_self]

/-- `ResetHallOrders` touches no timer. -/
theorem orderTimers_resetHallOrders {p : Peers kFloors} {f : Fin kFloors} {b : BtnType}
    (hall : b ≠ .cab) : p.resetHallOrders.orderTimers f b = p.orderTimers f b := by
  rw [resetHallOrders, orderTimers_mapHall _ _ _ hall]

/-- An order that is not requested is left alone between `MonitorFault` and the reset. -/
theorem cell_of_not_requested {p : Peers kFloors} {f : Fin kFloors} {b : BtnType}
    (other : (p.orders f b).status ≠ .requested) (now : StepClock kFloors) :
    (p.observeOrders.confirmHallOrders now).cell (f, b) = p.cell (f, b) := by
  have observed := cell_observeOrders fun requested => absurd requested other
  have same : p.observeOrders.orders f b = p.orders f b := orders_of_cell observed
  exact (cell_confirmHallOrders (.inr (by rw [same]; exact other))).trans observed

/-- A confirmed order is left alone up to the timers. -/
theorem cell_of_confirmed {p q : Peers kFloors} {now : StepClock kFloors} {f : Fin kFloors}
    {b : BtnType} (reset : q = (p.observeOrders.confirmHallOrders now).resetHallOrders)
    (confirmed : (p.orders f b).status = .confirmed) : q.cell (f, b) = p.cell (f, b) := by
  have kept := cell_of_not_requested (by rw [confirmed]; exact nofun) now
  have same : (p.observeOrders.confirmHallOrders now).orders f b = p.orders f b := orders_of_cell kept
  rw [reset]
  exact (cell_resetHallOrders (by rw [same, confirmed]; exact nofun)).trans kept

/-- `MonitorHallOrderTimers` on an order whose timer has not run out. -/
theorem cell_monitorHallOrderTimers {p p' : Peers kFloors} {now : StepClock kFloors}
    (done : p.monitorHallOrderTimers now = some p') {f : Fin kFloors} {b : BtnType}
    (hall : b ≠ .cab) (running : (p.orderTimers f b).expired (now (.timerExpired (f, b))) = false) :
    p'.cell (f, b) = p.cell (f, b) := by
  have moved := (forHall_spec done).2.2 f b hall
  change (p.cell (f, b)).2.expired (now (.timerExpired (f, b))) = false at running
  generalize p.cell (f, b) = before at moved running
  rw [if_pos running] at moved
  exact (Option.some.inj moved).symm

/-- Control of the timers touches no order. -/
theorem orders_of_controlHallOrderTimers (p : Peers kFloors) (now : StepClock kFloors) {f : Fin kFloors}
    {b : BtnType} (hall : b ≠ .cab) : (p.controlHallOrderTimers now).orders f b = p.orders f b := by
  rw [controlHallOrderTimers, orders_mapHall _ _ _ hall]
  dsimp only
  split_ifs <;> rfl

/-- `UpdateNumElevs` touches no order. -/
theorem advances_updateNumElevs (p : Peers kFloors) : p.Advances p.updateNumElevs :=
  ⟨rfl, rfl, fun _ => rfl, fun _ => .inl rfl, fun _ _ _ => .refl⟩

/-- The passes before `MonitorHallOrderTimers` advance their node. -/
theorem advances_untilTimers {p watched faulted : Peers kFloors} {now : StepClock kFloors}
    (watch : p.updateNumElevs.monitorWatchdogTimers now = some watched)
    (fault : watched.monitorFault now = some faulted) :
    p.Advances (faulted.observeOrders.confirmHallOrders now).resetHallOrders :=
  (advances_updateNumElevs p).trans <| (advances_monitorWatchdogTimers watch).trans <|
    (advances_monitorFault fault).trans <| (advances_observeOrders _).trans <|
    (advances_confirmHallOrders _ _).trans (advances_resetHallOrders _)

/-- A step of `Peers` advances its node. -/
theorem advances_step {p p' : Peers kFloors} {now : StepClock kFloors} (done : p.step now = some p') :
    p.Advances p' := by
  obtain ⟨watched, faulted, timed, watch, fault, timers, rfl⟩ := step_cases done
  exact (advances_untilTimers watch fault).trans <|
    (advances_monitorHallOrderTimers timers).trans (advances_controlHallOrderTimers _ _)

end Peers

end CppElevator
