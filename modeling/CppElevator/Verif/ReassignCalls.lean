import CppElevator.Verif.LiveAssignees
import CppElevator.Verif.OrderRules

/-!
# The calls of `ReassignHallOrder` in a step

`Peers::Step` ends the process only inside `ReassignHallOrder`: the function asserts that the
previous assignee is an elevator, and aborts when it finds no elevator to go to. Three monitors
call it. `MonitorPass` names their passes over the hall orders, as they follow one another in the
step, with the orders each hands to the function. A pass leaves every other order as it is, and a
step whose calls all succeed, succeeds.
-/
namespace CppElevator

open Library

variable {kFloors : Nat}

namespace Order

/-- A confirmed order is assigned to an elevator. -/
def Assigned (o : Order) : Prop :=
  o.status = .confirmed → 0 ≤ o.assignedId ∧ o.assignedId < kElevs

/-- A confirmation names an elevator. -/
theorem assigned_of_elev {o : Order} {e : Fin kElevs} (assigned : o.assignedId = e.val) :
    o.Assigned := by
  intro _
  have bound := e.isLt
  omega

/-- An order that is not confirmed needs no assignee. -/
theorem assigned_of_status {o : Order} (other : o.status ≠ .confirmed) : o.Assigned :=
  fun confirmed => absurd confirmed other

/-- Every local transition of an order keeps it assigned: it leaves the order unconfirmed, or
confirms or reassigns it to an elevator of the cluster. -/
theorem assigned_rule : OrderRule Assigned where
  observe _ assigned := assigned
  onRequest {o} e assigned := by
    by_cases open_ : o.status = .none ∨ o.status = .clear
    · rw [onRequest_of_open e.val open_]
      exact assigned_of_status (by simp)
    · rwa [onRequest_of_underway e.val open_]
  onConfirm {o} e assigned := by
    by_cases requested : o.status = .requested
    · rw [onConfirm_of_requested _ requested]
      exact assigned_of_elev rfl
    · have same : o.onConfirm e.val = o := if_neg requested
      rwa [same]
  onClear {o} _ := assigned_of_status o.onClear_status_ne
  onReset {o} assigned := by
    by_cases clear : o.status = .clear
    · rw [onReset_of_clear clear]
      exact assigned_of_status (by simp)
    · rwa [onReset_of_not_clear clear]
  onReassignment _ _ := assigned_of_elev rfl

end Order

namespace Peers

/-- Every confirmed hall order is assigned to an elevator. -/
def HallAssigned (p : Peers kFloors) : Prop := ∀ f b, b ≠ .cab → (p.orders f b).Assigned

/-- The passes of a step keep the hall orders assigned. -/
theorem HallAssigned.advances {p p' : Peers kFloors} (assigned : p.HallAssigned)
    (advances : p.Advances p') : p'.HallAssigned :=
  fun f b hall => Order.assigned_rule.path (advances.hall f b hall) (assigned f b hall)

/-- The node as `MonitorHallOrderTimers` finds it in a step. -/
def beforeTimers (p : Peers kFloors) (now : StepClock kFloors) : Option (Peers kFloors) := do
  let p := p.updateNumElevs
  let p ← p.monitorWatchdogTimers now
  let p ← p.monitorFault now
  some (p.observeOrders.confirmHallOrders now).resetHallOrders

/-- The passes before `MonitorHallOrderTimers`, one after another. -/
theorem beforeTimers_cases {p q : Peers kFloors} {now : StepClock kFloors}
    (reached : p.beforeTimers now = some q) :
    ∃ watched faulted, p.updateNumElevs.monitorWatchdogTimers now = some watched ∧
      watched.monitorFault now = some faulted ∧
      q = (faulted.observeOrders.confirmHallOrders now).resetHallOrders := by
  unfold beforeTimers at reached
  obtain ⟨watched, watch, reached⟩ := Option.bind_eq_some_iff.1 reached
  obtain ⟨faulted, fault, reached⟩ := Option.bind_eq_some_iff.1 reached
  exact ⟨watched, faulted, watch, fault, (Option.some.inj reached).symm⟩

/-- The node `MonitorHallOrderTimers` finds, from the passes before it. -/
theorem beforeTimers_eq {p watched faulted : Peers kFloors} {now : StepClock kFloors}
    (watch : p.updateNumElevs.monitorWatchdogTimers now = some watched)
    (fault : watched.monitorFault now = some faulted) : p.beforeTimers now =
      some (faulted.observeOrders.confirmHallOrders now).resetHallOrders := by
  simp only [beforeTimers, watch, Option.bind_eq_bind, Option.bind_some, fault]

/-- The passes over the hall orders in a step of `p` that call `ReassignHallOrder`: the node a pass
finds, the node its calls find, what the pass does, and the orders it calls for. The passes before it
have succeeded. -/
inductive MonitorPass (p : Peers kFloors) (now : StepClock kFloors) : Peers kFloors → Peers kFloors →
    Option (Peers kFloors) → (Fin kFloors → BtnType → Prop) → Prop where
  /-- An iteration of `MonitorWatchdogTimers` takes a silent elevator out of the view first. -/
  | watchdog {q : Peers kFloors} {earlier later : List (Fin kElevs)} {e : Fin kElevs}
      (visited : List.finRange kElevs = earlier ++ e :: later)
      (reached : earlier.foldlM (monitorWatchdogTimer now) p.updateNumElevs = some q) :
      MonitorPass p now q (q.silenced e) (q.monitorWatchdogTimer now e) fun f b =>
        watchdogDue now q e = true ∧ b ≠ .cab ∧
          (q.orders f b).status = .confirmed ∧ (q.orders f b).assignedId = e.val
  /-- An iteration of `MonitorFault`. -/
  | fault {watched q : Peers kFloors} {earlier later : List (Fin kElevs)} {e : Fin kElevs}
      (watch : p.updateNumElevs.monitorWatchdogTimers now = some watched)
      (visited : List.finRange kElevs = earlier ++ e :: later)
      (reached : earlier.foldlM (monitorFaultOf now) watched = some q) :
      MonitorPass p now q q (q.monitorFaultOf now e) fun f b =>
        faultDue q e = true ∧ b ≠ .cab ∧
          (q.orders f b).status = .confirmed ∧ (q.orders f b).assignedId = e.val
  /-- `MonitorHallOrderTimers`. -/
  | timers {q : Peers kFloors} (reached : p.beforeTimers now = some q) :
      MonitorPass p now q q (q.monitorHallOrderTimers now) fun f b =>
        (q.orderTimers f b).expired (now (.timerExpired (f, b))) = true ∧ b ≠ .cab ∧
          (q.orders f b).status = .confirmed

/-- `MonitorHallOrderTimers` on one order: a call for a confirmed order whose timer has run out, or
nothing. -/
theorem monitorHallOrderTimers_cases {q q' : Peers kFloors} {now : StepClock kFloors}
    (done : q.monitorHallOrderTimers now = some q') {f : Fin kFloors} {b : BtnType} (hall : b ≠ .cab) :
    q'.orders f b = q.orders f b ∧
        ¬((q.orderTimers f b).expired (now (.timerExpired (f, b))) = true ∧
          (q.orders f b).status = .confirmed) ∨
      ((q.orderTimers f b).expired (now (.timerExpired (f, b))) = true ∧
          (q.orders f b).status = .confirmed) ∧
        q.reassignCell (now (.timerStart (f, b))) f (q.orders f b, (q.orderTimers f b).stop) =
          some (q'.cell (f, b)) := by
  have moved := (forHall_spec done).2.2 f b hall
  change (q'.cell (f, b)).1 = (q.cell (f, b)).1 ∧
      ¬((q.cell (f, b)).2.expired (now (.timerExpired (f, b))) = true ∧
        (q.cell (f, b)).1.status = .confirmed) ∨
    ((q.cell (f, b)).2.expired (now (.timerExpired (f, b))) = true ∧
        (q.cell (f, b)).1.status = .confirmed) ∧
      q.reassignCell (now (.timerStart (f, b))) f ((q.cell (f, b)).1, (q.cell (f, b)).2.stop) =
        some (q'.cell (f, b))
  generalize q.cell (f, b) = before at moved
  split_ifs at moved with running other
  · left
    rw [← Option.some.inj moved, running]
    exact ⟨rfl, fun out => Bool.false_ne_true out.1⟩
  · left
    rw [← Option.some.inj moved]
    exact ⟨rfl, fun out => other out.2⟩
  · exact .inr ⟨⟨Bool.of_not_eq_false running, not_not.1 other⟩, moved⟩

namespace MonitorPass

variable {p q q' caller : Peers kFloors} {now : StepClock kFloors} {result : Option (Peers kFloors)}
  {calls : Fin kFloors → BtnType → Prop} {f : Fin kFloors} {b : BtnType}

/-- A pass calls for confirmed hall orders. -/
theorem confirmed (pass : p.MonitorPass now q caller result calls) (called : calls f b) :
    b ≠ .cab ∧ (q.orders f b).status = .confirmed := by
  cases pass with
  | watchdog _ _ => exact ⟨called.2.1, called.2.2.1⟩
  | fault _ _ _ => exact ⟨called.2.1, called.2.2.1⟩
  | timers _ => exact called.2

/-- The passes before one of the monitors. -/
theorem advances (pass : p.MonitorPass now q caller result calls) : p.Advances q := by
  cases pass with
  | watchdog _ reached =>
    exact (advances_updateNumElevs p).trans (advances_foldlM advances_monitorWatchdogTimer reached)
  | fault watch _ reached =>
    exact (advances_updateNumElevs p).trans <| (advances_monitorWatchdogTimers watch).trans
      (advances_foldlM advances_monitorFaultOf reached)
  | timers reached =>
    obtain ⟨watched, faulted, watch, fault, rfl⟩ := beforeTimers_cases reached
    exact advances_untilTimers watch fault

/-- The assertion in `ReassignHallOrder` holds at every call, when the hall orders are assigned. -/
theorem assignedId_range (pass : p.MonitorPass now q caller result calls)
    (assigned : p.HallAssigned) (called : calls f b) :
    0 ≤ (q.orders f b).assignedId ∧ (q.orders f b).assignedId < kElevs := by
  obtain ⟨hall, confirmed⟩ := pass.confirmed called
  exact assigned.advances pass.advances f b hall confirmed

/-- A pass leaves in a cell what a call made of its order, if it made one, and the old order if it
did not. -/
theorem cells (pass : p.MonitorPass now q caller result calls) (done : result = some q')
    (f : Fin kFloors) (b : BtnType) :
    calls f b ∧ caller.reassignHallOrder f (q.orders f b) = some (q'.orders f b) ∨
      ¬calls f b ∧ q'.orders f b = q.orders f b := by
  by_cases hall : b = .cab
  · subst hall
    right
    cases pass with
    | watchdog _ _ =>
      exact ⟨fun called => called.2.1 rfl, (advances_monitorWatchdogTimer done).cab f⟩
    | fault _ _ _ => exact ⟨fun called => called.2.1 rfl, (advances_monitorFaultOf done).cab f⟩
    | timers _ => exact ⟨fun called => called.2.1 rfl, (advances_monitorHallOrderTimers done).cab f⟩
  cases pass with
  | watchdog _ _ =>
    rcases (monitor_watchdogs now).cases done hall with ⟨kept, other⟩ | ⟨named, called⟩
    · exact .inr ⟨fun due => other ⟨due.1, due.2.2⟩, orders_of_cell kept⟩
    · exact .inl ⟨⟨named.1, hall, named.2⟩, (reassignCell_cases called).1⟩
  | fault _ _ _ =>
    rcases (monitor_faults now).cases done hall with ⟨kept, other⟩ | ⟨named, called⟩
    · exact .inr ⟨fun due => other ⟨due.1, due.2.2⟩, orders_of_cell kept⟩
    · exact .inl ⟨⟨named.1, hall, named.2⟩, (reassignCell_cases called).1⟩
  | timers _ =>
    rcases monitorHallOrderTimers_cases done hall with ⟨kept, other⟩ | ⟨out, called⟩
    · exact .inr ⟨fun due => other ⟨due.1, due.2.2⟩, kept⟩
    · exact .inl ⟨⟨out.1, hall, out.2⟩, (reassignCell_cases called).1⟩

end MonitorPass

/-- A pass succeeds when its body succeeds on every hall cell. -/
theorem forHall_total {p : Peers kFloors}
    {body : Fin kFloors × BtnType → Order × Timer → Option (Order × Timer)}
    (succeeds : ∀ f b, b ≠ .cab → ∃ cell, body (f, b) (p.cell (f, b)) = some cell) :
    ∃ p', p.forHall body = some p' := by
  obtain ⟨cells, looped⟩ := loopCells_total hallCells_nodup fun key member =>
    succeeds key.1 key.2 (mem_hallCells.1 member)
  exact ⟨p.withCells cells, by rw [forHall, looped]; rfl⟩

/-- `ReassignHallOrders` succeeds when its calls do. -/
theorem reassignHallOrders_total {p : Peers kFloors} {now : Fin kFloors × BtnType → Nat}
    {e : Fin kElevs} (calls : ∀ f b, b ≠ .cab → (p.orders f b).status = .confirmed →
      (p.orders f b).assignedId = e.val → ∃ o, p.reassignHallOrder f (p.orders f b) = some o) :
    ∃ p', p.reassignHallOrders now e = some p' := by
  refine forHall_total fun f b hall => ?_
  dsimp only [cell]
  split_ifs with other elsewhere
  · exact ⟨_, rfl⟩
  · exact ⟨_, rfl⟩
  · obtain ⟨o, reassigned⟩ := calls f b hall (not_not.1 other) (not_not.1 elsewhere)
    exact ⟨_, Option.map_eq_some_iff.2 ⟨o, reassigned, rfl⟩⟩

/-- A pass succeeds when its calls of `ReassignHallOrder` do. -/
theorem MonitorPass.total {p q caller : Peers kFloors} {now : StepClock kFloors}
    {result : Option (Peers kFloors)} {calls : Fin kFloors → BtnType → Prop}
    (pass : p.MonitorPass now q caller result calls)
    (succeed : ∀ f b, calls f b → ∃ o, caller.reassignHallOrder f (q.orders f b) = some o) :
    ∃ q', result = some q' := by
  cases pass with
  | @watchdog _ _ _ e _ _ =>
    unfold monitorWatchdogTimer
    split_ifs with expired
    · exact reassignHallOrders_total fun f b hall confirmed assigned =>
        succeed f b ⟨expired, hall, confirmed, assigned⟩
    · exact ⟨q, rfl⟩
  | @fault _ _ _ _ e _ _ _ =>
    unfold monitorFaultOf
    split_ifs with faulty
    · exact reassignHallOrders_total fun f b hall confirmed assigned =>
        succeed f b ⟨faulty, hall, confirmed, assigned⟩
    · exact ⟨q, rfl⟩
  | timers _ =>
    refine forHall_total fun f b hall => ?_
    dsimp only [cell]
    split_ifs with running other
    · exact ⟨_, rfl⟩
    · exact ⟨_, rfl⟩
    · obtain ⟨o, reassigned⟩ := succeed f b ⟨Bool.of_not_eq_false running, hall, not_not.1 other⟩
      exact ⟨_, Option.map_eq_some_iff.2 ⟨o, reassigned, rfl⟩⟩

/-- A step succeeds when its calls of `ReassignHallOrder` do. -/
theorem step_total {p : Peers kFloors} {now : StepClock kFloors}
    (succeed : ∀ q caller result calls, p.MonitorPass now q caller result calls → ∀ f b, calls f b →
      ∃ o, caller.reassignHallOrder f (q.orders f b) = some o) : ∃ p', p.step now = some p' := by
  obtain ⟨watched, watch⟩ : ∃ q, p.updateNumElevs.monitorWatchdogTimers now = some q :=
    foldlM_total fun _ _ _ _ visited reached =>
      (MonitorPass.watchdog visited reached).total (succeed _ _ _ _ (.watchdog visited reached))
  obtain ⟨faulted, fault⟩ : ∃ q, watched.monitorFault now = some q :=
    foldlM_total fun _ _ _ _ visited reached =>
      (MonitorPass.fault watch visited reached).total (succeed _ _ _ _ (.fault watch visited reached))
  have reached := beforeTimers_eq watch fault
  obtain ⟨timed, timers⟩ := (MonitorPass.timers reached).total (succeed _ _ _ _ (.timers reached))
  refine ⟨timed.controlHallOrderTimers now, ?_⟩
  simp only [step, watch, Option.bind_eq_bind, Option.bind_some, fault, timers]

/-- A pass of a step finds an order as the step found it, and calls for it. -/
def CalledFor (p : Peers kFloors) (now : StepClock kFloors) (f : Fin kFloors) (b : BtnType) : Prop :=
  ∃ q caller result calls, p.MonitorPass now q caller result calls ∧ calls f b ∧
    q.orders f b = p.orders f b

/-- A pass keeps an order unless it calls for it. -/
theorem MonitorPass.kept {p q q' caller : Peers kFloors} {now : StepClock kFloors}
    {result : Option (Peers kFloors)} {calls : Fin kFloors → BtnType → Prop} {f : Fin kFloors}
    {b : BtnType} (pass : p.MonitorPass now q caller result calls) (done : result = some q')
    (before : q.orders f b = p.orders f b ∨ p.CalledFor now f b) :
    q'.orders f b = p.orders f b ∨ p.CalledFor now f b := by
  rcases before with same | called
  · rcases pass.cells done f b with ⟨called, -⟩ | ⟨-, kept⟩
    · exact .inr ⟨_, _, _, _, pass, called, same⟩
    · exact .inl (kept.trans same)
  · exact .inr called

/-- A step changes a confirmed hall order only by calling `ReassignHallOrder` for it. -/
theorem calledFor_of_step {p p' : Peers kFloors} {now : StepClock kFloors} {f : Fin kFloors}
    {b : BtnType} (done : p.step now = some p') (hall : b ≠ .cab)
    (confirmed : (p.orders f b).status = .confirmed) :
    p'.orders f b = p.orders f b ∨ p.CalledFor now f b := by
  obtain ⟨watched, faulted, timed, watch, fault, timers, rfl⟩ := step_cases done
  have first : watched.orders f b = p.orders f b ∨ p.CalledFor now f b :=
    invariant_of_reached (fun q => q.orders f b = p.orders f b ∨ p.CalledFor now f b)
      (fun visited reached iteration before =>
        (MonitorPass.watchdog visited reached).kept iteration before) watch (.inl rfl)
  have second : faulted.orders f b = p.orders f b ∨ p.CalledFor now f b :=
    invariant_of_reached (fun q => q.orders f b = p.orders f b ∨ p.CalledFor now f b)
      (fun visited reached iteration before =>
        (MonitorPass.fault watch visited reached).kept iteration before) fault first
  rw [orders_of_controlHallOrderTimers timed now hall]
  refine (MonitorPass.timers (beforeTimers_eq watch fault)).kept timers (second.imp_left fun same => ?_)
  -- the passes between the monitors leave a confirmed order alone
  rw [← same] at confirmed ⊢
  exact orders_of_cell (cell_of_confirmed rfl confirmed)

end Peers

end CppElevator
