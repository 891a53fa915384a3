import CppElevator.Verif.ClusterCells
import CppElevator.Verif.StepNormalForm

/-!
# A step without news

A step leaves nothing to be done for the next one, as long as nothing arrives and no timer runs
out, with one exception: an order confirmed to an elevator that reports a fault is reassigned by
`MonitorFault` in every step, also when nobody else can take it.
-/
namespace CppElevator

open Library

variable {kFloors : Nat}

/-- A confirmed order can only be reassigned by the passes. -/
theorem HallPath.of_confirmed {n : Fin kElevs} {o o' : Order} (path : HallPath n o o')
    (confirmed : o.status = .confirmed) :
    o'.status = .confirmed ∧ o'.observedMask = o.observedMask := by
  induction path with
  | refl => exact ⟨confirmed, rfl⟩
  | tail _ step ih =>
    obtain ⟨before, mask⟩ := ih
    cases step with
    | observe requested => simp [before] at requested
    | confirm requested _ => simp [before] at requested
    | reset clear => simp [before] at clear
    | reassign _ _ => exact ⟨before, mask⟩

namespace Peers

/-- No watchdog and no timer of a hall order has run out. -/
def Quiet (p : Peers kFloors) (now : StepClock kFloors) : Prop :=
  (∀ e, (p.watchdogTimers e).expired (now (.watchdogExpired e)) = false) ∧
    ∀ f b, b ≠ .cab → (p.orderTimers f b).expired (now (.timerExpired (f, b))) = false

instance (p : Peers kFloors) (now : StepClock kFloors) : Decidable (p.Quiet now) :=
  inferInstanceAs (Decidable ((∀ e, (p.watchdogTimers e).expired (now (.watchdogExpired e)) = false) ∧
    ∀ f b, b ≠ .cab → (p.orderTimers f b).expired (now (.timerExpired (f, b))) = false))

/-- The order is confirmed to an active elevator that reports a fault. -/
def FaultAssigned (p : Peers kFloors) (f : Fin kFloors) (b : BtnType) : Prop :=
  (p.orders f b).status = .confirmed ∧
    ∃ e : Fin kElevs, (p.orders f b).assignedId = e.val ∧
      ((p.allStates e).active && (p.allStates e).fault) = true

variable {p p' : Peers kFloors} {now : StepClock kFloors} {f : Fin kFloors} {b : BtnType}

/-- `MonitorWatchdogTimers` with every watchdog running. -/
theorem monitorWatchdogTimers_quiet
    (running : ∀ e, (p.watchdogTimers e).expired (now (.watchdogExpired e)) = false) :
    p.monitorWatchdogTimers now = some p := by
  unfold monitorWatchdogTimers
  generalize List.finRange kElevs = elevs
  induction elevs with
  | nil => rfl
  | cons e elevs ih =>
    have skipped : p.monitorWatchdogTimer now e = some p := by
      rw [monitorWatchdogTimer, running e]
      rfl
    rw [List.foldlM_cons, skipped]
    exact ih

/-- The fallible passes of a step with every watchdog running. -/
theorem quiet_step_cases (done : p.step now = some p')
    (running : ∀ e, (p.watchdogTimers e).expired (now (.watchdogExpired e)) = false) :
    ∃ faulted timed, p.updateNumElevs.monitorFault now = some faulted ∧
      (faulted.observeOrders.confirmHallOrders now).resetHallOrders.monitorHallOrderTimers now =
        some timed ∧
      p' = timed.controlHallOrderTimers now := by
  obtain ⟨watched, faulted, timed, watch, fault, timers, last⟩ := step_cases done
  have skipped := @monitorWatchdogTimers_quiet _ p.updateNumElevs now running
  obtain rfl : p.updateNumElevs = watched := Option.some.inj (skipped.symm.trans watch)
  exact ⟨faulted, timed, fault, timers, last⟩

/-- `ReassignHallOrders` on an order of the elevator. -/
theorem version_lt_reassignHallOrders {starts : Fin kFloors × BtnType → Nat} {e : Fin kElevs}
    (done : p.reassignHallOrders starts e = some p')
    (hall : b ≠ .cab) (confirmed : (p.orders f b).status = .confirmed)
    (named : (p.orders f b).assignedId = e.val) :
    (p.orders f b).version < (p'.orders f b).version := by
  rcases reassignHallOrders_cases done hall with ⟨-, other⟩ | ⟨-, moved⟩
  · exact absurd ⟨confirmed, named⟩ other
  · exact (Nat.lt_succ_self _).trans_eq (version_reassignCell moved).symm

/-- What a node keeps about another elevator: its last known state and the watchdog. -/
abbrev regard (p : Peers kFloors) (e : Fin kElevs) : ElevatorState kFloors × Timer :=
  (p.allStates e, p.watchdogTimers e)

/-- What a watchdog that is looked at makes of it. -/
def watch (now : Nat) (regard : ElevatorState kFloors × Timer) : ElevatorState kFloors × Timer :=
  if regard.2.expired now then (regard.1.onWatchdogTimeout, regard.2.stop) else regard

/-- An iteration of `MonitorWatchdogTimers` leaves the other elevators alone. -/
theorem frame_monitorWatchdogTimer {i e : Fin kElevs}
    (pass : p.monitorWatchdogTimer now i = some p') (apart : e ≠ i) :
    p'.allStates e = p.allStates e ∧ p'.watchdogTimers e = p.watchdogTimers e := by
  refine (monitor_watchdogs now).keeps (fun q => q.allStates e = p.allStates e ∧
    q.watchdogTimers e = p.watchdogTimers e) pass ⟨rfl, rfl⟩ fun _ called => ?_
  rw [(forHall_spec called).1]
  exact ⟨Function.update_of_ne apart _ _, Function.update_of_ne apart _ _⟩

/-- It looks at one watchdog. -/
theorem regard_monitorWatchdogTimer {e : Fin kElevs} (pass : p.monitorWatchdogTimer now e = some p') :
    p'.regard e = watch (now (.watchdogExpired e)) (p.regard e) := by
  unfold monitorWatchdogTimer at pass
  unfold watch
  split_ifs at pass ⊢ with expired
  · rw [(forHall_spec pass).1]
    exact Prod.ext (Function.update_self _ _ _) (Function.update_self _ _ _)
  · rw [Option.some.inj pass]

/-- `MonitorWatchdogTimers` looks at every watchdog once. -/
theorem regard_monitorWatchdogTimers (done : p.monitorWatchdogTimers now = some p') (e : Fin kElevs) :
    p'.regard e = watch (now (.watchdogExpired e)) (p.regard e) := by
  have looked := registers_of_foldlM regard (fun i => watch (now (.watchdogExpired i))) done
    (List.nodup_finRange kElevs) regard_monitorWatchdogTimer (fun pass apart => Prod.ext
      (frame_monitorWatchdogTimer pass apart).1 (frame_monitorWatchdogTimer pass apart).2) e
  rwa [if_pos (List.mem_finRange e)] at looked

/-- It takes from the view what the watchdogs have given up, and nothing else. -/
theorem allStates_monitorWatchdogTimers (done : p.monitorWatchdogTimers now = some p')
    (e : Fin kElevs) : p'.allStates e =
      if (p.watchdogTimers e).expired (now (.watchdogExpired e)) then
        (p.allStates e).onWatchdogTimeout
      else p.allStates e := by
  have looked := congrArg Prod.fst (regard_monitorWatchdogTimers done e)
  rwa [watch, apply_ite Prod.fst] at looked

/-- An iteration of `MonitorFault` leaves the view alone. -/
theorem allStates_monitorFaultOf {e : Fin kElevs} (pass : p.monitorFaultOf now e = some p') :
    p'.allStates = p.allStates := by
  refine (monitor_faults now).keeps (fun q => q.allStates = p.allStates) pass rfl fun _ called => ?_
  rw [(forHall_spec called).1]
  rfl

/-- An iteration of `MonitorFault` on an order it does not concern. -/
theorem cell_monitorFaultOf {e : Fin kElevs} (pass : p.monitorFaultOf now e = some p')
    (hall : b ≠ .cab) (other : ((p.allStates e).active && (p.allStates e).fault) = true →
      ¬((p.orders f b).status = .confirmed ∧ (p.orders f b).assignedId = e.val)) :
    p'.cell (f, b) = p.cell (f, b) := by
  rcases (monitor_faults now).cases pass hall with ⟨kept, -⟩ | ⟨⟨faulty, named⟩, -⟩
  · exact kept
  · exact absurd named (other faulty)

/-- `MonitorFault` leaves the view alone, and the orders of sound elevators. -/
theorem monitorFault_sound (fault : p.monitorFault now = some p') :
    p'.allStates = p.allStates ∧
      ∀ f b, b ≠ .cab → ¬p.FaultAssigned f b → p'.cell (f, b) = p.cell (f, b) := by
  refine invariant_of_foldlM (fun q => q.allStates = p.allStates ∧
    ∀ f b, b ≠ .cab → ¬p.FaultAssigned f b → q.cell (f, b) = p.cell (f, b)) ?_ fault
    ⟨rfl, fun _ _ _ _ => rfl⟩
  rintro q q' e pass ⟨states, cells⟩
  refine ⟨(allStates_monitorFaultOf pass).trans states, fun f b hall sound => ?_⟩
  have here := cells f b hall sound
  rw [← here]
  refine cell_monitorFaultOf pass hall fun faulty named => sound ?_
  have order : q.orders f b = p.orders f b := orders_of_cell here
  rw [states] at faulty
  rw [order] at named
  exact ⟨named.1, e, named.2, faulty⟩

/-- The iterations of `MonitorFault` reach the order of a faulty elevator. -/
theorem version_lt_monitorFault {e : Fin kElevs} {elevs : List (Fin kElevs)} (member : e ∈ elevs)
    (fault : elevs.foldlM (monitorFaultOf now) p = some p') (hall : b ≠ .cab)
    (confirmed : (p.orders f b).status = .confirmed) (named : (p.orders f b).assignedId = e.val)
    (faulty : ((p.allStates e).active && (p.allStates e).fault) = true) :
    (p.orders f b).version < (p'.orders f b).version := by
  induction elevs generalizing p with
  | nil => exact absurd member List.not_mem_nil
  | cons first elevs ih =>
    rw [List.foldlM_cons] at fault
    obtain ⟨q, pass, rest⟩ := Option.bind_eq_some_iff.1 fault
    by_cases here : e = first
    · subst here
      rw [monitorFaultOf, if_pos faulty] at pass
      have later := advances_foldlM advances_monitorFaultOf rest
      exact (version_lt_reassignHallOrders pass hall confirmed named).trans_le
        (version_le_of_path (later.hall f b hall))
    · have states := allStates_monitorFaultOf pass
      have cell := cell_monitorFaultOf pass hall fun _ other =>
        here (Fin.ext (Int.ofNat.inj (named.symm.trans other.2)))
      have order : q.orders f b = p.orders f b := orders_of_cell cell
      rw [← order] at confirmed named ⊢
      rw [← states] at faulty
      exact ih ((List.mem_cons.1 member).resolve_left here) rest confirmed named faulty

/-- A request in normal form is not observed by all. -/
theorem NormalForm.blocked (normal : p.NormalForm f b) :
    p.observedByAll f b = false ∨ (p.orders f b).status ≠ .requested := by
  by_cases requested : (p.orders f b).status = .requested
  · obtain ⟨e, active, missing⟩ := (normal.awaited requested).missing
    refine .inl (decide_eq_false fun all => ?_)
    exact Bool.false_ne_true (missing.symm.trans (all e active))
  · exact .inr requested

/-- Without news, a step keeps every order in normal form but those of faulty elevators. -/
theorem orders_of_quiet_step (done : p.step now = some p') (quiet : p.Quiet now) (hall : b ≠ .cab)
    (normal : p.NormalForm f b) (sound : ¬p.FaultAssigned f b) : p'.orders f b = p.orders f b := by
  obtain ⟨faulted, timed, fault, timers, rfl⟩ := quiet_step_cases done quiet.1
  obtain ⟨states, cells⟩ := monitorFault_sound fault
  have node : faulted.nodeId = p.nodeId := (advances_monitorFault fault).nodeId
  have cell : faulted.cell (f, b) = p.cell (f, b) := cells f b hall sound
  have order : faulted.orders f b = p.orders f b := orders_of_cell cell
  -- the later passes find nothing to do in a cell in normal form
  have observed : faulted.observeOrders.cell (f, b) = p.cell (f, b) := by
    rw [cell_observeOrders, cell]
    rw [order, node]
    exact fun requested => (normal.awaited requested).observed
  have confirmed : (faulted.observeOrders.confirmHallOrders now).cell (f, b) = p.cell (f, b) := by
    rw [cell_confirmHallOrders, observed]
    have same : faulted.observeOrders.orders f b = p.orders f b := orders_of_cell observed
    have view : faulted.observeOrders.allStates = p.allStates := states
    rw [observedByAll, same, view]
    exact normal.blocked
  have reset : (faulted.observeOrders.confirmHallOrders now).resetHallOrders.cell (f, b) =
      p.cell (f, b) := by
    rw [cell_resetHallOrders, confirmed]
    have same : (faulted.observeOrders.confirmHallOrders now).orders f b = p.orders f b :=
      orders_of_cell confirmed
    rw [same]
    exact normal.notClear
  have timer : (faulted.observeOrders.confirmHallOrders now).resetHallOrders.orderTimers f b =
      p.orderTimers f b := orderTimers_of_cell reset
  have last := cell_monitorHallOrderTimers timers hall (by rw [timer]; exact quiet.2 f b hall)
  rw [orders_of_controlHallOrderTimers timed now hall]
  exact orders_of_cell (last.trans reset)

/-- A step reassigns every order of a faulty elevator. -/
theorem orders_of_faultAssigned (done : p.step now = some p')
    (running : ∀ e, (p.watchdogTimers e).expired (now (.watchdogExpired e)) = false) (hall : b ≠ .cab)
    (assigned : p.FaultAssigned f b) :
    (p'.orders f b).status = .confirmed ∧
      (p'.orders f b).observedMask = (p.orders f b).observedMask ∧
      (p.orders f b).version < (p'.orders f b).version := by
  obtain ⟨confirmed, e, named, faulty⟩ := assigned
  have path := (advances_step done).hall f b hall
  obtain ⟨status, mask⟩ := HallPath.of_confirmed path confirmed
  refine ⟨status, mask, ?_⟩
  obtain ⟨faulted, timed, fault, timers, rfl⟩ := quiet_step_cases done running
  have raised : (p.orders f b).version < (faulted.orders f b).version :=
    @version_lt_monitorFault _ p.updateNumElevs _ _ _ _ _ _ (List.mem_finRange e) fault hall
      confirmed named faulty
  have later := (((advances_observeOrders faulted).trans (advances_confirmHallOrders _ now)).trans
    (advances_resetHallOrders _)).trans <|
    (advances_monitorHallOrderTimers timers).trans (advances_controlHallOrderTimers _ now)
  exact raised.trans_le (version_le_of_path (later.hall f b hall))

end Peers

open Peers

/-- When nothing arrives after a step and no timer runs out, a second step ends, keeps every hall
order that is not confirmed to an active elevator with a fault, and reassigns those that are. -/
theorem second_step_orders (fits : CostsFit kFloors) {p : Peers kFloors} (part : p.TakesPart)
    (assigned : p.HallAssigned) (now : StepClock kFloors) :
    ∃ p', p.step now = some p' ∧ ∀ later, p'.Quiet later →
      ∃ p'', p'.step later = some p'' ∧ ∀ f b, b ≠ .cab →
        (¬p'.FaultAssigned f b → p''.orders f b = p'.orders f b) ∧
        (p'.FaultAssigned f b → (p''.orders f b).status = .confirmed ∧
          (p''.orders f b).observedMask = (p'.orders f b).observedMask ∧
          (p'.orders f b).version < (p''.orders f b).version) := by
  obtain ⟨p', done⟩ := part.step_total fits assigned now
  refine ⟨p', done, fun later quiet => ?_⟩
  have assigned' := assigned.advances (advances_step done)
  obtain ⟨p'', again⟩ := (part.step done).step_total fits assigned' later
  refine ⟨p'', again, fun f b hall => ⟨fun sound => ?_, fun faulty => ?_⟩⟩
  · exact orders_of_quiet_step again quiet hall (part.normalForm fits done hall) sound
  · exact orders_of_faultAssigned again quiet.1 hall faulty

/-- The hypotheses hold where an order is confirmed to another elevator. -/
theorem second_step_orders_confirmedToOther :
    ∃ p', confirmedToOther.step (.still 0) = some p' ∧ ∀ later, p'.Quiet later →
      ∃ p'', p'.step later = some p'' ∧ ∀ f b, b ≠ .cab →
        (¬p'.FaultAssigned f b → p''.orders f b = p'.orders f b) ∧
        (p'.FaultAssigned f b → (p''.orders f b).status = .confirmed ∧
          (p''.orders f b).observedMask = (p'.orders f b).observedMask ∧
          (p'.orders f b).version < (p''.orders f b).version) := by
  refine second_step_orders costsFit_config ⟨rfl, rfl, ?_⟩ ?_ (.still 0)
  · unfold ElevatorState.Placed
    decide
  · unfold HallAssigned Order.Assigned
    decide

/-- An elevator alone, with a fault, and an order confirmed to it. -/
def faultyAlone : Peers Config.kFloors where
  nodeId := 0
  allStates e := if e = 0 then { ElevatorState.idleAt 0 0 with fault := true } else {}
  orders f b := if f = 1 ∧ b = .hallUp then { assignedId := 0, status := .confirmed } else {}

/-- Its order has a new version after every step. -/
theorem second_step_reassigns : ¬∀ p : Peers Config.kFloors, p.TakesPart → p.HallAssigned →
    ∀ now p', p.step now = some p' → ∀ later, p'.Quiet later → ∀ p'', p'.step later = some p'' →
      ∀ f b, b ≠ .cab → p''.orders f b = p'.orders f b := by
  intro still
  have evaluated : (faultyAlone.step (.still 0)).any (fun p' => decide (p'.Quiet (.still 40)) &&
      (p'.step (.still 40)).any fun p'' => p''.orders 1 .hallUp ≠ p'.orders 1 .hallUp) = true := by decide
  obtain ⟨p', done, rest⟩ := (Option.any_eq_true _ _).1 evaluated
  obtain ⟨quiet, rest⟩ := Bool.and_eq_true_iff.1 rest
  obtain ⟨p'', again, changed⟩ := (Option.any_eq_true _ _).1 rest
  refine of_decide_eq_true changed (still faultyAlone ⟨rfl, rfl, ?_⟩ ?_ (.still 0) p' done (.still 40)
    (of_decide_eq_true quiet) p'' again 1 .hallUp (by decide))
  · unfold ElevatorState.Placed
    decide
  · unfold HallAssigned Order.Assigned
    decide

end CppElevator
