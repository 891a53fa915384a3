import CppElevator.Verif.Costs
import CppElevator.Verif.ReassignCalls

/-!
# A node that takes part

A node whose own elevator is active in its view, unwatched and at a known floor always has an
elevator to assign orders to, itself at the worst. No pass of a step changes its own state, so no
call of `ReassignHallOrder` aborts and the step ends.
-/
namespace CppElevator

open Library

variable {kFloors : Nat}

namespace Peers

/-- The node's own elevator is active in its view, no watchdog guards it, and its floor is known. -/
structure TakesPart (p : Peers kFloors) : Prop where
  /-- Active in the own view. -/
  active : (p.allStates p.nodeId).active = true
  /-- Not guarded: packets with the own identity are dropped. -/
  unwatched : (p.watchdogTimers p.nodeId).active = false
  /-- At a floor `SetFloor` lets through. -/
  placed : (p.allStates p.nodeId).Placed

namespace TakesPart

variable {p : Peers kFloors}

/-- What leaves the own state and the own watchdog alone. -/
theorem frame (part : p.TakesPart) {p' : Peers kFloors} (node : p'.nodeId = p.nodeId)
    (state : p'.allStates p.nodeId = p.allStates p.nodeId)
    (watchdog : p'.watchdogTimers p.nodeId = p.watchdogTimers p.nodeId) : p'.TakesPart := by
  refine ⟨?_, ?_, ?_⟩
  · rw [node, state]
    exact part.active
  · rw [node, watchdog]
    exact part.unwatched
  · rw [node, state]
    exact part.placed

/-- A pass over the cells. -/
theorem withCells (part : p.TakesPart) {p' : Peers kFloors} (outside : p' = p.withCells p'.cell) :
    p'.TakesPart := by
  rw [outside]
  exact part.frame rfl rfl rfl

/-- An expired watchdog guards another elevator. -/
theorem apart_of_expired (part : p.TakesPart) {now : Nat} {e : Fin kElevs}
    (expired : (p.watchdogTimers e).expired now = true) : p.nodeId ≠ e := by
  rintro rfl
  exact Bool.false_ne_true (part.unwatched.symm.trans (Timer.active_of_expired expired))

/-- Taking another elevator out of the view. -/
theorem silenced (part : p.TakesPart) {e : Fin kElevs} (apart : p.nodeId ≠ e) :
    (p.silenced e).TakesPart :=
  part.frame rfl (silenced_allStates apart) (Function.update_of_ne apart _ _)

/-- An iteration of `MonitorWatchdogTimers`. -/
theorem monitorWatchdogTimer (part : p.TakesPart) {p' : Peers kFloors} {now : StepClock kFloors}
    {e : Fin kElevs} (pass : p.monitorWatchdogTimer now e = some p') : p'.TakesPart :=
  (monitor_watchdogs now).keeps TakesPart pass part fun expired called =>
    (part.silenced (part.apart_of_expired expired)).withCells (forHall_spec called).1

/-- An iteration of `MonitorFault`. -/
theorem monitorFaultOf (part : p.TakesPart) {p' : Peers kFloors} {now : StepClock kFloors} {e : Fin kElevs}
    (pass : p.monitorFaultOf now e = some p') : p'.TakesPart :=
  (monitor_faults now).keeps TakesPart pass part fun _ called => part.withCells (forHall_spec called).1

/-- `UpdateNumElevs`. -/
theorem updateNumElevs (part : p.TakesPart) : p.updateNumElevs.TakesPart :=
  part.frame rfl rfl rfl

/-- `MonitorWatchdogTimers`, and every iteration it has reached. -/
theorem watched (part : p.TakesPart) {q : Peers kFloors} {now : StepClock kFloors}
    {elevs : List (Fin kElevs)}
    (reached : elevs.foldlM (Peers.monitorWatchdogTimer now) p = some q) : q.TakesPart :=
  invariant_of_foldlM TakesPart (fun pass part => part.monitorWatchdogTimer pass) reached part

/-- `MonitorFault`, and every iteration it has reached. -/
theorem faulted (part : p.TakesPart) {q : Peers kFloors} {now : StepClock kFloors}
    {elevs : List (Fin kElevs)}
    (reached : elevs.foldlM (Peers.monitorFaultOf now) p = some q) : q.TakesPart :=
  invariant_of_foldlM TakesPart (fun pass part => part.monitorFaultOf pass) reached part

/-- The passes between `MonitorFault` and `MonitorHallOrderTimers`. -/
theorem confirmed (part : p.TakesPart) (now : StepClock kFloors) :
    (p.observeOrders.confirmHallOrders now).resetHallOrders.TakesPart := part.frame rfl rfl rfl

/-- A node that takes part finds an elevator for every order. -/
theorem newAssignee_total (part : p.TakesPart) (fits : CostsFit kFloors) (floor : Fin kFloors)
    (prev : Fin kElevs) : ∃ e, p.newAssignee floor prev = some e := by
  unfold newAssignee
  dsimp only
  by_cases unusable : (p.allStates prev).usable = false
  · rw [if_pos unusable]
    cases picked : (p.calculateElevatorCosts floor).find?
        fun c => decide (c.2 ≠ prev ∧ c.1 ≠ intMax) with
    | some c => exact ⟨c.2, rfl⟩
    | none =>
      -- nobody but the previous assignee is active, so it is the node itself
      have self : p.nodeId = prev := by
        by_contra other
        have passed := List.find?_eq_none.1 picked _ (p.mem_calculateElevatorCosts floor p.nodeId)
        have finite := (elevatorCost_lt fits part.active part.placed floor).ne
        simp [other, finite] at passed
      subst self
      exact ⟨p.nodeId, if_pos part.active⟩
  · rw [if_neg unusable]
    exact ⟨_, rfl⟩

/-- A node that takes part never aborts a reassignment. -/
theorem reassignHallOrder_total (part : p.TakesPart) (fits : CostsFit kFloors) (floor : Fin kFloors)
    {o : Order} (range : 0 ≤ o.assignedId ∧ o.assignedId < kElevs) :
    ∃ o', p.reassignHallOrder floor o = some o' := by
  unfold reassignHallOrder
  rw [dif_pos range]
  dsimp only
  split_ifs with single
  · exact ⟨_, rfl⟩
  · obtain ⟨e, found⟩ := part.newAssignee_total fits floor _
    exact ⟨_, Option.map_eq_some_iff.2 ⟨e, found, rfl⟩⟩

/-- The node takes part at every call of `ReassignHallOrder`. -/
theorem caller (part : p.TakesPart) {q caller : Peers kFloors} {now : StepClock kFloors}
    {result : Option (Peers kFloors)} {calls : Fin kFloors → BtnType → Prop}
    (pass : p.MonitorPass now q caller result calls) {f : Fin kFloors} {b : BtnType}
    (called : calls f b) : caller.TakesPart := by
  cases pass with
  | watchdog _ reached =>
    have here := part.updateNumElevs.watched reached
    exact here.silenced (here.apart_of_expired called.1)
  | fault watch _ reached => exact (part.updateNumElevs.watched watch).faulted reached
  | timers reached =>
    obtain ⟨watched, faulted, watch, fault, rfl⟩ := beforeTimers_cases reached
    exact ((part.updateNumElevs.watched watch).faulted fault).confirmed now

/-- A step of a node that takes part ends, when its hall orders are assigned. -/
theorem step_total (part : p.TakesPart) (fits : CostsFit kFloors) (assigned : p.HallAssigned)
    (now : StepClock kFloors) : ∃ p', p.step now = some p' :=
  Peers.step_total fun _ _ _ _ pass f _ called =>
    (part.caller pass called).reassignHallOrder_total fits f (pass.assignedId_range assigned called)

/-- A step leaves its node taking part. -/
theorem step (part : p.TakesPart) {p' : Peers kFloors} {now : StepClock kFloors}
    (done : p.step now = some p') : p'.TakesPart := by
  obtain ⟨watched, faulted, timed, watch, fault, timers, rfl⟩ := step_cases done
  have here := ((part.updateNumElevs.watched watch).faulted fault).confirmed now
  exact (here.withCells (forHall_spec timers).1).frame rfl rfl rfl

end TakesPart

end Peers

end CppElevator
