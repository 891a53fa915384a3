import CppElevator.Ride
import CppElevator.Verif.HallCalls
import CppElevator.Verif.NeverAborts

/-!
# A node that is alone

What a node does to which no packet comes. Nobody else is active in its view, so it confirms every order
in the step that finds the button pressed, to itself, and keeps it until it has served it.
-/
namespace CppElevator

open Library Peers

variable {kFloors : Nat}

namespace Order

variable {n : Fin kElevs} {o : Order}

/-- The order does not wait for a confirmation, and if it is confirmed, then to the elevator. -/
structure Settled (n : Fin kElevs) (o : Order) : Prop where
  /-- Not requested. -/
  settled : o.status ≠ .requested
  /-- Confirmed to nobody else. -/
  own : o.status = .confirmed → o.assignedId = n.val

/-- Clearing. -/
theorem Settled.onClear (settled : o.Settled n) : o.onClear.Settled n := by
  unfold Order.onClear
  split_ifs
  · exact ⟨nofun, nofun⟩
  · exact settled

/-- Resetting. -/
theorem Settled.onReset (settled : o.Settled n) : o.onReset.Settled n := by
  unfold Order.onReset
  split_ifs
  · exact ⟨nofun, nofun⟩
  · exact settled

/-- A press leaves the order as it was or requests it. -/
theorem own_onRequest (settled : o.Settled n)
    (confirmed : (o.onRequest n.val).status = .confirmed) : (o.onRequest n.val).assignedId = n.val := by
  unfold onRequest at confirmed ⊢
  split_ifs at confirmed ⊢
  · cases confirmed
  · exact settled.own confirmed

/-- A request is confirmed by the press itself. -/
theorem Settled.onConfirm (settled : o.Settled n) :
    ((o.onRequest n.val).onConfirm n.val).Settled n := by
  by_cases requested : (o.onRequest n.val).status = .requested
  · rw [onConfirm_of_requested _ requested]
    exact ⟨nofun, fun _ => rfl⟩
  · unfold Order.onConfirm
    rw [if_neg requested]
    exact ⟨requested, own_onRequest settled⟩

end Order

namespace Peers

variable {p : Peers kFloors}

/-- No other elevator is active in the view, and every order is settled. -/
structure Lone (p : Peers kFloors) : Prop where
  /-- The others. -/
  alone : ∀ e, e ≠ p.nodeId → (p.allStates e).active = false
  /-- The orders. -/
  orders : ∀ f b, (p.orders f b).Settled p.nodeId

/-- A new process is alone. -/
theorem lone_fresh (i : Fin kElevs) : ({ nodeId := i } : Peers kFloors).Lone :=
  ⟨fun _ _ => rfl, fun _ _ => ⟨nofun, nofun⟩⟩

/-- Publishing the own state. -/
theorem Lone.copyOwnState (lone : p.Lone) (own : ElevatorState kFloors) : (p.copyOwnState own).Lone := by
  refine ⟨fun e other => ?_, lone.orders⟩
  have elsewhere : e ≠ p.nodeId := other
  simp only [Peers.copyOwnState, Function.update_of_ne elsewhere]
  exact lone.alone e other

/-- Clearing orders. -/
theorem Lone.clearOrders (lone : p.Lone) (floor : Fin kFloors) (b2c : ButtonFlags) :
    (p.clearOrders floor b2c).Lone := by
  refine ⟨lone.alone, fun f b => ?_⟩
  have settled := lone.orders f b
  simp only [Peers.clearOrders]
  split_ifs
  · exact settled.onClear.onReset
  · exact settled.onClear
  · exact settled
  · exact settled

/-- Presses leave no other elevator in charge of a confirmed order, and cab orders settled. -/
theorem Lone.syncButtonSignals (lone : p.Lone) (signals : BoolTable kFloors) (f : Fin kFloors)
    (b : BtnType) :
    (((p.syncButtonSignals signals).orders f b).status = .confirmed →
      ((p.syncButtonSignals signals).orders f b).assignedId = p.nodeId.val) ∧
    (b = .cab → ((p.syncButtonSignals signals).orders f b).Settled p.nodeId) := by
  have settled := lone.orders f b
  simp only [Peers.syncButtonSignals]
  split_ifs with new cab
  · exact ⟨settled.onConfirm.own, fun _ => settled.onConfirm⟩
  · exact ⟨Order.own_onRequest settled, fun isCab => absurd isCab cab⟩
  · exact ⟨settled.own, fun _ => settled⟩

/-- A step of a node that takes part and is alone settles every hall order. -/
theorem settled_step (fits : CostsFit kFloors) {p' : Peers kFloors} {now : StepClock kFloors}
    (part : p.TakesPart) (watching : p.Watching) (alone : ∀ e, e ≠ p.nodeId → (p.allStates e).active = false)
    (own : ∀ f b, b ≠ .cab → (p.orders f b).status = .confirmed → (p.orders f b).assignedId = p.nodeId.val)
    (done : p.step now = some p') :
    (∀ e, e ≠ p'.nodeId → (p'.allStates e).active = false) ∧
      ∀ f b, b ≠ .cab → (p'.orders f b).Settled p'.nodeId := by
  have advances := advances_step done
  have alone' : ∀ e, e ≠ p'.nodeId → (p'.allStates e).active = false := by
    intro e other
    rw [advances.nodeId] at other
    rcases advances.states e with same | timedOut
    · rw [same]
      exact alone e other
    · rw [timedOut]
      rfl
  have self {e : Fin kElevs} (active : (p'.allStates e).active = true) : e = p'.nodeId := by
    by_contra other
    exact Bool.false_ne_true ((alone' e other).symm.trans active)
  have live : p.Live := fun f b hall confirmed => ⟨p.nodeId, own f b hall confirmed, part.active⟩
  refine ⟨alone', fun f b hall => ⟨fun requested => ?_, fun confirmed => ?_⟩⟩
  · -- a request would wait for somebody else
    obtain ⟨observed, e, active, unseen⟩ := (part.normalForm fits done hall).awaited requested
    rw [self active, observed] at unseen
    cases unseen
  · obtain ⟨e, assigned, active⟩ := live.step watching part.active done f b hall confirmed
    rw [assigned, self active]

end Peers

namespace ElevatorNode

variable {i : Fin kElevs} {n q n' : ElevatorNode kFloors} {input : NodeInput kFloors}

/-- The locked section of a step leaves the node alone. -/
theorem lone_of_sync {now : StepClock kFloors} {signals : Signals kFloors} (fits : CostsFit kFloors)
    (ready : n.Ready Dispatches i) (lone : n.peers.Lone) (synced : n.sync now signals = some q) :
    q.peers.Lone := by
  have serving := ready.synced Dispatches.rule signals
  rw [sync_eq] at synced
  obtain ⟨peers, stepped, rfl⟩ := Option.map_eq_some_iff.1 synced
  have pressed (f : Fin kFloors) (b : BtnType) := lone.syncButtonSignals
    (fun f b => pressed (signals.buttons f b) (n.drive.elev.orderButtons f b)) f b
  have alone : ∀ e, e ≠ (n.synced signals).peers.nodeId →
      ((n.synced signals).peers.allStates e).active = false := by
    intro e other
    have elsewhere : e ≠ n.peers.nodeId := other
    have view : (n.synced signals).peers.allStates e = n.peers.allStates e :=
      Function.update_of_ne elsewhere _ _
    rw [view]
    exact lone.alone e elsewhere
  obtain ⟨alone', hall⟩ := settled_step fits serving.serves.takesPart serving.holds.watching alone
    (fun f b _ => (pressed f b).1) stepped
  refine ⟨alone', fun f b => ?_⟩
  by_cases cab : b = .cab
  · subst cab
    have advances := advances_step stepped
    change (peers.orders f .cab).Settled peers.nodeId
    rw [advances.cab f, advances.nodeId]
    exact (pressed f .cab).2 rfl
  · exact hall f b cab

/-- An event leaves the node alone. -/
theorem lone_of_handleEvent {now : Nat} {floorSensor : Int} (serving : q.Serving Dispatches i)
    (lone : q.peers.Lone) (handled : q.handleEvent now floorSensor = some n') : n'.peers.Lone := by
  obtain ⟨-, same | ⟨floor, own, b2c, -, cleared⟩⟩ :=
    handleEvent_cases handled serving.sited.1 ⟨_, toNat_lt serving.sited.2⟩
  · rwa [same]
  · rw [cleared]
    exact (lone.clearOrders floor b2c).copyOwnState own

/-- Without packets a turn looks for an event right after the locked section. -/
theorem due_of_silent (silent : input.Silent) : n.due input = n.sync input.locked input.signals := by
  unfold due beforeEvent
  rw [silent.1, silent.2]
  exact Option.map_id'

/-- A node can take every turn at which no packet comes. -/
theorem turn_possible (fits : CostsFit kFloors) (ready : n.Ready Dispatches i) (silent : input.Silent) :
    ∃ n', n.turn input = some n' := by
  obtain ⟨peers, stepped⟩ :=
    (ready.synced Dispatches.rule input.signals).step_total fits input.locked
  obtain ⟨q, synced⟩ : ∃ q, n.sync input.locked input.signals = some q :=
    ⟨_, by rw [sync_eq, stepped, Option.map_some]⟩
  obtain ⟨n', handled, -⟩ :=
    handleEvent_total (sendable_of_sync ready.sited.2 synced) input.now input.stopSensor
  exact ⟨n', Option.bind_eq_some_iff.2 ⟨q, (due_of_silent silent).trans synced, handled⟩⟩

/-- A node that is ready, and to which no packet has come. -/
structure Alone (i : Fin kElevs) (n : ElevatorNode kFloors) : Prop where
  /-- The node can take another turn. -/
  ready : n.Ready Dispatches i
  /-- Nobody else is active in its view. -/
  lone : n.peers.Lone

/-- A node that has just been initialised is alone. -/
theorem alone_init (i : Fin kElevs) {initial : Signals kFloors} (atFloor : initial.AtFloor) :
    (init i initial).Alone i := ⟨ready_init Dispatches.rule i atFloor, lone_fresh i⟩

/-- It stays alone as long as no packet comes. -/
theorem Alone.turn (alone : n.Alone i) (fits : CostsFit kFloors) (silent : input.Silent)
    (turned : n.turn input = some n') : n'.Alone i := by
  obtain ⟨q, due, handled⟩ := turn_cases turned
  have synced := (due_of_silent silent).symm.trans due
  have serving := alone.ready.sync Dispatches.rule synced
  exact ⟨(serving.handleEvent Dispatches.rule handled).ready,
    lone_of_handleEvent serving (lone_of_sync fits alone.ready alone.lone synced) handled⟩

/-- A turn without packets at which no button is newly pressed looks at the orders confirmed to the node,
and confirms no more of them before it looks for an event. -/
theorem Alone.requests_of_due (alone : n.Alone i) (silent : input.Silent)
    (released : ∀ f b, pressed (input.signals.buttons f b) (n.drive.elev.orderButtons f b) = false)
    (due : n.due input = some q) :
    q.drive.controller.requests = n.peers.orders.toBoolTable n.peers.nodeId.val ∧
      q.peers.orders.toBoolTable q.peers.nodeId.val ≤ q.drive.controller.requests := by
  have synced := (due_of_silent silent).symm.trans due
  have hall (f : Fin kFloors) (b : BtnType) (notCab : b ≠ .cab)
      (confirmed : (q.peers.orders f b).status = .confirmed) :
      n.peers.orders.toBoolTable n.peers.nodeId.val f b = true := by
    have path := n.order_of_sync synced f notCab
    rw [released, if_neg Bool.false_ne_true] at path
    have settled := alone.lone.orders f b
    have before := ((Order.called_path path).1 (.inr confirmed)).resolve_left settled.settled
    simp [OrderTable.toBoolTable, before, settled.own before]
  have same : (n.synced input.signals).peers.orders = n.peers.orders := by
    funext f b
    exact if_neg (Bool.eq_false_iff.1 (released f b))
  have requests : (n.synced input.signals).drive.controller.requests =
      n.peers.orders.toBoolTable n.peers.nodeId.val := by
    rw [← same]
    rfl
  rw [sync_eq] at synced
  obtain ⟨peers, stepped, rfl⟩ := Option.map_eq_some_iff.1 synced
  have advances := advances_step stepped
  refine ⟨requests, fun f b => ?_⟩
  change peers.orders.toBoolTable peers.nodeId.val f b ≤
    (n.synced input.signals).drive.controller.requests f b
  rw [requests]
  by_cases cab : b = .cab
  · subst cab
    rw [advances.nodeId]
    unfold OrderTable.toBoolTable
    rw [advances.cab f, same]
    exact le_rfl
  · refine Bool.le_iff_imp.2 fun confirmed => hall f b cab ?_
    exact of_decide_eq_true (Bool.and_eq_true_iff.1 confirmed).1

end ElevatorNode

end CppElevator
