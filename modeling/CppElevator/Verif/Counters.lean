import CppElevator.Library.Registers
import CppElevator.OrderWord
import CppElevator.Verif.Reassignments
import CppElevator.Verif.ViewCoherence

/-!
# The counters do not wrap

The versions of orders and states are 64-bit counters in the source. Every operation raises a version
by a few at most, a merge takes one of the two versions it finds, and a launch starts over. In a run of
a fleet all versions are therefore bounded by a small multiple of the number of steps, and every
counter is read as a natural number for as long as any fleet will run.
-/
namespace CppElevator

open Library

variable {kFloors : Nat}

namespace Order

/-- A local transition raises the version by one at most. -/
theorem version_apply_le (o : Order) (op : OrderOp) (local_ : ∀ rcv, op ≠ .onUpdate rcv) :
    (o.apply op).version ≤ o.version + 1 := by
  cases op with
  | onUpdate rcv => exact absurd rfl (local_ rcv)
  | observe e => exact Nat.le_succ _
  | onReassignment e => exact le_rfl
  | onRequest | onConfirm | onClear | onReset | onRevoke =>
    simp only [apply, onRequest, onConfirm, onClear, onReset, onRevoke, observe]
    split_ifs <;> simp

/-- A merge takes one of the two versions. -/
theorem version_onUpdate_le {o rcv : Order} {bound : Nat} (own : o.version ≤ bound)
    (received : rcv.version ≤ bound) : (o.onUpdate rcv).version ≤ bound := by
  rcases onUpdate_status_version o rcv with ⟨-, same⟩ | ⟨-, same⟩
  · exact same.trans_le own
  · exact same.trans_le received

/-- Two local transitions one after the other. -/
theorem version_twice_le (o : Order) (first second : OrderOp) (one : ∀ rcv, first ≠ .onUpdate rcv)
    (two : ∀ rcv, second ≠ .onUpdate rcv) : ((o.apply first).apply second).version ≤ o.version + 2 := by
  have once := o.version_apply_le first one
  have twice := (o.apply first).version_apply_le second two
  omega

end Order

namespace Peers

variable {p p' : Peers kFloors} {now : StepClock kFloors} {f : Fin kFloors} {b : BtnType}

/-- A pass over the elevators raises a version by one for each of them at most. -/
theorem Monitor.version_le {starts : Fin kElevs → Fin kFloors × BtnType → Nat}
    {pass : Peers kFloors → Fin kElevs → Option (Peers kFloors)}
    {due : Peers kFloors → Fin kElevs → Bool} {caller : Peers kFloors → Fin kElevs → Peers kFloors}
    (monitor : Monitor starts pass due caller)
    (done : (List.finRange kElevs).foldlM pass p = some p') (hall : b ≠ .cab) :
    (p'.orders f b).version ≤ (p.orders f b).version + kElevs := by
  have bound := measure_le_of_foldlM (fun q => (q.orders f b).version) 1 ?_ done
  · simpa using bound
  · intro q q' e iteration
    rcases monitor.cases iteration hall with ⟨kept, -⟩ | ⟨-, called⟩
    · have order : q'.orders f b = q.orders f b := orders_of_cell kept
      rw [order]
      exact Nat.le_succ _
    · have raised : (q'.orders f b).version = (q.orders f b).version + 1 := version_reassignCell called
      exact raised.le

/-- A step raises the version of a hall order by a bounded amount: each elevator may be found silent
and faulty once, and the order may be confirmed, reset and reassigned. -/
theorem version_step_le (done : p.step now = some p') (hall : b ≠ .cab) :
    (p'.orders f b).version ≤ (p.orders f b).version + (2 * kElevs + 3) := by
  obtain ⟨watched, faulted, timed, watch, fault, timers, rfl⟩ := step_cases done
  have watches : (watched.orders f b).version ≤ (p.orders f b).version + kElevs :=
    @Monitor.version_le _ p.updateNumElevs _ f b _ _ _ _ (monitor_watchdogs now) watch hall
  have faults : (faulted.orders f b).version ≤ (watched.orders f b).version + kElevs :=
    (monitor_faults now).version_le fault hall
  have observes : (faulted.observeOrders.orders f b).version = (faulted.orders f b).version := by
    rw [observeOrders, orders_mapHall _ _ _ hall]
    dsimp only
    split_ifs <;> rfl
  have confirms : ((faulted.observeOrders.confirmHallOrders now).orders f b).version ≤
      (faulted.observeOrders.orders f b).version + 1 := by
    rw [confirmHallOrders, orders_mapHall _ _ _ hall]
    dsimp only
    split_ifs with blocked
    · exact Nat.le_succ _
    · cases faulted.observeOrders.calculateElevatorCosts f with
      | nil => exact Nat.le_succ _
      | cons best others =>
        have confirmed := (faulted.observeOrders.orders f b).version_apply_le (.onConfirm best.2.val)
          fun _ same => by cases same
        dsimp only
        split_ifs
        · exact Nat.le_succ _
        · exact confirmed
        · exact confirmed
  have resets : ((faulted.observeOrders.confirmHallOrders now).resetHallOrders.orders f b).version ≤
      ((faulted.observeOrders.confirmHallOrders now).orders f b).version + 1 := by
    rw [resetHallOrders, orders_mapHall _ _ _ hall]
    exact Order.version_apply_le _ .onReset fun _ same => by cases same
  have expires : (timed.orders f b).version ≤
      ((faulted.observeOrders.confirmHallOrders now).resetHallOrders.orders f b).version + 1 := by
    generalize (faulted.observeOrders.confirmHallOrders now).resetHallOrders = q at timers
    have moved := (forHall_spec timers).2.2 f b hall
    change (timed.cell (f, b)).1.version ≤ (q.cell (f, b)).1.version + 1
    generalize q.cell (f, b) = before at moved
    split_ifs at moved
    · rw [← Option.some.inj moved]
      exact Nat.le_succ _
    · rw [← Option.some.inj moved]
      exact Nat.le_succ _
    · exact (version_reassignCell moved).le
  rw [orders_of_controlHallOrderTimers timed now hall]
  omega

/-- All versions a node stores are within a bound. -/
structure VersionsWithin (p : Peers kFloors) (bound : Nat) : Prop where
  /-- The order table. -/
  orders : ∀ f b, (p.orders f b).version ≤ bound
  /-- The backups. -/
  cabButtonOrders : ∀ e f, (p.cabButtonOrders e f).version ≤ bound
  /-- The view. -/
  allStates : ∀ e, (p.allStates e).version ≤ bound

namespace VersionsWithin

variable {bound : Nat}

/-- A bound may give way. -/
theorem mono {bound' : Nat} (within : p.VersionsWithin bound) (more : bound ≤ bound') :
    p.VersionsWithin bound' :=
  ⟨fun f b => (within.orders f b).trans more, fun e f => (within.cabButtonOrders e f).trans more,
    fun e => (within.allStates e).trans more⟩

/-- A press may request a hall order, or request and confirm a cab order. -/
theorem press (within : p.VersionsWithin bound) (signals : BoolTable kFloors) :
    (p.syncButtonSignals signals).VersionsWithin (bound + 2) := by
  have cab (o : Order) (known : o.version ≤ bound) :
      ((o.onRequest p.nodeId).onConfirm p.nodeId.val).version ≤ bound + 2 := by
    have raised := o.version_twice_le (.onRequest p.nodeId) (.onConfirm p.nodeId.val)
      (fun _ same => by cases same) fun _ same => by cases same
    exact raised.trans (Nat.add_le_add_right known 2)
  refine ⟨fun f b => ?_, fun e f => ?_, fun e => (within.allStates e).trans (Nat.le_add_right _ _)⟩
  · have known := within.orders f b
    have requested := (p.orders f b).version_apply_le (.onRequest p.nodeId) fun _ same => by cases same
    change ((p.orders f b).onRequest p.nodeId).version ≤ _ at requested
    simp only [syncButtonSignals]
    split_ifs
    · exact cab _ known
    · omega
    · omega
  · have known := within.cabButtonOrders e f
    simp only [syncButtonSignals]
    split_ifs
    · exact cab _ known
    · omega

/-- The own state takes its place in the view. -/
theorem publish (within : p.VersionsWithin bound) {own : ElevatorState kFloors}
    (version : own.version ≤ bound) : (p.copyOwnState own).VersionsWithin bound := by
  refine ⟨within.orders, within.cabButtonOrders, fun e => ?_⟩
  change (Function.update p.allStates p.nodeId own e).version ≤ bound
  by_cases here : e = p.nodeId
  · rw [here, Function.update_self]
    exact version
  · rw [Function.update_of_ne here]
    exact within.allStates e

/-- `Peers::Step`. -/
theorem step (within : p.VersionsWithin bound) (done : p.step now = some p') :
    p'.VersionsWithin (bound + (2 * kElevs + 3)) := by
  have advances := advances_step done
  refine ⟨fun f b => ?_, fun e f => ?_, fun e => ?_⟩
  · by_cases hall : b = .cab
    · rw [hall, advances.cab f]
      exact (within.orders f .cab).trans (Nat.le_add_right _ _)
    · exact (version_step_le done hall).trans (Nat.add_le_add_right (within.orders f b) _)
  · rw [advances.cabButtonOrders]
    exact (within.cabButtonOrders e f).trans (Nat.le_add_right _ _)
  · rcases advances.states e with kept | timedOut
    · rw [kept]
      exact (within.allStates e).trans (Nat.le_add_right _ _)
    · rw [timedOut]
      exact Nat.zero_le _

/-- `Peers::ClearOrders` clears a hall order, or clears and resets a cab order. -/
theorem clear (within : p.VersionsWithin bound) (floor : Fin kFloors) (b2c : ButtonFlags) :
    (p.clearOrders floor b2c).VersionsWithin (bound + 2) := by
  have cab (o : Order) (known : o.version ≤ bound) : o.onClear.onReset.version ≤ bound + 2 := by
    have raised := o.version_twice_le .onClear .onReset (fun _ same => by cases same)
      fun _ same => by cases same
    exact raised.trans (Nat.add_le_add_right known 2)
  refine ⟨fun f b => ?_, fun e f => ?_, fun e => (within.allStates e).trans (Nat.le_add_right _ _)⟩
  · have known := within.orders f b
    have cleared := (p.orders f b).version_apply_le .onClear fun _ same => by cases same
    change (p.orders f b).onClear.version ≤ _ at cleared
    simp only [clearOrders]
    split_ifs
    · exact cab _ known
    · omega
    · omega
    · omega
  · have known := within.cabButtonOrders e f
    simp only [clearOrders]
    split_ifs
    · exact cab _ known
    · omega

end VersionsWithin

end Peers

/-- All versions a packet carries are within a bound. -/
structure NetworkPacket.VersionsWithin (packet : NetworkPacket kFloors) (bound : Nat) : Prop where
  /-- The order table. -/
  orders : ∀ f b, (packet.orders f b).version ≤ bound
  /-- The backups. -/
  cabButtonOrders : ∀ e f, (packet.cabButtonOrders e f).version ≤ bound
  /-- The state. -/
  state : packet.state.version ≤ bound

/-- A bound may give way. -/
theorem NetworkPacket.VersionsWithin.mono {packet : NetworkPacket kFloors} {bound bound' : Nat}
    (within : packet.VersionsWithin bound) (more : bound ≤ bound') : packet.VersionsWithin bound' :=
  ⟨fun f b => (within.orders f b).trans more, fun e f => (within.cabButtonOrders e f).trans more,
    within.state.trans more⟩

/-- Merging a packet raises no version beyond those of the node and of the packet. -/
theorem Peers.VersionsWithin.receive {p : Peers kFloors} {bound : Nat}
    (within : p.VersionsWithin bound) (now : Nat) {packet : ReceivedPacket kFloors}
    (carried : packet.toNetworkPacket.VersionsWithin bound) :
    (p.rxPacketProcessing now packet).VersionsWithin bound := by
  by_cases own : packet.sender = p.nodeId
  · rwa [Peers.rxPacketProcessing_own own]
  · refine ⟨fun f b => ?_, fun e f => ?_, fun e => ?_⟩
    · by_cases hall : b = .cab
      · rw [hall, Peers.rxPacketProcessing_cab own]
        exact Order.version_onUpdate_le (within.orders f .cab) (carried.cabButtonOrders _ f)
      · rw [Peers.rxPacketProcessing_hall own hall]
        exact Order.version_onUpdate_le (within.orders f b) (carried.orders f b)
    · simp only [Peers.rxPacketProcessing, if_neg own]
      split_ifs
      · exact Order.version_onUpdate_le (within.cabButtonOrders e f) (carried.orders f .cab)
      · exact Order.version_onUpdate_le (within.cabButtonOrders e f) (carried.cabButtonOrders _ f)
      · exact within.cabButtonOrders e f
    · rw [Peers.view_rxPacketProcessing]
      split_ifs
      · exact carried.state
      · exact within.allStates e

namespace ElevatorNode

variable {s s' : ElevatorNode kFloors} {bound : Nat}

/-- All versions of a node, those of the elevator included, are within a bound. -/
structure VersionsWithin (s : ElevatorNode kFloors) (bound : Nat) : Prop where
  /-- The shared part. -/
  peers : s.peers.VersionsWithin bound
  /-- The elevator. -/
  elev : s.drive.elev.state.version ≤ bound

/-- A bound may give way. -/
theorem VersionsWithin.mono {bound' : Nat} (within : s.VersionsWithin bound) (more : bound ≤ bound') :
    s.VersionsWithin bound' := ⟨within.peers.mono more, within.elev.trans more⟩

/-- The first half of a step. -/
theorem VersionsWithin.sync {now : StepClock kFloors} {signals : Signals kFloors}
    (within : s.VersionsWithin bound) (done : s.sync now signals = some s') :
    s'.VersionsWithin (bound + (2 * kElevs + 5)) := by
  rw [sync_eq] at done
  obtain ⟨peers, stepped, rfl⟩ := Option.map_eq_some_iff.1 done
  have elev : (s.synced signals).drive.elev.state.version ≤ bound + 1 := by
    change (s.drive.elev.step signals).state.version + 1 ≤ bound + 1
    rw [version_step]
    exact Nat.succ_le_succ within.elev
  have synced : (s.synced signals).peers.VersionsWithin (bound + 2) :=
    (within.peers.press _).publish (elev.trans (Nat.le_succ _))
  exact ⟨(synced.step stepped).mono (by omega), elev.trans (by omega)⟩

/-- The second half of a step. -/
theorem VersionsWithin.handleEvent {now : Nat} {floorSensor : Int}
    (within : s.VersionsWithin bound) (done : s.handleEvent now floorSensor = some s') :
    s'.VersionsWithin (bound + 2) := by
  have unchanged := version_due s.drive now floorSensor
  unfold ElevatorNode.handleEvent at done
  dsimp only at done
  generalize nextEvent s.drive now = due at done unchanged
  obtain ⟨d, next⟩ := due
  cases next with
  | none =>
    obtain rfl := Option.some.inj done
    exact ⟨within.peers.mono (Nat.le_add_right _ _),
      (unchanged.le.trans within.elev).trans (Nat.le_add_right _ _)⟩
  | some event =>
    obtain ⟨peers, cleared, rfl⟩ := Option.map_eq_some_iff.1 done
    have elev : (d.fsm now floorSensor event).1.elev.state.version + 1 ≤ bound + 2 := by
      have version : (d.fsm now floorSensor event).1.elev.state.version ≤ bound :=
        unchanged.le.trans within.elev
      omega
    have cleared' : peers.VersionsWithin (bound + 2) := by
      unfold clearServed at cleared
      split_ifs at cleared
      · rw [← Option.some.inj cleared]
        exact within.peers.mono (Nat.le_add_right _ _)
      · rw [← Option.some.inj cleared]
        exact within.peers.clear _ _
    exact ⟨cleared'.publish elev, elev⟩

/-- A launch starts over. -/
theorem versionsWithin_launch {i : Fin kElevs} {initial : Signals kFloors}
    {first : StepInput kFloors} (launched : launch i initial first = some s) :
    s.VersionsWithin (2 * kElevs + 8) := by
  obtain ⟨synced, sync, handled⟩ := ElevatorNode.launch_cases launched
  have fresh : (init i initial).VersionsWithin 1 := by
    refine ⟨⟨fun _ _ => Nat.zero_le _, fun _ _ => Nat.zero_le _, fun _ => Nat.zero_le _⟩, ?_⟩
    simp only [init, Drive.init, Elevator.init, ElevatorState.setFloor]
    split_ifs <;> exact le_rfl
  exact ((fresh.sync sync).handleEvent handled).mono (by omega)

end ElevatorNode

namespace Fleet

variable {s s' : Fleet kFloors} {bound : Nat}

/-- All versions of a fleet, those under way included, are within a bound. -/
structure VersionsWithin (s : Fleet kFloors) (bound : Nat) : Prop where
  /-- The nodes. -/
  node : ∀ i, (s.node i).VersionsWithin bound
  /-- The packets. -/
  sent : ∀ packet ∈ s.sent, packet.VersionsWithin bound

/-- Replacing a node. -/
theorem VersionsWithin.setNode (within : s.VersionsWithin bound) {i : Fin kElevs}
    {n : ElevatorNode kFloors} {bound' : Nat} (more : bound ≤ bound') (new : n.VersionsWithin bound') :
    (s.setNode i n).VersionsWithin bound' := by
  refine ⟨fun j => ?_, fun packet member => (within.sent packet member).mono more⟩
  by_cases here : j = i
  · subst here
    rwa [setNode_node_self]
  · rw [setNode_node_of_ne s n here]
    exact (within.node j).mono more

/-- A step of the fleet. -/
theorem VersionsWithin.step (within : s.VersionsWithin bound) {action : FleetRestartAction kFloors}
    (step : FleetRestartStep s action s') : s'.VersionsWithin (bound + (2 * kElevs + 8)) := by
  cases action with
  | run action =>
    cases action with
    | sync i now signals =>
      obtain ⟨n, done, rfl⟩ := Option.map_eq_some_iff.1 step
      exact within.setNode (Nat.le_add_right _ _) (((within.node i).sync done).mono (by omega))
    | handle i now floorSensor =>
      obtain ⟨n, done, rfl⟩ := Option.map_eq_some_iff.1 step
      exact within.setNode (Nat.le_add_right _ _) (((within.node i).handleEvent done).mono (by omega))
    | transmit i =>
      obtain rfl := Option.some.inj step
      have more : bound ≤ bound + (2 * kElevs + 8) := Nat.le_add_right _ _
      refine ⟨fun j => (within.node j).mono more, fun packet member => ?_⟩
      rcases List.mem_append.1 member with old | new
      · exact (within.sent packet old).mono more
      · rw [List.mem_singleton.1 new]
        have peers := (within.node i).peers.mono more
        exact ⟨peers.orders, peers.cabButtonOrders, peers.allStates _⟩
    | receive i position now =>
      have more : bound ≤ bound + (2 * kElevs + 8) := Nat.le_add_right _ _
      rcases receive_cases step with ⟨-, -, -, rfl⟩ | ⟨received, sent, rfl⟩
      · exact ⟨fun j => (within.node j).mono more, fun other member => (within.sent other member).mono more⟩
      · have carried := within.sent _ (List.mem_of_getElem? sent)
        have merged := (within.node i).peers.receive now carried
        exact within.setNode more (ElevatorNode.VersionsWithin.mono ⟨merged, (within.node i).elev⟩ more)
  | restart i initial first =>
    obtain ⟨-, done⟩ := Option.ite_none_right_eq_some.1 step
    obtain ⟨n, launched, rfl⟩ := Option.map_eq_some_iff.1 done
    exact within.setNode (Nat.le_add_right _ _)
      ((ElevatorNode.versionsWithin_launch launched).mono (Nat.le_add_left _ _))

/-- After a run of any number of steps of a fleet launched at floors, crashes and launches included, no
version of an order or of a state, stored or under way, exceeds a small multiple of that number. -/
theorem versions_bounded {start : Fleet kFloors} (launched : start.Launched)
    {trace : List (Transition (Fleet kFloors) (FleetRestartAction kFloors))}
    (run : Run FleetRestartStep start trace s) :
    s.VersionsWithin ((trace.length + 1) * (2 * kElevs + 8)) := by
  have begun : start.VersionsWithin (2 * kElevs + 8) := by
    refine ⟨fun i => ?_, ?_⟩
    · obtain ⟨initial, first, -, node⟩ := launched.node i
      exact ElevatorNode.versionsWithin_launch node
    · rw [launched.sent]
      exact fun packet member => absurd member List.not_mem_nil
  have reached := run.bounded VersionsWithin (2 * kElevs + 8) (fun step within => within.step step) begun
  rw [Nat.succ_mul, Nat.add_comm]
  exact reached

/-- A hall call taken by the node it is made at, told to another. -/
theorem versions_bounded_called : ∃ s : Fleet Config.kFloors,
    ((s.node 1).peers.orders 2 .hallUp).version = 2 ∧ s.VersionsWithin 80 := by
  let actions : List (FleetRestartAction Config.kFloors) := [
    .run (.sync 0 (.still 50) { floorSensor := 0, buttons := .only 2 .hallUp }),
    .run (.handle 0 60 0), .run (.transmit 0), .run (.receive 1 0 70)]
  have evaluated : (actions.foldlM execRestart atBottom).any (fun s =>
      decide (((s.node 1).peers.orders 2 .hallUp).version = 2)) = true := by decide +kernel
  obtain ⟨trace, s, run, labels, checked⟩ := Run.of_check FleetRestartStep id evaluated
  have steps : trace.length = 4 := by
    have listed := congrArg List.length labels
    rwa [List.length_map] at listed
  have bounded := versions_bounded launched_atBottom run
  rw [steps] at bounded
  exact ⟨s, of_decide_eq_true checked, bounded⟩

end Fleet

namespace OrderWord

/-- A counter below its last value counts on. -/
theorem toNat_succ {version : UInt64} (room : version.toNat + 1 < 2 ^ 64) :
    (version + 1).toNat = version.toNat + 1 := by
  rw [UInt64.toNat_add]
  exact Nat.mod_eq_of_lt room

/-- Words are compared as the numbers they read as. -/
theorem toOrder_onUpdate (o rcv : OrderWord) :
    (o.onUpdate rcv).toOrder = o.toOrder.onUpdate rcv.toOrder := by
  have order : o.version < rcv.version ↔ o.toOrder.version < rcv.toOrder.version := UInt64.lt_iff_toNat_lt
  have same : rcv.version = o.version ↔ rcv.toOrder.version = o.toOrder.version :=
    UInt64.toNat_inj.symm
  unfold onUpdate Order.onUpdate
  by_cases older : o.version < rcv.version
  · rw [if_pos older, if_pos (order.1 older)]
  · rw [if_neg older, if_neg fun less => older (order.2 less)]
    by_cases equal : rcv.version = o.version
    · rw [if_pos equal, if_pos (same.1 equal)]
      dsimp only
      split_ifs with raise tie raise' tie' <;> first | rfl | contradiction
    · rw [if_neg equal, if_neg fun less => equal (same.2 less)]

/-- As long as the counter has room, an operation on a stored order is the operation on the order it
reads as. -/
theorem toOrder_apply (o : OrderWord) (op : OrderWordOp) (room : o.version.toNat + 1 < 2 ^ 64) :
    (o.apply op).toOrder = o.toOrder.apply op.toOp := by
  have succ := toNat_succ room
  have status : o.toOrder.status = o.status := rfl
  cases op with
  | observe e => rfl
  | onUpdate rcv => exact o.toOrder_onUpdate rcv
  | onReassignment e => simp only [apply, onReassignment, toOrder, succ]; rfl
  | onRequest e =>
    simp only [apply, onRequest, OrderWordOp.toOp, Order.apply, Order.onRequest, status]
    split_ifs
    · simp only [observe, Order.observe, toOrder, succ]
    · rfl
  | onConfirm e | onClear | onReset | onRevoke =>
    simp only [apply, onConfirm, onClear, onReset, onRevoke, OrderWordOp.toOp, Order.apply,
      Order.onConfirm, Order.onClear, Order.onReset, Order.onRevoke, status]
    split_ifs
    · simp only [toOrder, succ]
    · rfl

/-- What an operation receives has a version within a bound. -/
def Received (bound : Nat) : OrderWordOp → Prop
  | .onUpdate rcv => rcv.version.toNat ≤ bound
  | _ => True

instance (bound : Nat) : DecidablePred (Received bound)
  | .onUpdate rcv => inferInstanceAs (Decidable (rcv.version.toNat ≤ bound))
  | .observe _ | .onRequest _ | .onConfirm _ | .onClear | .onReset | .onRevoke | .onReassignment _ =>
    isTrue trivial

/-- An operation raises the version by one at most, beyond what it has received. -/
theorem version_toOp_le (o : Order) {op : OrderWordOp} {bound : Nat} (start : o.version ≤ bound)
    (received : Received bound op) : (o.apply op.toOp).version ≤ bound + 1 := by
  have raise : (∀ rcv, op.toOp ≠ .onUpdate rcv) → (o.apply op.toOp).version ≤ bound + 1 := by
    intro own
    have once := o.version_apply_le op.toOp own
    omega
  cases op with
  | onUpdate rcv =>
    have carried : rcv.toOrder.version ≤ bound := received
    exact (Order.version_onUpdate_le start carried).trans (Nat.le_succ bound)
  | _ => exact raise fun rcv same => by cases same

/-- Any number of operations on a stored order are the operations on the order it reads as, as long as
the versions it starts from and receives leave the counter room for all of them. -/
theorem toOrder_foldl (o : OrderWord) (ops : List OrderWordOp) {bound : Nat}
    (start : o.version.toNat ≤ bound) (received : ∀ op ∈ ops, Received bound op)
    (room : bound + ops.length < 2 ^ 64) :
    (ops.foldl apply o).toOrder = (ops.map OrderWordOp.toOp).foldl Order.apply o.toOrder := by
  induction ops generalizing o bound with
  | nil => rfl
  | cons op ops ih =>
    rw [List.length_cons] at room
    have once := o.toOrder_apply op (by omega)
    have version : (o.apply op).version.toNat ≤ bound + 1 := by
      change (o.apply op).toOrder.version ≤ bound + 1
      rw [once]
      exact version_toOp_le o.toOrder start (received op List.mem_cons_self)
    have later : ∀ other ∈ ops, Received (bound + 1) other := by
      intro other member
      have within := received other (List.mem_cons_of_mem _ member)
      cases other with
      | onUpdate rcv => exact Nat.le_succ_of_le within
      | _ => trivial
    rw [List.foldl_cons, List.map_cons, List.foldl_cons, ← once]
    exact ih (o.apply op) version later (by omega)

/-- A call confirmed elsewhere, cleared here. -/
theorem toOrder_foldl_cleared :
    let ops : List OrderWordOp := [.onRequest 0, .observe 1,
      .onUpdate { assignedId := 0, observedMask := 7#32, status := .confirmed, version := 2 }, .onClear]
    (ops.foldl apply {}).toOrder = (ops.map OrderWordOp.toOp).foldl Order.apply {} := by
  intro ops
  have start : ({} : OrderWord).version.toNat ≤ 2 := by decide
  exact toOrder_foldl {} ops start (by decide) (by decide)

end OrderWord

end CppElevator
