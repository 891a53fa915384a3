import CppElevator.Verif.Assignees
import CppElevator.Verif.FleetInvariants
import CppElevator.Verif.StepNormalForm

/-!
# Reassignments

Among nodes that send what `TxPacketCopy` builds, every call of `ReassignHallOrder` finds an
assignee it can go to. A node that has counted itself alone has no running watchdog, and only its
own orders have running timers: the last step left it so, and every packet since would have brought
another elevator into the count.
-/
namespace CppElevator

open Library

variable {kFloors : Nat}

namespace Peers

open Config

/-- The order of a call of `ReassignHallOrder` goes to an active elevator, to another one if the
assignee is not usable and somebody else is active. -/
structure Reassigned (q : Peers kFloors) (o o' : Order) : Prop where
  /-- The order stays confirmed. -/
  confirmed : o'.status = .confirmed
  /-- One version later. -/
  version : o'.version = o.version + 1
  /-- Assigned to an elevator active in the view. -/
  active : ∃ e : Fin kElevs, o'.assignedId = e.val ∧ (q.allStates e).active = true
  /-- Moved where it can be. -/
  moved : ∀ prev : Fin kElevs, o.assignedId = prev.val → (q.allStates prev).usable = false →
    (∃ other, other ≠ prev ∧ (q.allStates other).active = true) → o'.assignedId ≠ o.assignedId

/-- Every elevator of the view is at a floor `SetFloor` lets through. -/
def AllPlaced (p : Peers kFloors) : Prop := ∀ e, (p.allStates e).Placed

/-- Every running timer of a hall order is that of an order confirmed to the node. -/
def OwnTimers (p : Peers kFloors) : Prop :=
  ∀ f b, b ≠ .cab → (p.orderTimers f b).active = true →
    (p.orders f b).status = .confirmed ∧ (p.orders f b).assignedId = p.nodeId.val

/-- Somebody other than the node is active in the view. -/
def Accompanied (p : Peers kFloors) : Prop := ∃ e, e ≠ p.nodeId ∧ (p.allStates e).active = true

/-- An unusable assignee loses the order when somebody else is active. -/
theorem newAssignee_ne {p : Peers kFloors} (fits : CostsFit kFloors) (placed : p.AllPlaced)
    {floor : Fin kFloors} {prev e other : Fin kElevs} (found : p.newAssignee floor prev = some e)
    (unusable : (p.allStates prev).usable = false) (apart : other ≠ prev)
    (active : (p.allStates other).active = true) : e ≠ prev := by
  unfold newAssignee at found
  dsimp only at found
  rw [if_pos unusable] at found
  cases picked : (p.calculateElevatorCosts floor).find?
      fun c => decide (c.2 ≠ prev ∧ c.1 ≠ intMax) with
  | none =>
    have passed := List.find?_eq_none.1 picked _ (p.mem_calculateElevatorCosts floor other)
    have finite := (elevatorCost_lt fits active (placed other) floor).ne
    simp [apart, finite] at passed
  | some c =>
    simp only [picked, Option.map_some] at found
    have chosen := List.find?_some picked
    rw [decide_eq_true_eq] at chosen
    rw [← Option.some.inj found]
    exact chosen.1

/-- A call of a node that takes part, which has an order of its own to move if it counts itself
alone. -/
theorem reassigned_of_call {q : Peers kFloors} (fits : CostsFit kFloors) (part : q.TakesPart)
    (placed : q.AllPlaced) {floor : Fin kFloors} {o : Order} (confirmed : o.status = .confirmed)
    (range : 0 ≤ o.assignedId ∧ o.assignedId < kElevs)
    (alone : q.numElevs = 1 → o.assignedId = q.nodeId.val ∧ ¬q.Accompanied) :
    ∃ o', q.reassignHallOrder floor o = some o' ∧ q.Reassigned o o' := by
  unfold reassignHallOrder
  rw [dif_pos range]
  dsimp only
  have named : ((o.assignedId.toNat : Nat) : Int) = o.assignedId := Int.toNat_of_nonneg range.1
  by_cases single : q.numElevs = 1
  · obtain ⟨self, nobody⟩ := alone single
    rw [if_pos single]
    refine ⟨_, rfl, confirmed, rfl, ⟨q.nodeId, named.trans self, part.active⟩, ?_⟩
    rintro prev assigned - ⟨other, apart, active⟩
    have own : prev = q.nodeId := Fin.ext (Int.ofNat.inj (assigned.symm.trans self))
    exact absurd ⟨other, own ▸ apart, active⟩ nobody
  · rw [if_neg single]
    obtain ⟨e, found⟩ := part.newAssignee_total fits floor ⟨o.assignedId.toNat, toNat_lt range⟩
    rw [found]
    refine ⟨_, rfl, confirmed, rfl, ⟨e, rfl, active_of_newAssignee found⟩, ?_⟩
    rintro prev assigned unusable ⟨other, apart, active⟩ same
    obtain rfl : prev = ⟨o.assignedId.toNat, toNat_lt range⟩ :=
      Fin.ext (Int.ofNat.inj (assigned.symm.trans named.symm))
    refine newAssignee_ne fits placed found unusable apart active (Fin.ext (Int.ofNat.inj ?_))
    exact same.trans named.symm

/-- A node that has counted itself alone is alone, with the timers of its own orders. -/
def Counted (p : Peers kFloors) : Prop := p.numElevs = 1 → ¬p.Accompanied ∧ p.OwnTimers

/-- Counting. -/
theorem counted_updateNumElevs {p : Peers kFloors} (part : p.TakesPart)
    (reconciled : p.Accompanied ∨ p.OwnTimers) : p.updateNumElevs.Counted := by
  intro single
  have nobody : ¬p.Accompanied := by
    rintro ⟨e, apart, active⟩
    exact numElevs_ne_one apart active part.active single
  exact ⟨nobody, reconciled.resolve_left nobody⟩

/-- An iteration of `MonitorWatchdogTimers`: the guarded elevator was counted. -/
theorem Counted.monitorWatchdogTimer {p p' : Peers kFloors} {now : StepClock kFloors} {e : Fin kElevs}
    (counted : p.Counted) (stepping : p.Stepping) (pass : p.monitorWatchdogTimer now e = some p') :
    p'.Counted := by
  refine (monitor_watchdogs now).keeps Counted pass counted fun expired called single => ?_
  rw [(forHall_spec called).1] at single
  exact absurd single (stepping.counted e (Timer.active_of_expired expired))

/-- An iteration of `MonitorFault`: alone, the node reassigns its own orders to itself. -/
theorem Counted.monitorFaultOf {p p' : Peers kFloors} {now : StepClock kFloors} {e : Fin kElevs}
    (counted : p.Counted) (pass : p.monitorFaultOf now e = some p') : p'.Counted := by
  refine (monitor_faults now).keeps Counted pass counted fun faulty called single => ?_
  have outside := (forHall_spec called).1
  rw [outside] at single
  obtain ⟨nobody, own⟩ := counted single
  have alone (e : Fin kElevs) (active : (p.allStates e).active = true) : e = p.nodeId := by
    by_contra apart
    exact nobody ⟨e, apart, active⟩
  refine ⟨by rw [outside]; exact nobody, fun f b hall running => ?_⟩
  have node : p'.nodeId = p.nodeId := (advances_reassignHallOrders called).nodeId
  rw [node]
  rcases reassignHallOrders_cases called hall with ⟨kept, -⟩ | ⟨⟨confirmed, named⟩, moved⟩
  · rw [orderTimers_of_cell kept] at running
    rw [orders_of_cell kept]
    exact own f b hall running
  · have reassigned := (reassignCell_cases moved).1
    obtain ⟨_, order⟩ := reassignHallOrder_eq reassigned
    have status : (p'.orders f b).status = .confirmed := by
      change (p'.cell (f, b)).1.status = .confirmed
      rw [order]
      exact confirmed
    refine ⟨status, ?_⟩
    rcases assignee_of_reassignHallOrder reassigned with ⟨-, stays⟩ | ⟨other, assigned, active⟩
    · have self := alone e (Bool.and_eq_true_iff.1 faulty).1
      rw [← self, ← named]
      exact stays
    · rw [← alone other active]
      exact assigned

/-- Observing touches no confirmed order. -/
theorem OwnTimers.observeOrders {p : Peers kFloors} (own : p.OwnTimers) :
    p.observeOrders.OwnTimers := by
  intro f b hall running
  rw [Peers.observeOrders, orders_mapHall _ _ _ hall]
  rw [Peers.observeOrders, orderTimers_mapHall _ _ _ hall] at running
  dsimp only at running ⊢
  split_ifs at running ⊢ with seen requested
  · exact own f b hall running
  · have confirmed := (own f b hall running).1
    simp [requested] at confirmed
  · exact own f b hall running

/-- A confirmation starts the timer of an order of the node's own, and finds none running. -/
theorem OwnTimers.confirmHallOrders {p : Peers kFloors} (own : p.OwnTimers) (now : StepClock kFloors) :
    (p.confirmHallOrders now).OwnTimers := by
  intro f b hall running
  obtain ⟨best, others, costs⟩ := List.exists_cons_of_ne_nil (p.calculateElevatorCosts_ne_nil f)
  by_cases requested : (p.orders f b).status = .requested
  · have idle : (p.orderTimers f b).active ≠ true := fun active => by
      have confirmed := (own f b hall active).1
      simp [requested] at confirmed
    rcases confirmHallOrders_cases now hall requested costs with ⟨-, kept⟩ | ⟨-, -, confirmed⟩
    · rw [orderTimers_of_cell kept] at running
      exact absurd running idle
    · rw [orderTimers_of_cell confirmed] at running
      rw [orders_of_cell confirmed]
      dsimp only at running
      split_ifs at running with self
      · rw [Order.onConfirm_of_requested _ requested, self]
        exact ⟨rfl, rfl⟩
      · exact absurd running idle
  · have kept : (p.confirmHallOrders now).cell (f, b) = p.cell (f, b) :=
      cell_confirmHallOrders (.inr requested)
    rw [orderTimers_of_cell kept] at running
    rw [orders_of_cell kept]
    exact own f b hall running

/-- Resetting touches no confirmed order. -/
theorem OwnTimers.resetHallOrders {p : Peers kFloors} (own : p.OwnTimers) :
    p.resetHallOrders.OwnTimers := by
  intro f b hall running
  rw [orderTimers_resetHallOrders hall] at running
  obtain ⟨confirmed, assigned⟩ := own f b hall running
  rw [orders_of_cell (cell_resetHallOrders (by simp [confirmed]))]
  exact ⟨confirmed, assigned⟩

/-- The states of the view keep their floors. -/
theorem AllPlaced.advances {p p' : Peers kFloors} (placed : p.AllPlaced) (advances : p.Advances p') :
    p'.AllPlaced := by
  intro e
  rcases advances.states e with same | timedOut
  · rw [same]
    exact placed e
  · rw [timedOut]
    exact placed e

/-- So does an elevator taken out of the view. -/
theorem AllPlaced.silenced {p : Peers kFloors} (placed : p.AllPlaced) (e : Fin kElevs) :
    (p.silenced e).AllPlaced := by
  intro i
  by_cases same : i = e
  · subst same
    have state : (p.silenced i).allStates i = (p.allStates i).onWatchdogTimeout :=
      Function.update_self _ _ _
    rw [state]
    exact placed i
  · rw [silenced_allStates same]
    exact placed i

/-- What a node can rely on whenever `Peers::Step` is called. -/
structure Dispatches (p : Peers kFloors) : Prop where
  /-- Watchdogs and view. -/
  watching : p.Watching
  /-- Confirmed orders are assigned to elevators of the cluster. -/
  assigned : p.Assigned
  /-- The floors of the view. -/
  placed : p.AllPlaced
  /-- Timers between steps. -/
  reconciled : p.Accompanied ∨ p.OwnTimers

/-- The iterations of `MonitorWatchdogTimers` in a step keep the count. -/
theorem Dispatches.watched {p q : Peers kFloors} (dispatches : p.Dispatches) (part : p.TakesPart)
    {now : StepClock kFloors} {elevs : List (Fin kElevs)}
    (reached : elevs.foldlM (monitorWatchdogTimer now) p.updateNumElevs = some q) :
    q.Stepping ∧ q.Counted :=
  invariant_of_foldlM (fun q => q.Stepping ∧ q.Counted)
    (fun pass old => ⟨old.1.monitorWatchdogTimer pass, old.2.monitorWatchdogTimer old.1 pass⟩) reached
    ⟨dispatches.watching.stepping part.active, counted_updateNumElevs part dispatches.reconciled⟩

/-- A pass that calls for an order of a node which has counted itself alone calls for one of its own,
and the node is alone. -/
theorem Dispatches.alone {p q caller : Peers kFloors} (dispatches : p.Dispatches) (part : p.TakesPart)
    {now : StepClock kFloors} {result : Option (Peers kFloors)} {calls : Fin kFloors → BtnType → Prop}
    (pass : p.MonitorPass now q caller result calls) {f : Fin kFloors} {b : BtnType}
    (called : calls f b) (single : caller.numElevs = 1) :
    (q.orders f b).assignedId = caller.nodeId.val ∧ ¬caller.Accompanied := by
  cases pass with
  | @watchdog q _ _ e _ reached =>
    have counted := (dispatches.watched part reached).1.counted e (Timer.active_of_expired called.1)
    exact absurd single counted
  | fault watch _ reached =>
    obtain ⟨faulty, -, -, named⟩ := called
    have counted := invariant_of_foldlM Counted (fun pass old => old.monitorFaultOf pass) reached
      (dispatches.watched part watch).2
    obtain ⟨nobody, -⟩ := counted single
    refine ⟨?_, nobody⟩
    by_contra apart
    refine nobody ⟨_, fun here => apart ?_, (Bool.and_eq_true_iff.1 faulty).1⟩
    rw [named, here]
  | timers reached =>
    obtain ⟨watched, faulted, watch, fault, rfl⟩ := beforeTimers_cases reached
    obtain ⟨expired, hall, -⟩ := called
    have counted := invariant_of_foldlM Counted (fun pass old => old.monitorFaultOf pass) fault
      (dispatches.watched part watch).2
    obtain ⟨nobody, own⟩ := counted single
    have timers := (own.observeOrders.confirmHallOrders now).resetHallOrders
    exact ⟨(timers _ _ hall (Timer.active_of_expired expired)).2, nobody⟩

/-- The floors of the view are known at every call. -/
theorem Dispatches.placed_caller {p q caller : Peers kFloors} (dispatches : p.Dispatches)
    {now : StepClock kFloors} {result : Option (Peers kFloors)} {calls : Fin kFloors → BtnType → Prop}
    (pass : p.MonitorPass now q caller result calls) : caller.AllPlaced := by
  have placed := dispatches.placed.advances pass.advances
  cases pass with
  | watchdog _ _ => exact placed.silenced _
  | fault _ _ _ => exact placed
  | timers _ => exact placed

/-- Every call of `ReassignHallOrder` made by a step succeeds, and sensibly. -/
theorem Dispatches.reassigned {p q caller : Peers kFloors} (fits : CostsFit kFloors)
    (dispatches : p.Dispatches) (part : p.TakesPart) {now : StepClock kFloors}
    {result : Option (Peers kFloors)} {calls : Fin kFloors → BtnType → Prop}
    (pass : p.MonitorPass now q caller result calls) {f : Fin kFloors} {b : BtnType}
    (called : calls f b) : (0 ≤ (q.orders f b).assignedId ∧ (q.orders f b).assignedId < kElevs) ∧
      ∃ o, caller.reassignHallOrder f (q.orders f b) = some o ∧ caller.Reassigned (q.orders f b) o := by
  have range := pass.assignedId_range (fun f b _ => dispatches.assigned.orders f b) called
  exact ⟨range, reassigned_of_call fits (part.caller pass called) (dispatches.placed_caller pass)
    (pass.confirmed called).2 range (dispatches.alone part pass called)⟩

/-- So a pass that calls for orders ends: it leaves them as the calls do, and the others alone. -/
theorem Dispatches.pass_ends {p q caller : Peers kFloors} (fits : CostsFit kFloors)
    (dispatches : p.Dispatches) (part : p.TakesPart) {now : StepClock kFloors}
    {result : Option (Peers kFloors)} {calls : Fin kFloors → BtnType → Prop}
    (pass : p.MonitorPass now q caller result calls) : ∃ q', result = some q' ∧ ∀ f b,
      (calls f b → (0 ≤ (q.orders f b).assignedId ∧ (q.orders f b).assignedId < kElevs) ∧
        caller.Reassigned (q.orders f b) (q'.orders f b)) ∧
      (¬calls f b → q'.orders f b = q.orders f b) := by
  obtain ⟨q', done⟩ := pass.total fun f b called =>
    (dispatches.reassigned fits part pass called).2.imp fun _ sensible => sensible.1
  refine ⟨q', done, fun f b => ?_⟩
  rcases pass.cells done f b with ⟨called, left⟩ | ⟨uncalled, kept⟩
  · obtain ⟨range, o, reassigned, sensible⟩ := dispatches.reassigned fits part pass called
    obtain rfl := Option.some.inj (left.symm.trans reassigned)
    exact ⟨fun _ => ⟨range, sensible⟩, fun uncalled => absurd called uncalled⟩
  · exact ⟨fun called => absurd called uncalled, fun _ => kept⟩

/-- What the packets of a fleet have in common. -/
structure Honoured (packet : NetworkPacket kFloors) : Prop where
  /-- Built by an active elevator. -/
  honest : Honest packet
  /-- Confirmed orders are assigned to elevators of the cluster. -/
  orders : ∀ f b, (packet.orders f b).Assigned
  /-- So are the backups. -/
  cabButtonOrders : ∀ e f, (packet.cabButtonOrders e f).Assigned

/-- Such a packet carries nothing else to be merged. -/
theorem Honoured.merges {p : Peers kFloors} {packet : ReceivedPacket kFloors}
    (honoured : Honoured packet.toNetworkPacket) {o rcv : Order} (merges : p.Merges packet o rcv) :
    rcv.Assigned := by
  cases merges with
  | hall f _ => exact honoured.orders f _
  | cab f => exact honoured.cabButtonOrders _ f
  | backup f => exact honoured.cabButtonOrders _ f
  | sender f => exact honoured.orders f _

/-- Every received state is at a floor of the building. -/
theorem placed_of_received (packet : ReceivedPacket kFloors) : packet.state.Placed := by
  have checked := packet.checked
  simp only [NetworkPacket.valid, ElevatorState.valid, Bool.and_eq_true, decide_eq_true_eq] at checked
  obtain ⟨⟨⟨-, ⟨-, lower⟩, upper⟩, -⟩, -⟩ := checked
  exact ⟨by omega, upper⟩

namespace Dispatches

variable {p : Peers kFloors}

/-- A new process. -/
theorem fresh (i : Fin kElevs) : ({ nodeId := i } : Peers kFloors).Dispatches where
  watching := ⟨fun _ running => absurd running Bool.false_ne_true, fun _ _ => rfl, .inl rfl⟩
  assigned := assigned_default i
  placed := fun _ => ⟨le_rfl, by change (-1 : Int) < kFloors; omega⟩
  reconciled := .inr fun _ _ _ running => absurd running Bool.false_ne_true

/-- Presses leave confirmed orders alone. -/
theorem syncButtonSignals (dispatches : p.Dispatches) (signals : BoolTable kFloors) :
    (p.syncButtonSignals signals).Dispatches := by
  obtain ⟨watching, assigned, placed, reconciled⟩ := dispatches
  refine ⟨⟨watching.watched, watching.inactive, watching.own⟩, assigned.syncButtonSignals signals,
    placed, reconciled.imp id fun own f b hall running => ?_⟩
  obtain ⟨confirmed, self⟩ := own f b hall running
  have kept : (p.syncButtonSignals signals).orders f b = p.orders f b := by
    have underway := Order.onRequest_of_underway p.nodeId.val
      (show ¬((p.orders f b).status = .none ∨ (p.orders f b).status = .clear) by simp [confirmed])
    simp only [Peers.syncButtonSignals, if_neg hall, underway, ite_self]
  rw [kept]
  exact ⟨confirmed, self⟩

/-- Publishing the own state. -/
theorem copyOwnState (dispatches : p.Dispatches) {own : ElevatorState kFloors}
    (presents : Presents p.nodeId own) : (p.copyOwnState own).Dispatches := by
  obtain ⟨watching, assigned, placed, reconciled⟩ := dispatches
  refine ⟨watching.copyOwnState presents.ownState, ⟨assigned.orders, assigned.cabButtonOrders⟩,
    fun e => ?_, reconciled.imp ?_ id⟩
  · by_cases self : e = p.nodeId
    · subst self
      have state : (p.copyOwnState own).allStates p.nodeId = own := Function.update_self _ _ _
      obtain ⟨lower, upper⟩ := presents.inside
      rw [state]
      exact ⟨by omega, upper⟩
    · have state : (p.copyOwnState own).allStates e = p.allStates e := Function.update_of_ne self _ _
      rw [state]
      exact placed e
  · rintro ⟨e, apart, active⟩
    have state : (p.copyOwnState own).allStates e = p.allStates e := Function.update_of_ne apart _ _
    exact ⟨e, apart, by rwa [state]⟩

/-- A step reconciles the timers with the orders. -/
theorem step (dispatches : p.Dispatches) (serves : p.Serves) {p' : Peers kFloors} {now : StepClock kFloors}
    (done : p.step now = some p') : p'.Dispatches := by
  have advances := advances_step done
  refine ⟨dispatches.watching.step serves.presents.ownState.2.1 done,
    dispatches.assigned.advances advances, dispatches.placed.advances advances,
    .inr fun f b hall running => ?_⟩
  obtain ⟨watched, faulted, timed, -, -, -, rfl⟩ := step_cases done
  rw [orders_of_controlHallOrderTimers timed now hall]
  exact (timed_controlHallOrderTimers timed now hall).1 running

/-- Clearing an order stops its timer. -/
theorem clearOrders (dispatches : p.Dispatches) (floor : Fin kFloors) (b2c : ButtonFlags) :
    (p.clearOrders floor b2c).Dispatches := by
  obtain ⟨watching, assigned, placed, reconciled⟩ := dispatches
  refine ⟨⟨watching.watched, watching.inactive, watching.own⟩, assigned.clearOrders floor b2c,
    placed, reconciled.imp id fun own f b hall running => ?_⟩
  have timer : ¬(f = floor ∧ b2c b = true ∧ b ≠ .cab ∧ (p.orders f b).assignedId = p.nodeId.val) ∧
      (p.orderTimers f b).active = true := by
    simp only [Peers.clearOrders] at running
    split_ifs at running with cleared
    · exact absurd running Bool.false_ne_true
    · exact ⟨cleared, running⟩
  obtain ⟨confirmed, self⟩ := own f b hall timer.2
  have untouched : ¬(f = floor ∧ b2c b = true) := fun cleared =>
    timer.1 ⟨cleared.1, cleared.2, hall, self⟩
  have kept : (p.clearOrders floor b2c).orders f b = p.orders f b := if_neg untouched
  rw [kept]
  exact ⟨confirmed, self⟩

/-- A packet brings its sender into the view. -/
theorem rxPacketProcessing (dispatches : p.Dispatches) {packet : ReceivedPacket kFloors}
    (honoured : Honoured packet.toNetworkPacket) (foreign : packet.sender ≠ p.nodeId) (now : Nat) :
    (p.rxPacketProcessing now packet).Dispatches := by
  obtain ⟨watching, assigned, placed, -⟩ := dispatches
  refine ⟨watching.rxPacketProcessing honoured.honest foreign,
    assigned.rxPacketProcessing foreign now fun _ _ merges _ => honoured.merges merges,
    fun e => ?_, .inl ⟨packet.sender, ?_, ?_⟩⟩
  · rw [allStates_rxPacketProcessing foreign]
    by_cases sender : e = packet.sender
    · subst sender
      rw [Function.update_self]
      unfold ElevatorState.onUpdate
      split_ifs
      · exact placed _
      · exact placed_of_received packet
    · rw [Function.update_of_ne sender]
      exact placed e
  · rw [rxPacketProcessing_nodeId]
    exact foreign
  · rw [allStates_rxPacketProcessing foreign, Function.update_self]
    exact watching.sender_active honoured.honest _

/-- A packet of a node that has published its state. -/
theorem txPacketCopy (dispatches : p.Dispatches) (serves : p.Serves) : Honoured p.txPacketCopy :=
  ⟨fun _ => serves.presents.ownState.2, dispatches.assigned.orders,
    dispatches.assigned.cabButtonOrders⟩

/-- What the nodes of a fleet rely on, they keep. -/
theorem rule : PeersRule (@Dispatches kFloors) Honoured where
  fresh := fresh
  press dispatches := dispatches.syncButtonSignals _
  publish dispatches presents := dispatches.copyOwnState presents
  step dispatches serves done := dispatches.step serves done
  clear dispatches := dispatches.clearOrders _ _
  receive dispatches honoured foreign := dispatches.rxPacketProcessing honoured foreign _
  transmit dispatches serves := dispatches.txPacketCopy serves

end Dispatches

end Peers

open Peers

/-- After every run of a fleet, a node on its way to `Peers::Step`, also one that is being launched,
dispatches when it gets there. -/
theorem Fleet.Launched.dispatching {start s : Fleet kFloors} (launched : start.Launched)
    {trace : List (Transition (Fleet kFloors) (FleetRestartAction kFloors))}
    (run : Run FleetRestartStep start trace s) {i : Fin kElevs} {n : ElevatorNode kFloors}
    (stepping : n = s.node i ∨ ∃ initial : Signals kFloors, initial.AtFloor ∧ n = .init i initial)
    (signals : Signals kFloors) : (n.synced signals).Serving Dispatches i := by
  have ready : n.Ready Dispatches i := by
    rcases stepping with rfl | ⟨initial, atFloor, rfl⟩
    · exact ((launched.serving Dispatches.rule run).node i).ready
    · exact ElevatorNode.ready_init Dispatches.rule i atFloor
  exact ready.synced Dispatches.rule signals

/-- Its step ends. -/
theorem ElevatorNode.Serving.step_total {n : ElevatorNode kFloors} {i : Fin kElevs}
    (serving : n.Serving Dispatches i) (fits : CostsFit kFloors) (now : StepClock kFloors) :
    ∃ p', n.peers.step now = some p' :=
  serving.serves.takesPart.step_total fits (fun f b _ => serving.holds.assigned.orders f b) now

/-- In every run of a fleet, whenever a node, also one that is being launched, gets to
`Peers::Step`, the step ends, and it changes a confirmed hall order only by a call of
`ReassignHallOrder`. Every pass of the step that calls the function ends; it finds every order it calls
for assigned in range, and leaves it confirmed, one version later, with an active elevator, which is
another one if the assignee is not usable and somebody else is active; and it leaves all other orders
as they are. -/
theorem reassignments_sensible (fits : CostsFit kFloors) {start s : Fleet kFloors}
    (launched : start.Launched)
    {trace : List (Transition (Fleet kFloors) (FleetRestartAction kFloors))}
    (run : Run FleetRestartStep start trace s) {i : Fin kElevs} {n : ElevatorNode kFloors}
    (stepping : n = s.node i ∨ ∃ initial : Signals kFloors, initial.AtFloor ∧ n = .init i initial)
    (signals : Signals kFloors) (now : StepClock kFloors) :
    (∃ p', (n.synced signals).peers.step now = some p' ∧ ∀ f b, b ≠ .cab →
      ((n.synced signals).peers.orders f b).status = .confirmed →
        p'.orders f b = (n.synced signals).peers.orders f b ∨
          (n.synced signals).peers.CalledFor now f b) ∧
      ∀ q caller result calls, (n.synced signals).peers.MonitorPass now q caller result calls →
        ∃ q', result = some q' ∧ ∀ f b,
          (calls f b → (0 ≤ (q.orders f b).assignedId ∧ (q.orders f b).assignedId < kElevs) ∧
            caller.Reassigned (q.orders f b) (q'.orders f b)) ∧
          (¬calls f b → q'.orders f b = q.orders f b) := by
  have serving := launched.dispatching run stepping signals
  obtain ⟨p', done⟩ := serving.step_total fits now
  refine ⟨⟨p', done, fun f b hall confirmed => calledFor_of_step done hall confirmed⟩, ?_⟩
  exact fun q caller result calls pass =>
    serving.holds.pass_ends fits serving.serves.takesPart pass

/-- A run after which node 0 finds an order confirmed to node 1, and node 1 silent. -/
theorem reassignments_sensible_silent : ∃ trace s q q', Run FleetRestartStep Fleet.atBottom trace s ∧
    [0].foldlM (monitorWatchdogTimer (.still 2000))
      ((s.node 0).synced { floorSensor := 0 }).peers.updateNumElevs = some q ∧
    q.monitorWatchdogTimer (.still 2000) 1 = some q' ∧ (q.orders 3 .hallUp).assignedId = 1 ∧
    (q.silenced 1).Reassigned (q.orders 3 .hallUp) (q'.orders 3 .hallUp) := by
  let press : Signals Config.kFloors := { floorSensor := 0, buttons := BoolTable.only 3 .hallUp }
  let actions : List (FleetRestartAction Config.kFloors) := [.run (.sync 1 (.still 40) press),
    .run (.transmit 1), .run (.receive 0 0 60)]
  have evaluated : (actions.foldlM Fleet.execRestart Fleet.atBottom).any (fun s =>
      ([0].foldlM (monitorWatchdogTimer (.still 2000))
        ((s.node 0).synced { floorSensor := 0 }).peers.updateNumElevs).any fun q =>
          decide (watchdogDue (.still 2000) q 1 = true ∧ (q.orders 3 .hallUp).status = .confirmed ∧
            (q.orders 3 .hallUp).assignedId = 1)) = true := by decide
  obtain ⟨trace, s, run, -, reached⟩ := Run.of_check FleetRestartStep id evaluated
  obtain ⟨q, reached, found⟩ := (Option.any_eq_true _ _).1 reached
  obtain ⟨silent, confirmed, assigned⟩ := of_decide_eq_true found
  obtain ⟨-, passes⟩ := reassignments_sensible costsFit_config Fleet.launched_atBottom run (.inl rfl)
    { floorSensor := 0 } (.still 2000)
  obtain ⟨q', done, cells⟩ := passes _ _ _ _ (@MonitorPass.watchdog _ _ _ _ [0] [2, 3] 1 rfl reached)
  exact ⟨trace, s, q, q', run, reached, done, assigned,
    ((cells 3 .hallUp).1 ⟨silent, by decide, confirmed, assigned⟩).2⟩

end CppElevator
