import CppElevator.Verif.ClusterCells

/-!
# Confirmed orders and live elevators

Every pass that gives an order an assignee gives it one that is active in the view of the node,
and the watchdog pass takes orders away from the elevator that has just fallen silent. Orders of
an elevator that was inactive before can only enter by a merge, where nothing examines the
assignee.
-/
namespace CppElevator

open Library

variable {kFloors : Nat}

namespace Peers

open Config

/-- An elevator whose cost is not that of an inactive one is active. -/
theorem active_of_elevatorCost {s : ElevatorState kFloors} (floor : Fin kFloors)
    (finite : elevatorCost s floor ≠ intMax) : s.active = true := by
  by_contra inactive
  exact finite (if_neg inactive)

/-- The costs are those of the elevators they are listed with. -/
theorem cost_of_mem {p : Peers kFloors} {floor : Fin kFloors} {c : Int × Fin kElevs}
    (listed : c ∈ p.calculateElevatorCosts floor) : c.1 = elevatorCost (p.allStates c.2) floor := by
  have unsorted := (List.mem_insertionSort CostLe).1 listed
  obtain ⟨e, _, rfl⟩ := List.mem_map.1 unsorted
  rfl

/-- A new assignee is active. -/
theorem active_of_newAssignee {p : Peers kFloors} {floor : Fin kFloors} {prev e : Fin kElevs}
    (found : p.newAssignee floor prev = some e) : (p.allStates e).active = true := by
  have listed {q : Int × Fin kElevs → Bool} {c : Int × Fin kElevs}
      (picked : (p.calculateElevatorCosts floor).find? q = some c) (finite : c.1 ≠ intMax) :
      (p.allStates c.2).active = true := by
    apply active_of_elevatorCost floor
    rwa [← cost_of_mem (List.mem_of_find?_eq_some picked)]
  unfold newAssignee at found
  dsimp only at found
  by_cases unusable : (p.allStates prev).usable = false
  · rw [if_pos unusable] at found
    cases picked : (p.calculateElevatorCosts floor).find?
        fun c => decide (c.2 ≠ prev ∧ c.1 ≠ intMax) with
    | none =>
      simp only [picked, Option.map_none] at found
      split_ifs at found with stays
      obtain rfl := Option.some.inj found
      exact stays
    | some c =>
      simp only [picked, Option.map_some] at found
      obtain rfl := Option.some.inj found
      have chosen := List.find?_some picked
      rw [decide_eq_true_eq] at chosen
      exact listed picked chosen.2
  · rw [if_neg unusable] at found
    obtain rfl := Option.some.inj found
    cases picked : (p.calculateElevatorCosts floor).find? fun c =>
        decide (c.2 ≠ prev ∧ c.1 ≠ intMax ∧ (p.allStates c.2).usable = true) with
    | none =>
      have usable : (p.allStates prev).usable = true := by simpa using unusable
      simp only [ElevatorState.usable, Bool.and_eq_true] at usable
      exact usable.1.1.1
    | some c =>
      have chosen := List.find?_some picked
      rw [decide_eq_true_eq] at chosen
      exact listed picked chosen.2.1

/-- A confirmed order is assigned to an elevator active in the view. -/
def LiveOrder (p : Peers kFloors) (o : Order) : Prop :=
  o.status = .confirmed → ∃ e : Fin kElevs, o.assignedId = e.val ∧ (p.allStates e).active = true

/-- Every confirmed hall order is assigned to an elevator active in the view. -/
def Live (p : Peers kFloors) : Prop := ∀ f b, b ≠ .cab → p.LiveOrder (p.orders f b)

/-- A reassigned order goes to an active elevator; a node that is alone keeps the assignee. -/
theorem assignee_of_reassignHallOrder {p : Peers kFloors} {floor : Fin kFloors} {o o' : Order}
    (done : p.reassignHallOrder floor o = some o') :
    p.numElevs = 1 ∧ o'.assignedId = o.assignedId ∨
      ∃ e : Fin kElevs, o'.assignedId = e.val ∧ (p.allStates e).active = true := by
  unfold reassignHallOrder at done
  split_ifs at done with range single
  · obtain rfl := Option.some.inj done
    refine .inl ⟨single, ?_⟩
    dsimp only [Order.onReassignment]
    omega
  · obtain ⟨e, found, rfl⟩ := Option.map_eq_some_iff.1 done
    exact .inr ⟨e, rfl, active_of_newAssignee found⟩

/-- A reassignment with its timer leaves a live order, unless a node that is alone reassigns the
order of a dead one. -/
theorem live_of_reassignCell {p : Peers kFloors} {now : Nat} {floor : Fin kFloors}
    {cell cell' : Order × Timer} (done : p.reassignCell now floor cell = some cell')
    (alone : p.numElevs = 1 →
      ∃ e : Fin kElevs, cell.1.assignedId = e.val ∧ (p.allStates e).active = true) :
    p.LiveOrder cell'.1 := by
  obtain ⟨o, reassigned, rfl⟩ := Option.map_eq_some_iff.1 done
  intro _
  rcases assignee_of_reassignHallOrder reassigned with ⟨single, same⟩ | live
  · rw [same]
    exact alone single
  · exact live

/-- A pass whose body leaves live orders leaves all orders live. -/
theorem live_of_forHall {p p' : Peers kFloors}
    {body : Fin kFloors × BtnType → Order × Timer → Option (Order × Timer)}
    (done : p.forHall body = some p')
    (keeps : ∀ f b cell, b ≠ .cab → body (f, b) (p.cell (f, b)) = some cell → p.LiveOrder cell.1) :
    p'.Live := by
  obtain ⟨outside, -, hall⟩ := forHall_spec done
  intro f b isHall
  have live := keeps f b _ isHall (hall f b isHall)
  rw [outside]
  exact live

/-- `ReassignHallOrders` moves every order of an elevator to an active one. -/
theorem live_reassignHallOrders {p p' : Peers kFloors} {now : Fin kFloors × BtnType → Nat}
    {e : Fin kElevs} (done : p.reassignHallOrders now e = some p')
    (others : ∀ f b, b ≠ .cab → (p.orders f b).assignedId ≠ e.val → p.LiveOrder (p.orders f b))
    (alone : p.numElevs = 1 → (p.allStates e).active = true) : p'.Live := by
  refine live_of_forHall done fun f b cell hall body => ?_
  dsimp only at body
  split_ifs at body with other elsewhere
  · rw [← Option.some.inj body]
    exact fun confirmed => absurd confirmed other
  · rw [← Option.some.inj body]
    exact others f b hall elsewhere
  · exact live_of_reassignCell body fun single => ⟨e, not_not.1 elsewhere, alone single⟩

/-- What every node keeps about its view of the others. -/
structure Watching (p : Peers kFloors) : Prop where
  /-- A running watchdog guards another elevator, one that is active in the view. -/
  watched : ∀ e, (p.watchdogTimers e).active = true → e ≠ p.nodeId ∧ (p.allStates e).active = true
  /-- An inactive elevator has version 0, so that any packet of its own replaces its state. -/
  inactive : ∀ e, (p.allStates e).active = false → (p.allStates e).version = 0
  /-- The node's own state is the default one or that of an initialised elevator. -/
  own : (p.allStates p.nodeId).id = -1 ∨ OwnState p.nodeId (p.allStates p.nodeId)

/-- What the passes of a step keep. -/
structure Stepping (p : Peers kFloors) : Prop where
  /-- The view of the others. -/
  watching : p.Watching
  /-- A node with a running watchdog has counted the guarded elevator besides itself. -/
  counted : ∀ e, (p.watchdogTimers e).active = true → p.numElevs ≠ 1

/-- A node whose cells alone change watches the others as before. -/
theorem Watching.withCells {p p' : Peers kFloors} (watching : p.Watching)
    (outside : p' = p.withCells p'.cell) : p'.Watching := by
  rw [outside]
  exact ⟨watching.watched, watching.inactive, watching.own⟩

/-- A running watchdog after one was stopped. -/
theorem silenced_watchdog {p : Peers kFloors} {e i : Fin kElevs}
    (timed : ((p.silenced e).watchdogTimers i).active = true) :
    i ≠ e ∧ (p.watchdogTimers i).active = true := by
  by_cases same : i = e
  · subst same
    simp [silenced] at timed
  · simp only [silenced, Function.update_of_ne same] at timed
    exact ⟨same, timed⟩

/-- The states of the others stay. -/
theorem silenced_allStates {p : Peers kFloors} {e i : Fin kElevs} (same : i ≠ e) :
    (p.silenced e).allStates i = p.allStates i := Function.update_of_ne same _ _

/-- A node that takes another elevator out of its view watches on. -/
theorem Watching.silenced {p : Peers kFloors} {e : Fin kElevs} (watching : p.Watching)
    (apart : e ≠ p.nodeId) : (p.silenced e).Watching := by
  refine ⟨fun i timed => ?_, fun i dead => ?_, ?_⟩
  · obtain ⟨same, timed⟩ := silenced_watchdog timed
    rw [silenced_allStates same]
    exact watching.watched i timed
  · by_cases same : i = e
    · subst same
      simp [Peers.silenced, ElevatorState.onWatchdogTimeout]
    · rw [silenced_allStates same] at dead ⊢
      exact watching.inactive i dead
  · have own := silenced_allStates (p := p) apart.symm
    rw [show (p.silenced e).nodeId = p.nodeId from rfl, own]
    exact watching.own

/-- One iteration of the watchdog pass. -/
theorem Stepping.monitorWatchdogTimer {p p' : Peers kFloors} {now : StepClock kFloors} {e : Fin kElevs}
    (old : p.Stepping) (pass : p.monitorWatchdogTimer now e = some p') : p'.Stepping := by
  refine (monitor_watchdogs now).keeps Stepping pass old fun expired called => ?_
  have apart := (old.watching.watched e (Timer.active_of_expired expired)).1
  have outside := (forHall_spec called).1
  refine ⟨(old.watching.silenced apart).withCells outside, fun i timed => ?_⟩
  rw [outside] at timed ⊢
  exact old.counted i (silenced_watchdog timed).2

/-- One iteration of the watchdog pass takes the orders of a silent elevator away from it. -/
theorem Live.monitorWatchdogTimer {p p' : Peers kFloors} {now : StepClock kFloors} {e : Fin kElevs}
    (live : p.Live) (stepping : p.Stepping) (pass : p.monitorWatchdogTimer now e = some p') :
    p'.Live := by
  refine (monitor_watchdogs now).keeps Live pass live fun expired called => ?_
  apply live_reassignHallOrders called
  · intro f b hall elsewhere confirmed
    obtain ⟨i, assigned, active⟩ := live f b hall confirmed
    have same : i ≠ e := by
      rintro rfl
      exact elsewhere assigned
    exact ⟨i, assigned, by rwa [silenced_allStates same]⟩
  · exact fun single => absurd single (stepping.counted e (Timer.active_of_expired expired))

/-- One iteration of the fault pass. -/
theorem Stepping.monitorFaultOf {p p' : Peers kFloors} {now : StepClock kFloors} {e : Fin kElevs}
    (old : p.Stepping) (pass : p.monitorFaultOf now e = some p') : p'.Stepping := by
  refine (monitor_faults now).keeps Stepping pass old fun _ called => ?_
  have outside := (forHall_spec called).1
  refine ⟨old.watching.withCells outside, fun i timed => ?_⟩
  rw [outside] at timed ⊢
  exact old.counted i timed

/-- One iteration of the fault pass moves orders to active elevators. -/
theorem Live.monitorFaultOf {p p' : Peers kFloors} {now : StepClock kFloors} {e : Fin kElevs}
    (live : p.Live) (pass : p.monitorFaultOf now e = some p') : p'.Live := by
  refine (monitor_faults now).keeps Live pass live fun faulty called => ?_
  apply live_reassignHallOrders called
  · exact fun f b hall _ => live f b hall
  · exact fun _ => (Bool.and_eq_true_iff.1 faulty).1

/-- A total pass that leaves live orders leaves all orders live. -/
theorem live_mapHall (p : Peers kFloors)
    {body : Fin kFloors × BtnType → Order × Timer → Order × Timer}
    (keeps : ∀ f b, b ≠ .cab → p.LiveOrder (body (f, b) (p.orders f b, p.orderTimers f b)).1) :
    (p.mapHall body).Live := by
  intro f b hall
  rw [orders_mapHall _ _ _ hall]
  exact keeps f b hall

/-- `ObserveOrders` confirms nothing. -/
theorem Live.observeOrders {p : Peers kFloors} (live : p.Live) : p.observeOrders.Live := by
  refine p.live_mapHall fun f b hall => ?_
  dsimp only
  split_ifs
  · exact live f b hall
  · exact live f b hall
  · exact live f b hall

/-- `ConfirmHallOrders` confirms orders to active elevators. -/
theorem Live.confirmHallOrders {p : Peers kFloors} (live : p.Live) (now : StepClock kFloors) :
    (p.confirmHallOrders now).Live := by
  refine p.live_mapHall fun f b hall => ?_
  dsimp only
  split_ifs with blocked
  · exact live f b hall
  · cases costs : p.calculateElevatorCosts f with
    | nil => exact live f b hall
    | cons best others =>
      obtain ⟨cost, best⟩ := best
      dsimp only
      by_cases infinite : cost = intMax
      · rw [if_pos infinite]
        exact live f b hall
      · obtain ⟨_, requested⟩ := not_or.1 blocked
        rw [if_neg infinite, Order.onConfirm_of_requested _ (not_not.1 requested)]
        refine fun _ => ⟨best, rfl, active_of_elevatorCost f ?_⟩
        have listed : (cost, best) ∈ p.calculateElevatorCosts f := by simp [costs]
        rwa [← cost_of_mem listed]

/-- `ResetHallOrders` confirms nothing. -/
theorem Live.resetHallOrders {p : Peers kFloors} (live : p.Live) : p.resetHallOrders.Live := by
  refine p.live_mapHall fun f b hall => ?_
  by_cases clear : (p.orders f b).status = .clear
  · dsimp only
    rw [Order.onReset_of_clear clear]
    exact nofun
  · dsimp only
    rw [Order.onReset_of_not_clear clear]
    exact live f b hall

/-- `MonitorHallOrderTimers` moves orders to active elevators. -/
theorem Live.monitorHallOrderTimers {p p' : Peers kFloors} (live : p.Live) {now : StepClock kFloors}
    (done : p.monitorHallOrderTimers now = some p') : p'.Live := by
  refine live_of_forHall done fun f b cell hall body => ?_
  dsimp only at body
  split_ifs at body with running other
  · rw [← Option.some.inj body]
    exact live f b hall
  · rw [← Option.some.inj body]
    exact live f b hall
  · exact live_of_reassignCell body fun _ => live f b hall (not_not.1 other)

/-- `ControlHallOrderTimers` touches no order. -/
theorem Live.controlHallOrderTimers {p : Peers kFloors} (live : p.Live) (now : StepClock kFloors) :
    (p.controlHallOrderTimers now).Live := by
  refine p.live_mapHall fun f b hall => ?_
  dsimp only
  split_ifs <;> exact live f b hall

/-- Two active elevators are counted twice. -/
theorem numElevs_ne_one {p : Peers kFloors} {i j : Fin kElevs} (apart : i ≠ j)
    (first : (p.allStates i).active = true) (second : (p.allStates j).active = true) :
    p.updateNumElevs.numElevs ≠ 1 := by
  intro single
  have counted : ((List.finRange kElevs).filter fun e => (p.allStates e).active).length = 1 := by
    rw [← List.countP_eq_length_filter]
    exact single
  obtain ⟨e, only⟩ := List.length_eq_one_iff.1 counted
  have member {k : Fin kElevs} (active : (p.allStates k).active = true) : k = e := by
    have listed : k ∈ (List.finRange kElevs).filter fun e => (p.allStates e).active :=
      List.mem_filter.2 ⟨List.mem_finRange k, active⟩
    rwa [only, List.mem_singleton] at listed
  exact apart ((member first).trans (member second).symm)

/-- Counting the active elevators prepares a node that takes part itself for its passes. -/
theorem Watching.stepping {p : Peers kFloors} (watching : p.Watching)
    (own : (p.allStates p.nodeId).active = true) : p.updateNumElevs.Stepping := by
  refine ⟨⟨watching.watched, watching.inactive, watching.own⟩, fun e running => ?_⟩
  obtain ⟨apart, active⟩ := watching.watched e running
  exact numElevs_ne_one apart active own

/-- A step of a node that takes part itself. -/
theorem Watching.step {p p' : Peers kFloors} {now : StepClock kFloors} (watching : p.Watching)
    (own : (p.allStates p.nodeId).active = true) (done : p.step now = some p') : p'.Watching := by
  obtain ⟨watched, faulted, timed, watch, fault, timers, rfl⟩ := step_cases done
  have afterWatch := invariant_of_foldlM Stepping (fun pass old => old.monitorWatchdogTimer pass)
    watch (watching.stepping own)
  have afterFault := invariant_of_foldlM Stepping (fun pass old => old.monitorFaultOf pass)
    fault afterWatch
  have outside := (forHall_spec timers).1
  have kept : timed.Watching := by
    refine Watching.withCells (p := faulted) afterFault.watching ?_
    rw [outside]
    rfl
  exact ⟨kept.watched, kept.inactive, kept.own⟩

/-- A step of a node that takes part itself leaves every confirmed hall order with an active
elevator. -/
theorem Live.step {p p' : Peers kFloors} {now : StepClock kFloors} (live : p.Live) (watching : p.Watching)
    (own : (p.allStates p.nodeId).active = true) (done : p.step now = some p') : p'.Live := by
  obtain ⟨watched, faulted, timed, watch, fault, timers, rfl⟩ := step_cases done
  have afterWatch := invariant_of_foldlM (fun q => q.Stepping ∧ q.Live)
    (fun pass old => ⟨old.1.monitorWatchdogTimer pass, old.2.monitorWatchdogTimer old.1 pass⟩)
    watch ⟨watching.stepping own, live⟩
  have afterFault := invariant_of_foldlM Live (fun pass old => old.monitorFaultOf pass)
    fault afterWatch.2
  exact ((afterFault.observeOrders.confirmHallOrders now).resetHallOrders.monitorHallOrderTimers
    timers).controlHallOrderTimers now

/-- Publishing the own state of an initialised elevator. -/
theorem Watching.copyOwnState {p : Peers kFloors} (watching : p.Watching)
    {own : ElevatorState kFloors} (valid : OwnState p.nodeId own) :
    (p.copyOwnState own).Watching := by
  refine ⟨fun e running => ?_, fun e dead => ?_, ?_⟩
  · obtain ⟨apart, active⟩ := watching.watched e running
    refine ⟨apart, ?_⟩
    simpa only [Peers.copyOwnState, Function.update_of_ne apart] using active
  · by_cases self : e = p.nodeId
    · subst self
      simp only [Peers.copyOwnState, Function.update_self, valid.2.1] at dead
      cases dead
    · simp only [Peers.copyOwnState, Function.update_of_ne self] at dead ⊢
      exact watching.inactive e dead
  · right
    simpa only [Peers.copyOwnState, Function.update_self] using valid

/-- A packet as an initialised elevator builds it. -/
def Honest (packet : NetworkPacket kFloors) : Prop :=
  packet.valid = true → packet.state.active = true ∧ 0 < packet.state.version

/-- The sender of an honest packet is active once the packet is processed. -/
theorem Watching.sender_active {p : Peers kFloors} (watching : p.Watching)
    {packet : ReceivedPacket kFloors} (honest : Honest packet.toNetworkPacket) (e : Fin kElevs) :
    ((p.allStates e).onUpdate packet.state).active = true := by
  obtain ⟨active, version⟩ := honest packet.checked
  unfold ElevatorState.onUpdate
  split_ifs with stale
  · by_contra dead
    have zero := watching.inactive e (by simpa using dead)
    omega
  · exact active

/-- The states after processing a foreign packet. -/
theorem allStates_rxPacketProcessing {p : Peers kFloors} {now : Nat}
    {packet : ReceivedPacket kFloors} (foreign : packet.sender ≠ p.nodeId) :
    (p.rxPacketProcessing now packet).allStates = Function.update p.allStates packet.sender
      ((p.allStates packet.sender).onUpdate packet.state) := by
  simp only [rxPacketProcessing, if_neg foreign]

/-- The watchdogs after processing a foreign packet. -/
theorem watchdogTimers_rxPacketProcessing {p : Peers kFloors} {now : Nat}
    {packet : ReceivedPacket kFloors} (foreign : packet.sender ≠ p.nodeId) :
    (p.rxPacketProcessing now packet).watchdogTimers =
      Function.update p.watchdogTimers packet.sender (.start now kWatchdogTimeMs) := by
  simp only [rxPacketProcessing, if_neg foreign, updateWatchdogTimer]

/-- Processing an honest packet. -/
theorem Watching.rxPacketProcessing {p : Peers kFloors} (watching : p.Watching) {now : Nat}
    {packet : ReceivedPacket kFloors} (honest : Honest packet.toNetworkPacket)
    (foreign : packet.sender ≠ p.nodeId) : (p.rxPacketProcessing now packet).Watching := by
  have node : (p.rxPacketProcessing now packet).nodeId = p.nodeId := by
    simp only [Peers.rxPacketProcessing, if_neg foreign, updateWatchdogTimer]
  refine ⟨fun e running => ?_, fun e dead => ?_, ?_⟩
  · rw [node, allStates_rxPacketProcessing foreign]
    rw [watchdogTimers_rxPacketProcessing foreign] at running
    by_cases sender : e = packet.sender
    · subst sender
      rw [Function.update_self]
      exact ⟨foreign, watching.sender_active honest _⟩
    · rw [Function.update_of_ne sender] at running ⊢
      exact watching.watched e running
  · rw [allStates_rxPacketProcessing foreign] at dead ⊢
    by_cases sender : e = packet.sender
    · subst sender
      rw [Function.update_self, watching.sender_active honest] at dead
      cases dead
    · rw [Function.update_of_ne sender] at dead ⊢
      exact watching.inactive e dead
  · rw [node, allStates_rxPacketProcessing foreign, Function.update_of_ne foreign.symm]
    exact watching.own

end Peers

/-- Every node watches the others, and every packet was built by one of the nodes. -/
structure AllWatching (s : Cluster kFloors) : Prop where
  /-- Identities of the nodes. -/
  ids : s.Identified
  /-- The nodes. -/
  node : ∀ i, (s.node i).Watching
  /-- The packets. -/
  sent : ∀ packet ∈ s.sent, Peers.Honest packet

/-- Replacing one node. -/
theorem AllWatching.setNode {s : Cluster kFloors} (old : AllWatching s) {i : Fin kElevs}
    {p : Peers kFloors} (ids : (s.setNode i p).Identified) (watching : p.Watching) :
    AllWatching (s.setNode i p) :=
  ⟨ids, Cluster.forall_setNode (fun _ p => p.Watching) old.node watching, old.sent⟩

/-- No step and no crash makes a node lose sight of the others. -/
theorem AllWatching.step {s s' : Cluster kFloors} {action : RestartAction kFloors}
    (old : AllWatching s) (step : RestartStep s action s') : AllWatching s' := by
  have ids := old.ids.restart step
  cases action with
  | crash i =>
    obtain rfl := Option.some.inj step
    exact old.setNode ids ⟨nofun, fun _ _ => rfl, .inl rfl⟩
  | run action =>
    rcases clusterStep_cases step with ⟨i, signals, -, rfl⟩ | ⟨i, own, now, p, -, valid, stepped, rfl⟩ |
      ⟨i, own, floor, b2c, -, valid, rfl⟩ | ⟨i, -, rfl⟩ |
      ⟨i, position, now, packet, -, sent, rfl | ⟨received, arrived, rfl⟩⟩
    · have watching := old.node i
      exact old.setNode ids ⟨watching.watched, watching.inactive, watching.own⟩
    · have published := (old.node i).copyOwnState (by rwa [← old.ids i] at valid)
      have active : (((s.node i).copyOwnState own).allStates (s.node i).nodeId).active = true := by
        simp only [Peers.copyOwnState, Function.update_self, valid.2.1]
      exact old.setNode ids (published.step active stepped)
    · have watching := old.node i
      have cleared : ((s.node i).clearOrders floor b2c).Watching :=
        ⟨watching.watched, watching.inactive, watching.own⟩
      exact old.setNode ids (cleared.copyOwnState (by rwa [← old.ids i] at valid))
    · refine ⟨ids, old.node, fun packet sent => ?_⟩
      rcases List.mem_append.1 sent with earlier | now
      · exact old.sent packet earlier
      · obtain rfl := List.mem_singleton.1 now
        intro valid
        rcases (old.node i).own with default | own
        · simp [NetworkPacket.valid, Peers.txPacketCopy, NetworkPacket.init, default] at valid
        · exact ⟨own.2.1, own.2.2⟩
    · exact old
    · have honest := old.sent _ (List.mem_of_getElem? sent)
      rw [← eq_of_recievePacket arrived] at honest
      apply old.setNode ids
      by_cases foreign : received.sender = (s.node i).nodeId
      · rw [Peers.rxPacketProcessing_own foreign]
        exact old.node i
      · exact (old.node i).rxPacketProcessing honest foreign

/-- No node watches anything at the start. -/
theorem allWatching_initial : AllWatching (Cluster.initial : Cluster kFloors) :=
  ⟨Cluster.identified_initial, fun _ => ⟨nofun, fun _ _ => rfl, .inl rfl⟩,
    fun _ sent => absurd sent List.not_mem_nil⟩

/-- `Order::OnUpdate` takes the assignee of the received order. -/
def TakesAssignee (o rcv : Order) : Prop :=
  o.version < rcv.version ∨ rcv.version = o.version ∧
    (o.status.toNat < rcv.status.toNat ∨
      o.status = .confirmed ∧ rcv.status = .confirmed ∧ rcv.assignedId < o.assignedId)

/-- An order confirmed after a merge was confirmed in the copy its assignee comes from. -/
theorem confirmed_of_onUpdate {o rcv : Order} (confirmed : (o.onUpdate rcv).status = .confirmed) :
    (TakesAssignee o rcv ∧ rcv.status = .confirmed ∧
      (o.onUpdate rcv).assignedId = rcv.assignedId) ∨
    o.status = .confirmed ∧ (o.onUpdate rcv).assignedId = o.assignedId := by
  unfold Order.onUpdate at confirmed ⊢
  dsimp only at confirmed ⊢
  split_ifs at confirmed ⊢ with newer same raised tie
  · exact .inl ⟨.inl newer, confirmed, rfl⟩
  · exact .inl ⟨.inr ⟨same, .inl raised⟩, confirmed, rfl⟩
  · exact .inl ⟨.inr ⟨same, .inr tie⟩, tie.2.1, rfl⟩
  · exact .inr ⟨confirmed, rfl⟩
  · exact .inr ⟨confirmed, rfl⟩

/-- A delivery at node `n` takes assignees of confirmed hall orders only if they are the node
itself, the sender, or active in the node's view. -/
def AdoptsLive (n : Fin kElevs) (t : Transition (Cluster kFloors) (RestartAction kFloors)) : Prop :=
  ∀ position now, ∀ received : ReceivedPacket kFloors,
    t.action = .run (.receive n position now) →
    t.pre.sent[position]? = some received.toNetworkPacket → received.sender ≠ n →
    ∀ f b, b ≠ .cab → TakesAssignee ((t.pre.node n).orders f b) (received.orders f b) →
      (received.orders f b).status = .confirmed →
      ∃ e : Fin kElevs, (received.orders f b).assignedId = e.val ∧
        (e = n ∨ e = received.sender ∨ ((t.pre.node n).allStates e).active = true)

/-- Between steps the node itself counts as active: it is once it publishes its state. -/
def LiveApart (n : Fin kElevs) (s : Cluster kFloors) : Prop :=
  ∀ f b, b ≠ .cab → ((s.node n).orders f b).status = .confirmed →
    ∃ e : Fin kElevs, ((s.node n).orders f b).assignedId = e.val ∧
      (e = n ∨ ((s.node n).allStates e).active = true)

/-- A step of the node finds every assignee active, and leaves it so. -/
theorem live_of_nodeStep {n : Fin kElevs} {s : Cluster kFloors} {p : Peers kFloors}
    {now : StepClock kFloors} {own : ElevatorState kFloors} (watching : AllWatching s) (live : LiveApart n s)
    (valid : OwnState n own) (stepped : ((s.node n).copyOwnState own).step now = some p) :
    p.Live := by
  have node : (s.node n).nodeId = n := watching.ids n
  have active : (((s.node n).copyOwnState own).allStates (s.node n).nodeId).active = true := by
    simp only [Peers.copyOwnState, Function.update_self, valid.2.1]
  have published := (watching.node n).copyOwnState (by rwa [← node] at valid)
  refine Peers.Live.step (fun f b hall confirmed => ?_) published active stepped
  obtain ⟨e, assigned, self | view⟩ := live f b hall confirmed
  · have here : e = (s.node n).nodeId := self.trans node.symm
    exact ⟨e, assigned, here ▸ active⟩
  · refine ⟨e, assigned, ?_⟩
    by_cases self : e = (s.node n).nodeId
    · rw [self]
      exact active
    · simpa only [Peers.copyOwnState, Function.update_of_ne self] using view

/-- Replacing a node matters at the node alone. -/
theorem LiveApart.setNode {n i : Fin kElevs} {s : Cluster kFloors} {p : Peers kFloors}
    (live : LiveApart n s) (here : i = n → ∀ f b, b ≠ .cab → (p.orders f b).status = .confirmed →
      ∃ e : Fin kElevs, (p.orders f b).assignedId = e.val ∧
        (e = n ∨ (p.allStates e).active = true)) : LiveApart n (s.setNode i p) := by
  unfold LiveApart
  by_cases same : i = n
  · subst same
    rw [Cluster.setNode_node_self]
    exact here rfl
  · rw [Cluster.setNode_node_of_ne _ _ (Ne.symm same)]
    exact live

namespace Peers

/-- A hall order that is confirmed after a press was so before. -/
theorem syncButtonSignals_of_confirmed {p : Peers kFloors} {signals : BoolTable kFloors}
    {f : Fin kFloors} {b : BtnType} (hall : b ≠ .cab)
    (confirmed : ((p.syncButtonSignals signals).orders f b).status = .confirmed) :
    (p.syncButtonSignals signals).orders f b = p.orders f b := by
  simp only [syncButtonSignals, if_neg hall] at confirmed ⊢
  by_cases set : signals f b = true
  · rw [if_pos set] at confirmed ⊢
    exact Order.onRequest_of_confirmed confirmed
  · rw [if_neg set]

/-- A hall order that is confirmed after a clearing was not cleared. -/
theorem clearOrders_of_confirmed {p : Peers kFloors} {floor f : Fin kFloors} {b2c : ButtonFlags}
    {b : BtnType} (hall : b ≠ .cab)
    (confirmed : ((p.clearOrders floor b2c).orders f b).status = .confirmed) :
    (p.clearOrders floor b2c).orders f b = p.orders f b := by
  simp only [clearOrders, if_neg hall] at confirmed ⊢
  split_ifs at confirmed ⊢
  · exact absurd confirmed (Order.onClear_status_ne _)
  · rfl
  · rfl

/-- An assignee that is the node, the sender or active in the node's view is the node or active once
an honest packet is processed. -/
theorem Watching.seen {p : Peers kFloors} (watching : p.Watching) {now : Nat}
    {packet : ReceivedPacket kFloors} (honest : Honest packet.toNetworkPacket)
    (foreign : packet.sender ≠ p.nodeId) {e n : Fin kElevs}
    (view : e = n ∨ e = packet.sender ∨ (p.allStates e).active = true) :
    e = n ∨ ((p.rxPacketProcessing now packet).allStates e).active = true := by
  rw [allStates_rxPacketProcessing foreign]
  by_cases sender : e = packet.sender
  · subst sender
    rw [Function.update_self]
    exact .inr (watching.sender_active honest _)
  · rw [Function.update_of_ne sender]
    exact view.imp_right fun rest => rest.resolve_left sender

end Peers

/-- Every step keeps the assignees at node `n` active, the node itself apart. -/
theorem LiveApart.step {n : Fin kElevs} {s s' : Cluster kFloors} {action : RestartAction kFloors}
    (live : LiveApart n s) (watching : AllWatching s) (step : RestartStep s action s')
    (adopts : AdoptsLive n ⟨s, action, s'⟩) : LiveApart n s' := by
  cases action with
  | crash i =>
    obtain rfl := Option.some.inj step
    exact live.setNode fun _ _ _ _ confirmed => by cases confirmed
  | run action =>
    rcases clusterStep_cases step with ⟨i, signals, -, rfl⟩ | ⟨i, own, now, p, -, valid, stepped, rfl⟩ |
      ⟨i, own, floor, b2c, -, valid, rfl⟩ | ⟨i, -, rfl⟩ |
      ⟨i, position, now, packet, rfl, sent, rfl | ⟨received, arrived, rfl⟩⟩
    · refine live.setNode fun here f b hall confirmed => ?_
      subst here
      have same := Peers.syncButtonSignals_of_confirmed hall confirmed
      rw [same] at confirmed ⊢
      exact live f b hall confirmed
    · refine live.setNode fun here f b hall confirmed => ?_
      subst here
      obtain ⟨e, assigned, active⟩ := live_of_nodeStep watching live valid stepped f b hall confirmed
      exact ⟨e, assigned, .inr active⟩
    · refine live.setNode fun here f b hall confirmed => ?_
      subst here
      have node : ((s.node i).clearOrders floor b2c).nodeId = i := watching.ids i
      simp only [Peers.copyOwnState] at confirmed ⊢
      have same := Peers.clearOrders_of_confirmed hall confirmed
      rw [same] at confirmed ⊢
      obtain ⟨e, assigned, view⟩ := live f b hall confirmed
      refine ⟨e, assigned, ?_⟩
      by_cases self : e = i
      · exact .inl self
      · rw [node, Function.update_of_ne self]
        exact view
    · exact live
    · exact live
    · refine live.setNode fun here f b hall confirmed => ?_
      subst here
      obtain rfl := eq_of_recievePacket arrived
      by_cases own : received.sender = (s.node i).nodeId
      · rw [Peers.rxPacketProcessing_own own] at confirmed ⊢
        exact live f b hall confirmed
      have honest := watching.sent _ (List.mem_of_getElem? sent)
      rw [Peers.rxPacketProcessing_hall own hall] at confirmed ⊢
      rcases confirmed_of_onUpdate confirmed with ⟨takes, theirs, same⟩ | ⟨ours, same⟩
      · obtain ⟨e, assigned, view⟩ := adopts position now received rfl sent
          (by rwa [watching.ids i] at own) f b hall takes theirs
        exact ⟨e, same.trans assigned, (watching.node i).seen honest own view⟩
      · obtain ⟨e, assigned, view⟩ := live f b hall ours
        exact ⟨e, same.trans assigned, (watching.node i).seen honest own (view.imp_right .inr)⟩

/-- No confirmed hall order is left with a dead elevator, as long as deliveries bring none. In a run
with arbitrary crashes, losses and delays whose deliveries at node `n` take assignees of confirmed
orders only from the living, every hall order confirmed at the end of a step of `n` is assigned to
an elevator active in `n`'s view. -/
theorem confirmed_orders_live {n : Fin kElevs}
    {trace : List (Transition (Cluster kFloors) (RestartAction kFloors))} {s : Cluster kFloors}
    (run : Run RestartStep Cluster.initial trace s) (adopts : ∀ t ∈ trace, AdoptsLive n t) :
    ∀ t ∈ trace, ∀ own now, t.action = .run (.step n own now) → ∀ f b, b ≠ .cab →
      ((t.post.node n).orders f b).status = .confirmed →
      ∃ e : Fin kElevs, ((t.post.node n).orders f b).assignedId = e.val ∧
        ((t.post.node n).allStates e).active = true := by
  refine run.forall_transitions (AdoptsLive n) _ (fun s => AllWatching s ∧ LiveApart n s) ?_ adopts
    ⟨allWatching_initial, fun _ _ _ => nofun⟩
  rintro s s' action step adopt ⟨watching, live⟩
  refine ⟨⟨watching.step step, live.step watching step adopt⟩, ?_⟩
  rintro own now rfl
  have cluster : ClusterStep s (.step n own now) s' := step
  rcases clusterStep_cases cluster with ⟨_, _, label, _⟩ | ⟨_, _, _, p, label, valid, stepped, rfl⟩ |
    ⟨_, _, _, _, label, _⟩ | ⟨_, label, _⟩ | ⟨_, _, _, _, label, _⟩
  · cases label
  · obtain ⟨rfl, rfl, rfl⟩ := Action.step.inj label
    dsimp only
    rw [Cluster.setNode_node_self]
    exact live_of_nodeStep watching live valid stepped
  · cases label
  · cases label
  · cases label

/-- Node 1 takes over the call of node 2 from node 2 itself. -/
theorem confirmed_orders_live_delivery :
    ∃ (s s' s'' : Cluster Config.kFloors)
      (trace : List (Transition (Cluster Config.kFloors) (RestartAction Config.kFloors))),
      Run RestartStep Cluster.initial trace s'' ∧ (∀ t ∈ trace, AdoptsLive 1 t) ∧
      RestartStep s (.run (.receive 1 0 0)) s' ∧
      RestartStep s' (.run (.step 1 (.idleAt 1 0) (.still 0))) s'' ∧
      ((s''.node 1).orders 0 .hallUp).status = .confirmed ∧
      ∃ e : Fin kElevs, ((s''.node 1).orders 0 .hallUp).assignedId = e.val ∧
        ((s''.node 1).allStates e).active = true := by
  have passed : (([.run (.step 2 (.idleAt 2 0) (.still 0)), .run (.press 2 (.only 0 .hallUp)),
      .run (.step 2 (.idleAt 2 0) (.still 0)), .run (.transmit 2)] : List (RestartAction _)).foldlM
      Cluster.execRestart Cluster.initial).any (fun s : Cluster Config.kFloors =>
        decide (∀ packet ∈ s.sent, ∀ f b, (packet.orders f b).status = .confirmed →
          (packet.orders f b).assignedId = packet.id) &&
        (s.execRestart (.run (.receive 1 0 0))).any fun s' =>
          (s'.execRestart (.run (.step 1 (.idleAt 1 0) (.still 0)))).any fun s'' =>
            decide (((s''.node 1).orders 0 .hallUp).status = .confirmed)) = true := by
    decide +kernel
  obtain ⟨trace, s, run, labels, passed⟩ := Run.of_check RestartStep id passed
  simp only [Bool.and_eq_true, decide_eq_true_eq] at passed
  obtain ⟨own, passed⟩ := passed
  obtain ⟨s', delivery, passed⟩ := (Option.any_eq_true _ _).1 passed
  obtain ⟨s'', step, confirmed⟩ := (Option.any_eq_true _ _).1 passed
  rw [decide_eq_true_eq] at confirmed
  have extended := (run.snoc delivery).snoc step
  have adopts : ∀ t ∈ (trace ++ [⟨s, .run (.receive 1 0 0), s'⟩]) ++
      [⟨s', .run (.step 1 (.idleAt 1 0) (.still 0)), s''⟩], AdoptsLive 1 t := by
    intro t member position now received label delivered foreign f b _ _ status
    rcases List.mem_append.1 member with member | last
    · rcases List.mem_append.1 member with earlier | last
      · have listed := List.mem_map_of_mem (f := Transition.action) earlier
        simp [labels, label] at listed
      · obtain rfl := List.mem_singleton.1 last
        exact ⟨received.sender, (own _ (List.mem_of_getElem? delivered) f b status).trans
          received.id_eq_sender, .inr (.inl rfl)⟩
    · obtain rfl := List.mem_singleton.1 last
      cases label
  exact ⟨s, s', s'', _, extended, adopts, delivery, step, confirmed,
    confirmed_orders_live extended adopts _ (List.mem_append_right _ (List.mem_singleton.2 rfl))
      _ _ rfl 0 .hallUp (by decide) confirmed⟩

/-- Node 2 serves a call, node 1 hears of it, and node 0 hears of it from node 1 alone. -/
def hearsay : List (RestartAction Config.kFloors) :=
  [.run (.step 2 (.idleAt 2 0) (.still 0)), .run (.press 2 (.only 0 .hallUp)),
    .run (.step 2 (.idleAt 2 0) (.still 0)), .run (.transmit 2), .run (.receive 1 0 0),
    .run (.step 1 (.idleAt 1 0) (.still 0)), .run (.transmit 1), .run (.receive 0 1 0)]

/-- Node 0 ends its step with a confirmed order of node 2, of which it has never heard. -/
theorem confirmed_order_left_dead :
    ∃ (trace : List (Transition (Cluster Config.kFloors) (RestartAction Config.kFloors)))
      (s : Cluster Config.kFloors), Run RestartStep Cluster.initial trace s ∧
      ∃ t ∈ trace, ∃ own now, t.action = .run (.step 0 own now) ∧
        ((t.post.node 0).orders 0 .hallUp).status = .confirmed ∧
        ∀ e : Fin kElevs, ((t.post.node 0).orders 0 .hallUp).assignedId = (e.val : Int) →
          ((t.post.node 0).allStates e).active = false := by
  have passed : (hearsay.foldlM Cluster.execRestart Cluster.initial).any
      (fun s : Cluster Config.kFloors =>
        (s.execRestart (.run (.step 0 (.idleAt 0 0) (.still 0)))).any fun s' =>
          decide (((s'.node 0).orders 0 .hallUp).status = .confirmed ∧
            ∀ e : Fin kElevs, ((s'.node 0).orders 0 .hallUp).assignedId = (e.val : Int) →
              ((s'.node 0).allStates e).active = false)) = true := by
    decide +kernel
  obtain ⟨trace, s, run, -, passed⟩ := Run.of_check RestartStep id passed
  obtain ⟨s', step, dead⟩ := (Option.any_eq_true _ _).1 passed
  rw [decide_eq_true_eq] at dead
  exact ⟨_, s', run.snoc step, _, List.mem_append_right _ (List.mem_singleton.2 rfl), _, _, rfl,
    dead.1, dead.2⟩

end CppElevator
