import CppElevator.Solo
import CppElevator.Verif.CabLockstep
import CppElevator.Verif.Deliveries
import CppElevator.Verif.ReassignCalls

/-!
# Confirmed orders and their assignees

The code relies on a confirmed order being assigned to an elevator: `ReassignHallOrder` asserts
it, and nobody serves the order otherwise. Every operation of the node establishes it; the check a
packet passes does not, because it admits the assignee `-1` whatever the status. The relation
therefore lasts exactly as long as no delivery adopts a confirmed order without an assignee.
-/
namespace CppElevator

open Library

variable {kFloors : Nat}

namespace Order

/-- Merges, when the copy whose assignee is taken is assigned. -/
theorem Assigned.onUpdate {o rcv : Order} (assigned : o.Assigned)
    (received : TakesAssignee o rcv → rcv.Assigned) : (o.onUpdate rcv).Assigned := by
  intro confirmed
  rcases confirmed_of_onUpdate confirmed with ⟨takes, theirs, same⟩ | ⟨ours, same⟩
  · rw [same]
    exact received takes theirs
  · rw [same]
    exact assigned ours

/-- A merge that takes a confirmed order takes its assignee. -/
theorem onUpdate_of_takes {o rcv : Order} (takes : TakesAssignee o rcv)
    (confirmed : rcv.status = .confirmed) :
    (o.onUpdate rcv).status = .confirmed ∧ (o.onUpdate rcv).assignedId = rcv.assignedId := by
  rcases takes with newer | ⟨same, raised | ⟨ours, theirs, lower⟩⟩
  · rw [onUpdate_of_lt newer]
    exact ⟨confirmed, rfl⟩
  · simp only [onUpdate, same, lt_irrefl, ↓reduceIte, if_pos raised, and_true]
    exact confirmed
  · simp [onUpdate, same, ours, theirs, lower]

end Order

namespace Peers

/-- Every confirmed order of the node, backups included, is assigned to an elevator. -/
structure Assigned (p : Peers kFloors) : Prop where
  /-- The order table. -/
  orders : ∀ f b, (p.orders f b).Assigned
  /-- The cab order table. -/
  cabButtonOrders : ∀ e f, (p.cabButtonOrders e f).Assigned

/-- A node without orders. -/
theorem assigned_default (n : Fin kElevs) : ({ nodeId := n } : Peers kFloors).Assigned :=
  ⟨fun _ _ => Order.assigned_of_status (by simp), fun _ _ => Order.assigned_of_status (by simp)⟩

namespace Assigned

variable {p : Peers kFloors}

/-- In other words, every order of the node is assigned if it is confirmed. -/
theorem every (assigned : p.Assigned) : p.EveryOrder Order.Assigned :=
  ⟨assigned.orders, assigned.cabButtonOrders⟩

/-- And the other way round. -/
theorem of_every (every : p.EveryOrder Order.Assigned) : p.Assigned :=
  ⟨every.orders, every.cabButtonOrders⟩

/-- Presses confirm cab orders to the node. -/
theorem syncButtonSignals (assigned : p.Assigned) (signals : BoolTable kFloors) :
    (p.syncButtonSignals signals).Assigned :=
  of_every (Order.assigned_rule.syncButtonSignals assigned.every signals)

/-- The passes of a step. -/
theorem advances (assigned : p.Assigned) {p' : Peers kFloors} (advances : p.Advances p') :
    p'.Assigned := of_every (Order.assigned_rule.advances assigned.every advances)

/-- Clearings. -/
theorem clearOrders (assigned : p.Assigned) (floor : Fin kFloors) (b2c : ButtonFlags) :
    (p.clearOrders floor b2c).Assigned :=
  of_every (Order.assigned_rule.clearOrders assigned.every floor b2c)

/-- Deliveries, when every copy whose assignee is taken is assigned. -/
theorem rxPacketProcessing (assigned : p.Assigned) {packet : ReceivedPacket kFloors}
    (foreign : packet.sender ≠ p.nodeId) (now : Nat)
    (received : ∀ o rcv, p.Merges packet o rcv → TakesAssignee o rcv → rcv.Assigned) :
    (p.rxPacketProcessing now packet).Assigned :=
  of_every <| assigned.every.rxPacketProcessing foreign now fun o rcv merges old =>
    old.onUpdate (received o rcv merges)

end Assigned

end Peers

/-- A delivery that adopts a confirmed order without an assignee. -/
def AdoptsUnassigned (t : Transition (Peers kFloors) (SoloAction kFloors)) : Prop :=
  ∃ now packet, t.action = .receive now packet ∧ packet.sender ≠ t.pre.nodeId ∧
    ∃ o rcv, t.pre.Merges packet o rcv ∧ TakesAssignee o rcv ∧ rcv.status = .confirmed ∧
      rcv.assignedId = -1

/-- A received order has an assignee, if it is not the one that stands for none. -/
theorem Order.assigned_of_valid {o : Order} (valid : o.valid = true)
    (named : o.status = .confirmed → o.assignedId ≠ -1) : o.Assigned := by
  intro confirmed
  have other := named confirmed
  simp only [Order.valid, Bool.and_eq_true, decide_eq_true_eq] at valid
  omega

/-- Every operation but an adoption of an unassigned order keeps the orders assigned. -/
theorem Peers.Assigned.solo {p p' : Peers kFloors} {action : SoloAction kFloors}
    (assigned : p.Assigned) (step : SoloStep p action p')
    (adopts : ¬ AdoptsUnassigned ⟨p, action, p'⟩) : p'.Assigned := by
  cases action with
  | press signals =>
    obtain rfl := Option.some.inj step
    exact assigned.syncButtonSignals signals
  | publish own =>
    obtain rfl := Option.some.inj step
    exact ⟨assigned.orders, assigned.cabButtonOrders⟩
  | step now => exact assigned.advances (Peers.advances_step step)
  | clear floor b2c =>
    obtain rfl := Option.some.inj step
    exact assigned.clearOrders floor b2c
  | receive now packet =>
    obtain rfl := Option.some.inj step
    by_cases own : packet.sender = p.nodeId
    · rwa [Peers.rxPacketProcessing_own own]
    · refine assigned.rxPacketProcessing own now fun o rcv merges takes => ?_
      refine Order.assigned_of_valid merges.valid fun confirmed unnamed => adopts ?_
      exact ⟨now, packet, rfl, own, o, rcv, merges, takes, confirmed, unnamed⟩

/-- An adoption of an unassigned order leaves one at the node. -/
theorem not_assigned_of_adopts {t : Transition (Peers kFloors) (SoloAction kFloors)}
    (step : SoloStep t.pre t.action t.post) (adopts : AdoptsUnassigned t) : ¬ t.post.Assigned := by
  obtain ⟨now, packet, label, foreign, o, rcv, merges, takes, confirmed, unnamed⟩ := adopts
  rw [label] at step
  obtain post := Option.some.inj step
  obtain ⟨status, assignee⟩ := Order.onUpdate_of_takes takes confirmed
  have unassigned : ¬ (o.onUpdate rcv).Assigned := by
    intro assigned
    have range := assigned status
    omega
  intro assigned
  rw [← post] at assigned
  rcases merges.kept foreign now with ⟨f, b, same⟩ | ⟨e, f, same⟩
  · exact unassigned (same ▸ assigned.orders f b)
  · exact unassigned (same ▸ assigned.cabButtonOrders e f)

/-- The packet check protects the assignees exactly as far as no delivery adopts a confirmed order
without one. In every run of a node that processes arbitrary accepted packets, every state reached
has its confirmed orders assigned if and only if no delivery does so; and then every call of
`ReassignHallOrder` in a further step meets the assertion on the previous assignee. -/
theorem confirmed_orders_assigned {n : Fin kElevs}
    {trace : List (Transition (Peers kFloors) (SoloAction kFloors))} {p : Peers kFloors}
    (run : Run SoloStep { nodeId := n } trace p) :
    ((∀ t ∈ trace, t.post.Assigned) ↔ ∀ t ∈ trace, ¬ AdoptsUnassigned t) ∧
    ((∀ t ∈ trace, ¬ AdoptsUnassigned t) → p.Assigned ∧
      ∀ now q caller result calls, p.MonitorPass now q caller result calls → ∀ f b, calls f b →
        0 ≤ (q.orders f b).assignedId ∧ (q.orders f b).assignedId < kElevs) := by
  have start : ({ nodeId := n } : Peers kFloors).Assigned := Peers.assigned_default n
  refine ⟨⟨fun posts t member => ?_, fun admitted => ?_⟩, fun admitted => ?_⟩
  · have excludes : ∀ t ∈ trace, t.post.Assigned → ¬ AdoptsUnassigned t :=
      run.forall_transitions (fun _ => True) _ (fun _ => True)
        (fun step _ _ => ⟨trivial, fun assigned adopts => not_assigned_of_adopts step adopts assigned⟩)
        (fun _ _ => trivial) trivial
    exact excludes t member (posts t member)
  · exact run.forall_transitions (fun t => ¬ AdoptsUnassigned t) _ Peers.Assigned
      (fun step adopts old => ⟨old.solo step adopts, old.solo step adopts⟩) admitted start
  · have assigned := run.invariant_of_admitted (fun t => ¬ AdoptsUnassigned t) Peers.Assigned
      (fun step adopts old => old.solo step adopts) admitted start
    exact ⟨assigned, fun now q caller result calls pass f b called =>
      pass.assignedId_range (fun f b _ => assigned.orders f b) called⟩

/-- A packet of node 1 whose hall order of floor 0 has the given version and assignee. -/
def confirmedBy (version : Nat) (assignedId : Int) : NetworkPacket Config.kFloors where
  id := 1
  orders := fun f b =>
    if f = 0 ∧ b = .hallUp then { assignedId, status := .confirmed, version } else {}
  state := .idleAt 1 0
  cabButtonOrders := fun _ _ => {}

/-- An accepted packet with an order confirmed to its sender. -/
def takenOrder : ReceivedPacket Config.kFloors := ⟨confirmedBy 2 1, by decide +kernel⟩

/-- An order confirmed to an elevator is taken over with its assignee. -/
theorem assigned_order_adopted :
    ∃ (trace : List (Transition (Peers Config.kFloors) (SoloAction Config.kFloors)))
      (p : Peers Config.kFloors), Run SoloStep { nodeId := 0 } trace p ∧
      (p.orders 0 .hallUp).status = .confirmed ∧ p.Assigned := by
  let start : Peers Config.kFloors := { nodeId := 0 }
  let p := start.rxPacketProcessing 0 takenOrder
  have run : Run SoloStep start [⟨start, .receive 0 takenOrder, p⟩] p := .single rfl
  have confirmed : (p.orders 0 .hallUp).status = .confirmed := by decide +kernel
  have named : ∀ f b, (takenOrder.orders f b).status = .confirmed →
      (takenOrder.orders f b).assignedId ≠ -1 := by decide +kernel
  have unsaved : ∀ e f, (takenOrder.cabButtonOrders e f).status ≠ .confirmed := by decide +kernel
  refine ⟨_, p, run, confirmed, ((confirmed_orders_assigned run).2 fun t member => ?_).1⟩
  obtain rfl := List.mem_singleton.1 member
  rintro ⟨now, received, label, -, o, rcv, merges, -, status, unnamed⟩
  obtain ⟨rfl, rfl⟩ := SoloAction.receive.inj label
  cases merges with
  | hall f _ => exact named f _ status unnamed
  | cab f => exact unsaved _ f status
  | backup f => exact unsaved _ f status
  | sender f => exact named f .cab status unnamed

/-- An accepted packet with an order confirmed to nobody. -/
def nobodysOrder : ReceivedPacket Config.kFloors := ⟨confirmedBy 3 (-1), by decide +kernel⟩

/-- Node 0 takes a call itself; its peer then assigns it to nobody. -/
def assignedToNobody : List (SoloAction Config.kFloors) :=
  [.publish (.idleAt 0 0), .press (.only 0 .hallUp), .step (.still 0), .receive 100 nobodysOrder]

/-- An accepted packet leaves a confirmed order without an assignee, and the assertion fails once
the timer of the order runs out. -/
theorem confirmed_order_unassigned :
    ∃ (trace : List (Transition (Peers Config.kFloors) (SoloAction Config.kFloors)))
      (p : Peers Config.kFloors), Run SoloStep { nodeId := 0 } trace p ∧
      (p.orders 0 .hallUp).status = .confirmed ∧ (p.orders 0 .hallUp).assignedId = -1 ∧
      p.step (.still 25000) = none := by
  have passed : (assignedToNobody.foldlM Peers.execSolo
      ({ nodeId := 0 } : Peers Config.kFloors)).any (fun p =>
        decide ((p.orders 0 .hallUp).status = .confirmed) &&
        decide ((p.orders 0 .hallUp).assignedId = -1) && (p.step (.still 25000)).isNone) = true := by
    decide +kernel
  obtain ⟨trace, p, run, -, outcome⟩ := Run.of_check SoloStep id passed
  simp only [Bool.and_eq_true, decide_eq_true_eq, Option.isNone_iff_eq_none] at outcome
  exact ⟨trace, p, run, outcome.1.1, outcome.1.2, outcome.2⟩

end CppElevator
