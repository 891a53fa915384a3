import Mathlib.Data.List.Sort
import Mathlib.Data.List.FinRange
import CppElevator.Elevator
import CppElevator.OrderSync
import CppElevator.Library.CellLoop

/-!
# The world object of a node

`peers.cpp` and `order_timers.cpp`: the node's copies of all orders, states and timers, and the
passes of `Peers::Step` over them. A pass over the hall cells whose iterations touch one cell
each is written by cell. `none` stands for the process ending in a failed assertion or in
`Abort`. A timer reads the clock at every call: `now` is what the clock shows at each of them.
-/
namespace CppElevator

variable {kFloors : Nat}

/-- `TimerTable`. -/
abbrev TimerTable (kFloors : Nat) := Fin kFloors → BtnType → Timer

/-- The calls in one `Peers::Step` that read the clock. -/
inductive ClockCall (kFloors : Nat) where
  /-- `Expired` in `MonitorWatchdogTimers`. -/
  | watchdogExpired (e : Fin kElevs)
  /-- `Start` for an order that `MonitorWatchdogTimers` has reassigned. -/
  | watchdogStart (e : Fin kElevs) (key : Fin kFloors × BtnType)
  /-- `Start` for an order that `MonitorFault` has reassigned. -/
  | faultStart (e : Fin kElevs) (key : Fin kFloors × BtnType)
  /-- `Start` in `ConfirmHallOrders`. -/
  | confirmStart (key : Fin kFloors × BtnType)
  /-- `Expired` in `MonitorHallOrderTimers`. -/
  | timerExpired (key : Fin kFloors × BtnType)
  /-- `Start` in `MonitorHallOrderTimers`. -/
  | timerStart (key : Fin kFloors × BtnType)
  /-- The first `Start` in `ControlHallOrderTimers`. -/
  | controlStart (key : Fin kFloors × BtnType)
  /-- `TimeLeftMs` in `ControlHallOrderTimers`. -/
  | timeLeft (key : Fin kFloors × BtnType)
  /-- The second `Start` in `ControlHallOrderTimers`. -/
  | obstructionStart (key : Fin kFloors × BtnType)

/-- What the clock shows at every call of one `Peers::Step` that reads it. -/
abbrev StepClock (kFloors : Nat) := ClockCall kFloors → Nat

/-- A clock that shows the same at every call. -/
abbrev StepClock.still (now : Nat) : StepClock kFloors := fun _ => now

/-- `std::numeric_limits<int>::max()`, the cost of an inactive elevator. -/
def intMax : Int := 2147483647

/-- `Peers`, once `Peers::Init` has set the identity of the node. -/
structure Peers (kFloors : Nat) where
  /-- This node. -/
  nodeId : Fin kElevs
  /-- Active elevators at the start of the last step. -/
  numElevs : Nat := 0
  /-- All hall orders and the cab orders of this node. -/
  orders : OrderTable kFloors := fun _ _ => {}
  /-- Timers of the hall orders assigned to this node. -/
  orderTimers : TimerTable kFloors := fun _ _ => {}
  /-- One watchdog for each peer. -/
  watchdogTimers : Fin kElevs → Timer := fun _ => {}
  /-- Last known state of every elevator. -/
  allStates : Fin kElevs → ElevatorState kFloors := fun _ => {}
  /-- Copies of the cab orders of every elevator. -/
  cabButtonOrders : CabOrderTable kFloors := fun _ _ => {}

/-- The directional penalties of one elevator for an order at a floor. -/
def directionPenalty (s : ElevatorState kFloors) (floor : Fin kFloors) : Int :=
  let moving := s.motorDir ≠ .stop
  let orderBelow := (floor.val : Int) < s.floor
  let orderAbove := s.floor < floor.val
  let orderHere := (floor.val : Int) = s.floor
  let wrongDir1 := (moving ∧ orderBelow ∧ s.inertia = .up) ∨ (moving ∧ orderAbove ∧ s.inertia = .down)
  let wrongDir2 := orderHere ∧ moving
  (if wrongDir1 then Config.kPenaltyWrongDir else 0) +
    (if wrongDir2 then Config.kPenaltyWrongDir else 0)

/-- The penalty for the orders an elevator already has. -/
def requestPenalty (reqs : BoolTable kFloors) : Int :=
  (List.finRange kFloors).foldl (fun cost f =>
    [BtnType.hallUp, .hallDown, .cab].foldl (fun cost b =>
      if reqs f b then cost + Config.kPenaltyPerOrder else cost) cost) 0

/-- The cost `CalculateElevatorCosts` computes for one elevator. -/
def elevatorCost (s : ElevatorState kFloors) (floor : Fin kFloors) : Int :=
  if s.active then
    (s.floor - floor.val).natAbs * Config.kPenaltyFloorDiff +
      (if s.obstruction then Config.kPenaltyObstruction else 0) +
      (if s.fault then Config.kPenaltyFault else 0) +
      (if s.stopped then Config.kPenaltyStopped else 0) +
      requestPenalty s.requests +
      (if s.doorOpen then Config.kPenaltyDoorOpen else 0) +
      directionPenalty s floor
  else intMax

/-- The order of `std::pair<int, int>` by which the costs are sorted. -/
def CostLe (left right : Int × Fin kElevs) : Prop :=
  left.1 < right.1 ∨ left.1 = right.1 ∧ left.2 ≤ right.2

instance : DecidableRel CostLe := fun left right =>
  inferInstanceAs (Decidable (left.1 < right.1 ∨ left.1 = right.1 ∧ left.2 ≤ right.2))

/-- The hall cells in the order the loops of `Peers` visit them. -/
def hallCells (kFloors : Nat) : List (Fin kFloors × BtnType) :=
  (List.finRange kFloors).flatMap fun f => [(f, .hallUp), (f, .hallDown)]

namespace Peers

open Config

/-- The order and the timer of one cell. -/
def cell (p : Peers kFloors) (key : Fin kFloors × BtnType) : Order × Timer :=
  (p.orders key.1 key.2, p.orderTimers key.1 key.2)

/-- Replace the orders and timers of all cells. -/
def withCells (p : Peers kFloors) (cells : Fin kFloors × BtnType → Order × Timer) : Peers kFloors :=
  { p with orders := fun f b => (cells (f, b)).1, orderTimers := fun f b => (cells (f, b)).2 }

/-- A pass over the hall cells that cannot fail. -/
def mapHall (p : Peers kFloors) (body : Fin kFloors × BtnType → Order × Timer → Order × Timer) :
    Peers kFloors :=
  p.withCells fun key => if key.2 = .cab then p.cell key else body key (p.cell key)

/-- A pass over the hall cells that may end the process. -/
def forHall (p : Peers kFloors)
    (body : Fin kFloors × BtnType → Order × Timer → Option (Order × Timer)) :
    Option (Peers kFloors) :=
  (Library.loopCells body (hallCells kFloors) p.cell).map p.withCells

/-- `Peers::CalculateElevatorCosts`. The button does not enter the cost. -/
def calculateElevatorCosts (p : Peers kFloors) (floor : Fin kFloors) : List (Int × Fin kElevs) :=
  ((List.finRange kElevs).map fun e => (elevatorCost (p.allStates e) floor, e)).insertionSort CostLe

/-- `Peers::ObservedByAll`. -/
def observedByAll (p : Peers kFloors) (floor : Fin kFloors) (btn : BtnType) : Bool :=
  decide (∀ e, (p.allStates e).active = true → (p.orders floor btn).observedBy e = true)

/-- `Peers::ObserveOrders`. -/
def observeOrders (p : Peers kFloors) : Peers kFloors :=
  p.mapHall fun _ (o, t) =>
    if o.observedBy p.nodeId then (o, t)
    else if o.status = .requested then (o.observe p.nodeId, t)
    else (o, t)

/-- `Peers::ConfirmHallOrders`. -/
def confirmHallOrders (p : Peers kFloors) (now : StepClock kFloors) : Peers kFloors :=
  p.mapHall fun key (o, t) =>
    if p.observedByAll key.1 key.2 = false ∨ o.status ≠ .requested then (o, t)
    else match p.calculateElevatorCosts key.1 with
      | [] => (o, t)
      | (cost, best) :: _ =>
        if cost = intMax then (o, t)
        else (o.onConfirm best.val,
          if best = p.nodeId then .start (now (.confirmStart key)) kReassignOrderTimeMs else t)

/-- `Peers::ResetHallOrders`. -/
def resetHallOrders (p : Peers kFloors) : Peers kFloors :=
  p.mapHall fun _ (o, t) => (o.onReset, t)

/-- `Peers::UpdateNumElevs`. -/
def updateNumElevs (p : Peers kFloors) : Peers kFloors :=
  { p with numElevs := (List.finRange kElevs).countP fun e => (p.allStates e).active }

/-- The elevator `ReassignHallOrder` moves an order to when more than one takes part. -/
def newAssignee (p : Peers kFloors) (floor : Fin kFloors) (prev : Fin kElevs) :
    Option (Fin kElevs) :=
  let costs := p.calculateElevatorCosts floor
  let found :=
    -- The elevator with the lowest cost that is not the previous assignee
    if (p.allStates prev).usable = false then
      (costs.find? fun c => decide (c.2 ≠ prev ∧ c.1 ≠ intMax)).map Prod.snd
    -- Another elevator only if usable
    else
      let other := (costs.find? fun c =>
        decide (c.2 ≠ prev ∧ c.1 ≠ intMax ∧ (p.allStates c.2).usable = true)).map Prod.snd
      some (other.getD prev)
  -- No new assignee found: keep the previous one, or abort
  match found with
  | some e => some e
  | none => if (p.allStates prev).active then some prev else none

/-- `Peers::ReassignHallOrder` on the order of a cell at a floor. -/
def reassignHallOrder (p : Peers kFloors) (floor : Fin kFloors) (o : Order) : Option Order :=
  if h : 0 ≤ o.assignedId ∧ o.assignedId < kElevs then
    let prev : Fin kElevs := ⟨o.assignedId.toNat, toNat_lt h⟩
    -- Reassign to self
    if p.numElevs = 1 then some (o.onReassignment prev.val)
    else (p.newAssignee floor prev).map fun e => o.onReassignment e.val
  else none

/-- Reassign the order of a cell, and start its timer when this node is the new assignee. -/
def reassignCell (p : Peers kFloors) (now : Nat) (floor : Fin kFloors) (cell : Order × Timer) :
    Option (Order × Timer) :=
  (p.reassignHallOrder floor cell.1).map fun o =>
    (o, if o.assignedId = p.nodeId.val then .start now kReassignOrderTimeMs else cell.2)

/-- `Peers::ReassignHallOrders`. `now` is what the clock shows at the start of each timer. -/
def reassignHallOrders (p : Peers kFloors) (now : Fin kFloors × BtnType → Nat)
    (elevId : Fin kElevs) : Option (Peers kFloors) :=
  p.forHall fun key c =>
    if c.1.status ≠ .confirmed then some c
    else if c.1.assignedId ≠ elevId.val then some c
    else p.reassignCell (now key) key.1 c

/-- One iteration of `Peers::MonitorWatchdogTimers`. -/
def monitorWatchdogTimer (now : StepClock kFloors) (p : Peers kFloors) (e : Fin kElevs) :
    Option (Peers kFloors) :=
  if (p.watchdogTimers e).expired (now (.watchdogExpired e)) then
    reassignHallOrders
      { p with watchdogTimers := Function.update p.watchdogTimers e (p.watchdogTimers e).stop,
               allStates := Function.update p.allStates e (p.allStates e).onWatchdogTimeout }
      (fun key => now (.watchdogStart e key)) e
  else some p

/-- `Peers::MonitorWatchdogTimers`. -/
def monitorWatchdogTimers (p : Peers kFloors) (now : StepClock kFloors) : Option (Peers kFloors) :=
  (List.finRange kElevs).foldlM (monitorWatchdogTimer now) p

/-- One iteration of `Peers::MonitorFault`. -/
def monitorFaultOf (now : StepClock kFloors) (p : Peers kFloors) (e : Fin kElevs) :
    Option (Peers kFloors) :=
  if (p.allStates e).active && (p.allStates e).fault then
    p.reassignHallOrders (fun key => now (.faultStart e key)) e
  else some p

/-- `Peers::MonitorFault`. -/
def monitorFault (p : Peers kFloors) (now : StepClock kFloors) : Option (Peers kFloors) :=
  (List.finRange kElevs).foldlM (monitorFaultOf now) p

/-- `Peers::MonitorHallOrderTimers`. -/
def monitorHallOrderTimers (p : Peers kFloors) (now : StepClock kFloors) :
    Option (Peers kFloors) :=
  p.forHall fun key c =>
    if c.2.expired (now (.timerExpired key)) = false then some c
    -- Order already cleared
    else if c.1.status ≠ .confirmed then some (c.1, c.2.stop)
    else p.reassignCell (now (.timerStart key)) key.1 (c.1, c.2.stop)

/-- `Peers::ControlHallOrderTimers`. An obstructed node shortens the time it gives itself. -/
def controlHallOrderTimers (p : Peers kFloors) (now : StepClock kFloors) : Peers kFloors :=
  p.mapHall fun key (o, t) =>
    let own := o.status = .confirmed ∧ o.assignedId = p.nodeId.val
    if own ∧ t.active = false then (o, .start (now (.controlStart key)) kReassignOrderTimeMs)
    else if t.active = true ∧ ¬own then (o, t.stop)
    else if (p.allStates p.nodeId).obstruction = true ∧ own ∧ t.active = true ∧
        kObstructionReassignOrderTimeMs + 5 * kSampleTimeMs < t.timeLeftMs (now (.timeLeft key)) then
      (o, .start (now (.obstructionStart key)) kObstructionReassignOrderTimeMs)
    else (o, t)

/-- `Peers::Step`. -/
def step (p : Peers kFloors) (now : StepClock kFloors) : Option (Peers kFloors) := do
  let p := p.updateNumElevs
  let p ← p.monitorWatchdogTimers now
  let p ← p.monitorFault now
  let p := p.observeOrders
  let p := p.confirmHallOrders now
  let p := p.resetHallOrders
  let p ← p.monitorHallOrderTimers now
  some (p.controlHallOrderTimers now)

/-- `Peers::ClearOrders`. A hall order is cleared by the elevator it is assigned to. -/
def clearOrders (p : Peers kFloors) (floor : Fin kFloors) (b2c : ButtonFlags) : Peers kFloors :=
  { p with
    orders := fun f b =>
      if f = floor ∧ b2c b = true then
        if b = .cab then (p.orders f b).onClear.onReset
        else if (p.orders f b).assignedId = p.nodeId.val then (p.orders f b).onClear
        else p.orders f b
      else p.orders f b,
    orderTimers := fun f b =>
      if f = floor ∧ b2c b = true ∧ b ≠ .cab ∧ (p.orders f b).assignedId = p.nodeId.val then
        (p.orderTimers f b).stop
      else p.orderTimers f b,
    cabButtonOrders := fun e f =>
      if e = p.nodeId ∧ f = floor ∧ b2c .cab = true then (p.cabButtonOrders e f).onClear.onReset
      else p.cabButtonOrders e f }

/-- `Peers::UpdateWatchdogTimer`. -/
def updateWatchdogTimer (p : Peers kFloors) (now : Nat) (elevId : Fin kElevs) : Peers kFloors :=
  { p with watchdogTimers :=
      Function.update p.watchdogTimers elevId (.start now kWatchdogTimeMs) }

end Peers

end CppElevator
