import CppElevator.Common

/-!
# Distributed order state machine

`ordersync.cpp`: one order, its local transitions, and the merge with a received copy. The
version counter is the natural number the 64-bit counter reads as; it is only ever compared
and incremented. The observation mask keeps the code's 32-bit word.
-/
namespace CppElevator

/-- `Order`. -/
@[ext]
structure Order where
  /-- Elevator the order is assigned to, or `-1`. -/
  assignedId : Int := -1
  /-- One bit for each elevator that has seen the order. -/
  observedMask : BitVec 32 := 0#32
  /-- Stage of the order. -/
  status : OrderStatus := .none
  /-- Counter deciding every merge. -/
  version : Nat := 0
  deriving DecidableEq, Repr

namespace Order

/-- `Order::Observe`. -/
def observe (o : Order) (elevId : Nat) : Order :=
  { o with observedMask := o.observedMask ||| (1#32 <<< elevId) }

/-- `Order::ObservedBy`. -/
def observedBy (o : Order) (elevId : Nat) : Bool :=
  decide (o.observedMask &&& (1#32 <<< elevId) ≠ 0#32)

/-- `Order::Valid`. -/
def valid (o : Order) : Bool :=
  decide (-1 ≤ o.assignedId) && decide (o.assignedId < kElevs) &&
    decide (o.status.toNat ≤ OrderStatus.clear.toNat) &&
    decide (o.observedMask &&& ~~~((1#32 <<< kElevs) - 1#32) = 0#32)

/-- `Order::OnUpdate`. -/
def onUpdate (o rcv : Order) : Order :=
  if o.version < rcv.version then
    { version := rcv.version, status := rcv.status, assignedId := rcv.assignedId,
      observedMask := rcv.observedMask }
  else if rcv.version = o.version then
    let merged := { o with observedMask := o.observedMask ||| rcv.observedMask }
    if o.status.toNat < rcv.status.toNat then
      { merged with status := rcv.status, assignedId := rcv.assignedId }
    -- Both sides confirmed the same order concurrently
    else if o.status = .confirmed ∧ rcv.status = .confirmed ∧ rcv.assignedId < o.assignedId then
      { merged with assignedId := rcv.assignedId }
    else merged
  else o

/-- `Order::OnRequest`. -/
def onRequest (o : Order) (elevId : Nat) : Order :=
  if o.status = .none ∨ o.status = .clear then
    observe { o with status := .requested, version := o.version + 1, observedMask := 0#32 } elevId
  else o

/-- `Order::OnConfirm`. -/
def onConfirm (o : Order) (elevId : Int) : Order :=
  if o.status = .requested then
    { o with status := .confirmed, assignedId := elevId, version := o.version + 1 }
  else o

/-- `Order::OnClear`. -/
def onClear (o : Order) : Order :=
  if o.status = .confirmed then { o with status := .clear, version := o.version + 1 } else o

/-- `Order::OnReset`. -/
def onReset (o : Order) : Order :=
  if o.status = .clear then { o with status := .none, version := o.version + 1 } else o

/-- `Order::OnRevoke`. -/
def onRevoke (o : Order) : Order :=
  if o.status = .confirmed then { o with status := .requested, version := o.version + 1 } else o

/-- `Order::OnReassignment`. -/
def onReassignment (o : Order) (assignedId : Int) : Order :=
  { o with assignedId := assignedId, version := o.version + 1 }

end Order

/-- An operation of `Order` that changes it. -/
inductive OrderOp where
  | observe (elevId : Nat)
  | onRequest (elevId : Nat)
  | onConfirm (elevId : Int)
  | onClear
  | onReset
  | onRevoke
  | onReassignment (assignedId : Int)
  | onUpdate (rcv : Order)

/-- Carry out an operation. -/
def Order.apply (o : Order) : OrderOp → Order
  | .observe elevId => o.observe elevId
  | .onRequest elevId => o.onRequest elevId
  | .onConfirm elevId => o.onConfirm elevId
  | .onClear => o.onClear
  | .onReset => o.onReset
  | .onRevoke => o.onRevoke
  | .onReassignment assignedId => o.onReassignment assignedId
  | .onUpdate rcv => o.onUpdate rcv

/-- The table of `OrderTable`, one order for each button of each floor. -/
abbrev OrderTable (kFloors : Nat) := Fin kFloors → BtnType → Order

/-- `CabOrderTable`, the cab orders of every elevator. -/
abbrev CabOrderTable (kFloors : Nat) := Fin kElevs → Fin kFloors → Order

namespace OrderTable

variable {kFloors : Nat}

/-- `OrderTable::ToBoolTable`, the confirmed orders assigned to one elevator. -/
def toBoolTable (t : OrderTable kFloors) (elevId : Int) : BoolTable kFloors :=
  fun f b => decide ((t f b).status = .confirmed) && decide ((t f b).assignedId = elevId)

/-- `OrderTable::Valid`. -/
def valid (t : OrderTable kFloors) : Bool := decide (∀ f b, (t f b).valid = true)

/-- `OrderTable::Join`. Cab buttons are local. -/
def join (t rcv : OrderTable kFloors) : OrderTable kFloors :=
  fun f b => if b = .cab then t f b else (t f b).onUpdate (rcv f b)

end OrderTable

end CppElevator
