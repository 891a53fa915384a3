import CppElevator.OrderSync

/-!
# The order with its 64-bit counter

`ordersync.cpp` once more, with the version as the word the source stores: the counter wraps after its
last value, and two versions are compared as unsigned words.
-/
namespace CppElevator

/-- `Order`, as it is stored. -/
structure OrderWord where
  /-- Elevator the order is assigned to, or `-1`. -/
  assignedId : Int := -1
  /-- One bit for each elevator that has seen the order. -/
  observedMask : BitVec 32 := 0#32
  /-- Stage of the order. -/
  status : OrderStatus := .none
  /-- Counter deciding every merge. -/
  version : UInt64 := 0
  deriving DecidableEq, Repr

/-- An operation on a stored order. -/
inductive OrderWordOp where
  | observe (elevId : Nat)
  | onRequest (elevId : Nat)
  | onConfirm (elevId : Int)
  | onClear
  | onReset
  | onRevoke
  | onReassignment (assignedId : Int)
  | onUpdate (rcv : OrderWord)

namespace OrderWord

/-- `Order::Observe`. -/
def observe (o : OrderWord) (elevId : Nat) : OrderWord :=
  { o with observedMask := o.observedMask ||| (1#32 <<< elevId) }

/-- `Order::OnUpdate`. -/
def onUpdate (o rcv : OrderWord) : OrderWord :=
  if o.version < rcv.version then
    { version := rcv.version, status := rcv.status, assignedId := rcv.assignedId,
      observedMask := rcv.observedMask }
  else if rcv.version = o.version then
    let merged := { o with observedMask := o.observedMask ||| rcv.observedMask }
    if o.status.toNat < rcv.status.toNat then
      { merged with status := rcv.status, assignedId := rcv.assignedId }
    -- Both sides confirmed the same order concurrently
    else if o.status = .confirmed ∧ rcv.status = .confirmed ∧ rcv.assignedId < o.assignedId then
      { merged with assignedId := rcv.assignedId }
    else merged
  else o

/-- `Order::OnRequest`. -/
def onRequest (o : OrderWord) (elevId : Nat) : OrderWord :=
  if o.status = .none ∨ o.status = .clear then
    observe { o with status := .requested, version := o.version + 1, observedMask := 0#32 } elevId
  else o

/-- `Order::OnConfirm`. -/
def onConfirm (o : OrderWord) (elevId : Int) : OrderWord :=
  if o.status = .requested then
    { o with status := .confirmed, assignedId := elevId, version := o.version + 1 }
  else o

/-- `Order::OnClear`. -/
def onClear (o : OrderWord) : OrderWord :=
  if o.status = .confirmed then { o with status := .clear, version := o.version + 1 } else o

/-- `Order::OnReset`. -/
def onReset (o : OrderWord) : OrderWord :=
  if o.status = .clear then { o with status := .none, version := o.version + 1 } else o

/-- `Order::OnRevoke`. -/
def onRevoke (o : OrderWord) : OrderWord :=
  if o.status = .confirmed then { o with status := .requested, version := o.version + 1 } else o

/-- `Order::OnReassignment`. -/
def onReassignment (o : OrderWord) (assignedId : Int) : OrderWord :=
  { o with assignedId := assignedId, version := o.version + 1 }

/-- Carry out an operation. -/
def apply (o : OrderWord) : OrderWordOp → OrderWord
  | .observe elevId => o.observe elevId
  | .onRequest elevId => o.onRequest elevId
  | .onConfirm elevId => o.onConfirm elevId
  | .onClear => o.onClear
  | .onReset => o.onReset
  | .onRevoke => o.onRevoke
  | .onReassignment assignedId => o.onReassignment assignedId
  | .onUpdate rcv => o.onUpdate rcv

/-- The order a stored order reads as. -/
def toOrder (o : OrderWord) : Order where
  assignedId := o.assignedId
  observedMask := o.observedMask
  status := o.status
  version := o.version.toNat

end OrderWord

/-- The operation on the order that a stored order reads as. -/
def OrderWordOp.toOp : OrderWordOp → OrderOp
  | .observe elevId => .observe elevId
  | .onRequest elevId => .onRequest elevId
  | .onConfirm elevId => .onConfirm elevId
  | .onClear => .onClear
  | .onReset => .onReset
  | .onRevoke => .onRevoke
  | .onReassignment assignedId => .onReassignment assignedId
  | .onUpdate rcv => .onUpdate rcv.toOrder

end CppElevator
