import CppElevator.Fleet

/-!
# A fleet on the clock

The loops of `main.cpp` wait for deadlines of their own: the control loop for `next_tick`, the sending
thread for `next_tx`, and a new process for the startup time of `ElevatorNode::Init`. A step of the
fleet happens at an instant here, and only when the loop it belongs to is due; a locked section is
taken to be over before the clock shows the next instant. All clocks are read on one scale, because
nothing but differences of readings matters to a node.
-/
namespace CppElevator

open Library

variable {kFloors : Nat}

/-- `kTxPeriod` of `TxThreadLoop`. -/
def kTxPeriodMs : Nat := 50

/-- What the loops of a node wait for. -/
structure MainLoops where
  /-- `next_tick` of the control loop. -/
  nextTick : Nat
  /-- `next_tx` of `TxThreadLoop`. -/
  nextTx : Nat
  /-- Instant of the last step of any thread of the node. -/
  lastStep : Nat
  deriving DecidableEq, Repr

namespace MainLoops

/-- The control loop goes on from its deadline, however late it is. -/
def tick (l : MainLoops) : MainLoops := { l with nextTick := l.nextTick + Config.kSampleTimeMs }

/-- `TxThreadLoop` goes on from its deadline, or from the time `now` after sending if it has fallen
behind. -/
def afterSend (l : MainLoops) (now : Nat) : MainLoops :=
  let nextTx := l.nextTx + kTxPeriodMs
  { l with nextTx := if nextTx < now then now + kTxPeriodMs else nextTx }

end MainLoops

/-- A step of a fleet on the clock. -/
inductive TimedAction (kFloors : Nat) where
  /-- A turn of the control loop begins: `ElevatorNode::Step` up to the end of its locked section. -/
  | sync (i : Fin kElevs) (now : Nat) (signals : Signals kFloors)
  /-- The second half of the turn. -/
  | handle (i : Fin kElevs) (now : Nat) (floorSensor : Int)
  /-- An iteration of `TxThreadLoop`, which copies the packet when it wakes and reads the clock again
  after sending it. -/
  | transmit (i : Fin kElevs) (woken now : Nat)
  /-- An iteration of `RxThreadLoop`. -/
  | receive (i : Fin kElevs) (position : Nat) (now : Nat)
  /-- The process of a node is started again: `Init` waits, the first `Step` is made at `now`, with one
  reading of the floor sensor, and the loops start afterwards. -/
  | restart (i : Fin kElevs) (initial : Signals kFloors) (now : Nat) (signals : Signals kFloors)
      (started : Nat)

namespace TimedAction

/-- The step without its instant. -/
def toFleet : TimedAction kFloors → FleetRestartAction kFloors
  | .sync i now signals => .run (.sync i (.still now) signals)
  | .handle i now floorSensor => .run (.handle i now floorSensor)
  | .transmit i _ _ => .run (.transmit i)
  | .receive i position now => .run (.receive i position now)
  | .restart i initial now signals _ => .restart i initial { now := now, signals := signals }

/-- The node that takes the step. -/
def node : TimedAction kFloors → Fin kElevs
  | .sync i _ _ | .handle i _ _ | .transmit i _ _ | .receive i _ _ | .restart i _ _ _ _ => i

/-- Its instant. -/
def time : TimedAction kFloors → Nat
  | .sync _ now _ | .handle _ now _ | .transmit _ now _ | .receive _ _ now | .restart _ _ now _ _ => now

end TimedAction

/-- A fleet with its deadlines. -/
structure TimedFleet (kFloors : Nat) where
  /-- The nodes and the packets. -/
  fleet : Fleet kFloors
  /-- Instant of the last step. -/
  clock : Nat
  /-- What the loops of each node wait for. -/
  loops : Fin kElevs → MainLoops
  /-- Who sent each packet, and when. -/
  sends : List (Fin kElevs × Nat)

namespace TimedFleet

/-- A step may be taken: time does not go back, and the loop it belongs to is due. -/
def due (s : TimedFleet kFloors) (action : TimedAction kFloors) : Bool :=
  decide (s.clock ≤ action.time) && match action with
    | .sync i now _ => decide ((s.loops i).nextTick ≤ now)
    | .transmit i woken now => decide ((s.loops i).nextTx ≤ woken) && decide (woken ≤ now)
    | .restart i _ now _ started =>
      decide ((s.loops i).lastStep + Config.kStartupTimeMs ≤ now) && decide (now ≤ started)
    | .handle _ _ _ | .receive _ _ _ => true

/-- What the loops of the node wait for after its step. -/
def loopsAfter (l : MainLoops) : TimedAction kFloors → MainLoops
  | .sync _ now _ => { l.tick with lastStep := now }
  | .transmit _ woken now => { l.afterSend now with lastStep := woken }
  | .restart _ _ now _ started => { nextTick := started, nextTx := started, lastStep := now }
  | .handle _ now _ | .receive _ _ now => { l with lastStep := now }

/-- The packets after a step. -/
def sendsAfter (sends : List (Fin kElevs × Nat)) : TimedAction kFloors → List (Fin kElevs × Nat)
  | .transmit i woken _ => sends ++ [(i, woken)]
  | _ => sends

/-- Carry out a step. -/
def exec (s : TimedFleet kFloors) (action : TimedAction kFloors) : Option (TimedFleet kFloors) :=
  if s.due action = true then
    (s.fleet.execRestart action.toFleet).map fun fleet => {
      fleet := fleet,
      clock := action.time,
      loops := Function.update s.loops action.node (loopsAfter (s.loops action.node) action),
      sends := sendsAfter s.sends action }
  else none

/-- All nodes have been launched, their loops have started, and nothing has been sent. -/
structure Launched (s : TimedFleet kFloors) : Prop where
  /-- The nodes. -/
  fleet : s.fleet.Launched
  /-- Nothing has been sent. -/
  sends : s.sends = []
  /-- The loops. -/
  loops : ∀ i, (s.loops i).nextTick ≤ s.clock ∧ (s.loops i).nextTx ≤ s.clock ∧
    (s.loops i).lastStep ≤ s.clock

end TimedFleet

/-- The steps of a fleet on the clock. -/
def TimedStep (s : TimedFleet kFloors) (action : TimedAction kFloors) (s' : TimedFleet kFloors) : Prop :=
  s.exec action = some s'

end CppElevator
