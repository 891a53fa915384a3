import CppElevator.Solo
import CppElevator.Verif.ClusterCells

/-!
# The two local copies of a cab order

A node keeps each of its own cab orders twice: in its order table, from which it serves them, and
in its row of the cab order table, which its peers hand back after a crash. Every operation that
touches one copy does the same to the other.
-/
namespace CppElevator

open Library

variable {kFloors : Nat}

namespace Peers

/-- The two copies of every cab order of the node agree. -/
def Lockstep (p : Peers kFloors) : Prop :=
  ∀ f, p.orders f .cab = p.cabButtonOrders p.nodeId f

/-- The copies of a node without orders agree. -/
theorem lockstep_default (n : Fin kElevs) : ({ nodeId := n } : Peers kFloors).Lockstep :=
  fun _ => rfl

namespace Lockstep

variable {p : Peers kFloors}

/-- Presses. -/
theorem syncButtonSignals (same : p.Lockstep) (signals : BoolTable kFloors) :
    (p.syncButtonSignals signals).Lockstep := by
  intro f
  change (p.syncButtonSignals signals).orders f .cab =
    (p.syncButtonSignals signals).cabButtonOrders p.nodeId f
  by_cases set : signals f .cab = true
  · simp only [Peers.syncButtonSignals, set, and_self, ↓reduceIte, same f]
  · simp only [Peers.syncButtonSignals, set, and_false, Bool.false_eq_true, ↓reduceIte, same f]

/-- The passes of a step touch neither copy. -/
theorem step (same : p.Lockstep) {p' : Peers kFloors} {now : StepClock kFloors}
    (done : p.step now = some p') : p'.Lockstep := by
  have advances := advances_step done
  intro f
  rw [advances.cab f, advances.cabButtonOrders, advances.nodeId]
  exact same f

/-- Clearings. -/
theorem clearOrders (same : p.Lockstep) (floor : Fin kFloors) (b2c : ButtonFlags) :
    (p.clearOrders floor b2c).Lockstep := by
  intro f
  change (p.clearOrders floor b2c).orders f .cab =
    (p.clearOrders floor b2c).cabButtonOrders p.nodeId f
  by_cases served : f = floor ∧ b2c .cab = true
  · obtain ⟨rfl, flag⟩ := served
    simp only [Peers.clearOrders, flag, and_self, ↓reduceIte, same f]
  · simp only [Peers.clearOrders, if_neg served, true_and, same f]

/-- A packet brings one backup to both copies, and the cab orders of its sender to neither. -/
theorem rxPacketProcessing (same : p.Lockstep) (now : Nat) (packet : ReceivedPacket kFloors) :
    (p.rxPacketProcessing now packet).Lockstep := by
  by_cases own : packet.sender = p.nodeId
  · rw [rxPacketProcessing_own own]
    exact same
  · intro f
    rw [rxPacketProcessing_cab own f, rxPacketProcessing_nodeId]
    simp only [Peers.rxPacketProcessing, if_neg own, if_neg (Ne.symm own), ↓reduceIte, same f]

/-- Every operation keeps the copies in agreement. -/
theorem solo (same : p.Lockstep) {p' : Peers kFloors} {action : SoloAction kFloors}
    (step : SoloStep p action p') : p'.Lockstep := by
  cases action with
  | press signals =>
    obtain rfl := Option.some.inj step
    exact same.syncButtonSignals signals
  | publish own =>
    obtain rfl := Option.some.inj step
    exact same
  | step now => exact same.step step
  | clear floor b2c =>
    obtain rfl := Option.some.inj step
    exact same.clearOrders floor b2c
  | receive now packet =>
    obtain rfl := Option.some.inj step
    exact same.rxPacketProcessing now packet

end Lockstep

end Peers

/-- An operation keeps the identity of its node. -/
theorem SoloStep.nodeId {p p' : Peers kFloors} {action : SoloAction kFloors}
    (step : SoloStep p action p') : p'.nodeId = p.nodeId := by
  cases action with
  | press signals =>
    obtain rfl := Option.some.inj step
    rfl
  | publish own =>
    obtain rfl := Option.some.inj step
    rfl
  | step now => exact (Peers.advances_step step).nodeId
  | clear floor b2c =>
    obtain rfl := Option.some.inj step
    rfl
  | receive now packet =>
    obtain rfl := Option.some.inj step
    exact p.rxPacketProcessing_nodeId now packet

/-- The two local copies of a cab call stay in lockstep: after any run of a node from its default
state, whatever packets it has accepted, the order it serves and the backup of it are equal. -/
theorem cab_copies_lockstep {n : Fin kElevs}
    {trace : List (Transition (Peers kFloors) (SoloAction kFloors))} {p : Peers kFloors}
    (run : Run SoloStep { nodeId := n } trace p) (f : Fin kFloors) :
    p.orders f .cab = p.cabButtonOrders n f := by
  have kept := run.invariant (fun p => p.nodeId = n ∧ p.Lockstep)
    (fun step old => ⟨step.nodeId.trans old.1, old.2.solo step⟩) ⟨rfl, Peers.lockstep_default n⟩
  have same := kept.2 f
  rwa [kept.1] at same

/-- A served call leaves the two copies equal. -/
theorem served_call_lockstep :
    ∃ (trace : List (Transition (Peers Config.kFloors) (SoloAction Config.kFloors)))
      (p : Peers Config.kFloors), Run SoloStep { nodeId := 1 } trace p ∧
      (p.orders 0 .cab).version = 4 ∧ p.orders 0 .cab = p.cabButtonOrders 1 0 := by
  have passed : (([.press (.only 0 .cab), .clear 0 (fun _ => true)] :
      List (SoloAction Config.kFloors)).foldlM Peers.execSolo { nodeId := 1 }).any
        (fun p => decide ((p.orders 0 .cab).version = 4)) = true := by
    decide +kernel
  obtain ⟨trace, p, run, -, version⟩ := Run.of_check SoloStep id passed
  rw [decide_eq_true_eq] at version
  exact ⟨trace, p, run, version, cab_copies_lockstep run 0⟩

end CppElevator
