import CppElevator.Solo
import CppElevator.Verif.Readoption

/-!
# A node of a fleet among arbitrary peers

Between two launches, what the threads of a node do to its shared part in a fleet is a run of one node
among arbitrary peers. What holds of such runs therefore holds of every node of every fleet.
-/
namespace CppElevator

open Library

variable {kFloors : Nat}

namespace ElevatorNode

variable {s s' : ElevatorNode kFloors} {now : Nat}

/-- The locked section of a step: the presses, the own state, the passes. -/
theorem solo_of_sync {now : StepClock kFloors} {signals : Signals kFloors}
    (done : s.sync now signals = some s') :
    ∃ trace, Run SoloStep s.peers trace s'.peers := by
  rw [sync_eq] at done
  obtain ⟨peers, stepped, rfl⟩ := Option.map_eq_some_iff.1 done
  obtain ⟨buttonSignals, own, synced⟩ : ∃ buttonSignals own, (s.synced signals).peers =
      (s.peers.syncButtonSignals buttonSignals).copyOwnState own := ⟨_, _, rfl⟩
  rw [synced] at stepped
  have press : SoloStep s.peers (.press buttonSignals) _ := rfl
  have publish : SoloStep (s.peers.syncButtonSignals buttonSignals) (.publish own) _ := rfl
  have passes : SoloStep ((s.peers.syncButtonSignals buttonSignals).copyOwnState own) (.step now)
      peers := stepped
  exact ⟨_, ((Run.single press).snoc publish).snoc passes⟩

/-- The locked section of an event, if there is one: the clearing, if a button is served, and the own
state. -/
theorem solo_of_handleEvent {floorSensor : Int} (done : s.handleEvent now floorSensor = some s') :
    ∃ trace, Run SoloStep s.peers trace s'.peers := by
  unfold handleEvent at done
  dsimp only at done
  cases next : (nextEvent s.drive now).2 with
  | none =>
    rw [next] at done
    obtain rfl := Option.some.inj done
    exact ⟨[], .nil _⟩
  | some event =>
    rw [next] at done
    obtain ⟨peers, cleared, rfl⟩ := Option.map_eq_some_iff.1 done
    have publish (own : ElevatorState kFloors) : SoloStep peers (.publish own) (peers.copyOwnState own) :=
      rfl
    unfold clearServed at cleared
    split_ifs at cleared with none inside
    · rw [← Option.some.inj cleared] at publish
      rw [← Option.some.inj cleared]
      exact ⟨_, .single (publish _)⟩
    · have clear : SoloStep s.peers (.clear _ _) peers := cleared
      exact ⟨_, (Run.single clear).snoc (publish _)⟩

/-- The processing of a packet. -/
theorem solo_of_receive (s : ElevatorNode kFloors) (now : Nat) (packet : ReceivedPacket kFloors) :
    ∃ trace, Run SoloStep s.peers trace (s.rxPacketProcessing now packet).peers := by
  have receive : SoloStep s.peers (.receive now packet) (s.peers.rxPacketProcessing now packet) := rfl
  exact ⟨_, .single receive⟩

end ElevatorNode

namespace Fleet

variable {s s' : Fleet kFloors} {j : Fin kElevs}

/-- The step launches the node again. -/
def Relaunches (j : Fin kElevs) : FleetRestartAction kFloors → Prop
  | .run _ => False
  | .restart i _ _ => i = j

instance (j : Fin kElevs) : DecidablePred (@Relaunches kFloors j)
  | .run _ => inferInstanceAs (Decidable False)
  | .restart i _ _ => inferInstanceAs (Decidable (i = j))

/-- A node that is replaced by what it becomes itself. -/
theorem solo_of_setNode {i : Fin kElevs} {n : ElevatorNode kFloors}
    (matched : ∃ trace, Run SoloStep (s.node i).peers trace n.peers) (j : Fin kElevs) :
    ∃ trace, Run SoloStep (s.node j).peers trace ((s.setNode i n).node j).peers := by
  by_cases here : j = i
  · subst here
    rwa [setNode_node_self]
  · rw [setNode_node_of_ne s n here]
    exact ⟨[], .nil _⟩

/-- A step of the fleet that does not launch the node is a run of the node among arbitrary peers. -/
theorem solo_of_step {action : FleetRestartAction kFloors} (step : FleetRestartStep s action s')
    (stays : ¬Relaunches j action) :
    ∃ trace, Run SoloStep (s.node j).peers trace (s'.node j).peers := by
  rcases action with action | ⟨i, initial, now, signals⟩
  · cases action with
    | sync i now signals =>
      obtain ⟨n, done, rfl⟩ := Option.map_eq_some_iff.1 step
      exact solo_of_setNode (ElevatorNode.solo_of_sync done) j
    | handle i now floorSensor =>
      obtain ⟨n, done, rfl⟩ := Option.map_eq_some_iff.1 step
      exact solo_of_setNode (ElevatorNode.solo_of_handleEvent done) j
    | transmit i =>
      obtain rfl := Option.some.inj step
      exact ⟨[], .nil _⟩
    | receive i position now =>
      rcases receive_cases step with ⟨-, -, -, rfl⟩ | ⟨received, -, rfl⟩
      · exact ⟨[], .nil _⟩
      · exact solo_of_setNode ((s.node i).solo_of_receive now received) j
  · obtain ⟨atFloor, done⟩ := Option.ite_none_right_eq_some.1 step
    obtain ⟨n, launched, rfl⟩ := Option.map_eq_some_iff.1 done
    rw [setNode_node_of_ne s n (Ne.symm stays)]
    exact ⟨[], .nil _⟩

/-- As long as a node of a fleet is not launched again, its shared part runs as one node among arbitrary
peers. -/
theorem solo_of_run {trace : List (Transition (Fleet kFloors) (FleetRestartAction kFloors))}
    (run : Run FleetRestartStep s trace s') (stays : ∀ t ∈ trace, ¬Relaunches j t.action) :
    ∃ trace', Run SoloStep (s.node j).peers trace' (s'.node j).peers := by
  refine run.invariant_of_admitted (fun t => ¬Relaunches j t.action)
    (fun l => ∃ trace', Run SoloStep (s.node j).peers trace' (l.node j).peers) ?_ stays ⟨[], .nil _⟩
  rintro l l' action step kept ⟨before, earlier⟩
  obtain ⟨after, later⟩ := solo_of_step step kept
  exact ⟨_, earlier.append later⟩

end Fleet

end CppElevator
