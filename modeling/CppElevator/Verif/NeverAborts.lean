import CppElevator.Verif.PanelMirror
import CppElevator.Verif.Reassignments

/-!
# No node ever aborts

The code ends the process in the assertion and the `Abort` of `ReassignHallOrder`, in the assertions of
the hardware calls and in the `Abort` for an undefined motor direction, and it indexes the order table
by the stored floor. In a fleet of nodes that were launched at floors, however their threads
interleave, packets are delivered and nodes crash and come back, none of these is ever reached.
-/
namespace CppElevator

open Library

variable {kFloors : Nat}

namespace Drive

/-- The drive is at a floor, and what it has sent passes the assertions of the hardware calls. -/
structure Sendable (d : Drive kFloors) : Prop where
  /-- The stored floor. -/
  inside : d.Inside
  /-- The commands of the current step. -/
  sent : ∀ c ∈ d.elev.commands, ((HardwareCall.command c).message kFloors).isSome = true

/-- An admitted act sends nothing that fails an assertion. -/
theorem Sendable.act {d : Drive kFloors} (sendable : d.Sendable) (now : Nat) {event : FsmEvent}
    {a : DriveAct} (admitted : event.Admits a) : (d.act now a).Sendable := by
  refine ⟨(kept_inside now).act admitted sendable.inside, fun c member => ?_⟩
  rw [commands_act, List.mem_append] at member
  rcases member with earlier | new
  · exact sendable.sent c earlier
  · cases a with
    | motorDir dir =>
      rw [List.mem_singleton.1 new]
      have defined : (if d.elev.state.stopped then MotorDir.stop else dir) ≠ .err := by
        split_ifs
        · decide
        · exact admitted.1
      simp [HardwareCall.message, defined]
    | showFloor =>
      dsimp only at new
      split_ifs at new
      · exact absurd new List.not_mem_nil
      · rw [List.mem_singleton.1 new]
        simp [HardwareCall.message, sendable.inside.1, sendable.inside.2]
    | halt =>
      simp only [List.mem_cons, List.not_mem_nil, or_false] at new
      rcases new with rfl | rfl <;> rfl
    | holdDoor | closeDoor | release =>
      rw [List.mem_singleton.1 new]
      rfl
    | _ => exact absurd new List.not_mem_nil

/-- What a turn does to its drive sends nothing that fails an assertion. -/
theorem kept_sendable (now : Nat) : Kept now (@Sendable kFloors) where
  looked sendable := ⟨sendable.inside, sendable.sent⟩
  act admitted sendable := sendable.act now admitted
  published sendable := ⟨sendable.inside, sendable.sent⟩

/-- A sampled drive has sent nothing yet. -/
theorem sendable_sampled {d : Drive kFloors} (inside : d.Inside) (signals : Signals kFloors)
    (requests : BoolTable kFloors) : (d.sampled signals requests).Sendable :=
  ⟨inside.sampled signals requests, fun _ member => absurd member List.not_mem_nil⟩

end Drive

namespace Panel

/-- Calls that pass their assertions are made. -/
theorem calls_total {cs : List HardwareCall}
    (accepted : ∀ c ∈ cs, (c.message kFloors).isSome = true) (p : Panel kFloors) :
    ∃ p', p.calls cs = some p' :=
  foldlM_total fun earlier c later reached split _ => by
    obtain ⟨m, sent⟩ := Option.isSome_iff_exists.1 (accepted c (by simp [split]))
    exact ⟨reached.write c, by rw [Panel.call, sent, Option.map_some]⟩

/-- `SetButtonLamps` calls for buttons of the building. -/
theorem accepted_setButtonLamps (buttonLamps requests : BoolTable kFloors) :
    ∀ c ∈ (setButtonLamps buttonLamps requests).2, (c.message kFloors).isSome = true := by
  intro c member
  obtain ⟨⟨f, b⟩, -, call⟩ := List.mem_filterMap.1 member
  dsimp only at call
  split_ifs at call
  rw [← Option.some.inj call]
  simp [HardwareCall.message, f.isLt]

end Panel

namespace ElevatorNode

/-- An event at a floor of the building is carried out, and its commands are sent. -/
theorem handleEvent_total {s : ElevatorNode kFloors} (sendable : s.drive.Sendable) (now : Nat)
    (floorSensor : Int) : ∃ s', s.handleEvent now floorSensor = some s' ∧ s'.drive.Sendable := by
  have done : ∃ s', s.handleEvent now floorSensor = some s' := by
    obtain ⟨prevFloor, prevRequests, looked⟩ := nextEvent_looked s.drive now
    have seen : (s.drive.looked prevFloor prevRequests).Sendable :=
      (Drive.kept_sendable now).looked sendable
    rw [← looked] at seen
    unfold handleEvent
    dsimp only
    generalize nextEvent s.drive now = due at seen ⊢
    obtain ⟨d, next⟩ := due
    cases next with
    | none => exact ⟨_, rfl⟩
    | some event =>
      have handled := (d.acted_fsm now floorSensor event).keeps Drive.Inside
        (fun e a admitted inside => (Drive.kept_inside now).act admitted inside) seen.inside
      simp only [ElevatorNode.event, clearServed]
      split_ifs with none inside
      · exact ⟨_, rfl⟩
      · exact ⟨_, rfl⟩
      · exact absurd handled inside
  obtain ⟨s', done⟩ := done
  exact ⟨s', done, kept_handleEvent done (Drive.kept_sendable now) sendable⟩

/-- The locked section leaves a drive whose commands may be sent. -/
theorem sendable_of_sync {s s' : ElevatorNode kFloors} {now : StepClock kFloors} {signals : Signals kFloors}
    (inside : s.drive.Inside) (done : s.sync now signals = some s') : s'.drive.Sendable := by
  obtain ⟨requests, drive⟩ := drive_of_sync done
  rw [drive]
  exact Drive.sendable_sampled inside signals requests

/-- A launch leaves a drive whose commands may be sent. -/
theorem sendable_of_launch {i : Fin kElevs} {initial : Signals kFloors} {first : StepInput kFloors}
    {s : ElevatorNode kFloors} (atFloor : initial.AtFloor)
    (launched : launch i initial first = some s) : s.drive.Sendable := by
  obtain ⟨synced, sync, handled⟩ := ElevatorNode.launch_cases launched
  have inside : (ElevatorNode.init i initial : ElevatorNode kFloors).drive.Inside :=
    (Drive.sited_init i atFloor).2
  have sendable := sendable_of_sync inside sync
  obtain ⟨s', done, sendable⟩ := handleEvent_total sendable first.now first.stopSensor
  rwa [← Option.some.inj (done.symm.trans handled)]

end ElevatorNode

namespace Fleet

/-- Every drive of the fleet may send its commands. -/
def Sendable (s : Fleet kFloors) : Prop := ∀ i, (s.node i).drive.Sendable

/-- Replacing a node. -/
theorem Sendable.setNode {s : Fleet kFloors} (sendable : s.Sendable) {i : Fin kElevs}
    {n : ElevatorNode kFloors} (new : n.drive.Sendable) : (s.setNode i n).Sendable := by
  intro j
  by_cases same : j = i
  · subst same
    rwa [setNode_node_self]
  · rw [setNode_node_of_ne s n same]
    exact sendable j

/-- Every step of a fleet keeps its commands sendable. -/
theorem Sendable.step {s s' : Fleet kFloors} {action : FleetRestartAction kFloors}
    (sendable : s.Sendable) (step : FleetRestartStep s action s') : s'.Sendable := by
  rcases action with action | ⟨i, initial, first⟩
  · cases action with
    | sync i now signals =>
      obtain ⟨n, done, rfl⟩ := Option.map_eq_some_iff.1 step
      exact sendable.setNode (ElevatorNode.sendable_of_sync (sendable i).inside done)
    | handle i now floorSensor =>
      obtain ⟨n, done, rfl⟩ := Option.map_eq_some_iff.1 step
      exact sendable.setNode (ElevatorNode.kept_handleEvent done (Drive.kept_sendable now) (sendable i))
    | transmit i => rwa [← Option.some.inj step]
    | receive i position now =>
      rcases receive_cases step with ⟨-, -, -, rfl⟩ | ⟨received, -, rfl⟩
      · exact sendable
      · exact sendable.setNode (sendable i)
  · obtain ⟨atFloor, done⟩ := Option.ite_none_right_eq_some.1 step
    obtain ⟨n, launched, rfl⟩ := Option.map_eq_some_iff.1 done
    exact sendable.setNode (ElevatorNode.sendable_of_launch atFloor launched)

end Fleet

open Peers

/-- In every run of a fleet launched at floors, crashes and launches included: the locked section of
every node's step ends, whatever the clock and the hardware read, and whatever lamps `SetButtonLamps`
has recorded, its calls to the hardware go through; every event is carried out, and all the calls it
makes go through; and so do every launch at a floor and its calls. -/
theorem never_aborts (fits : CostsFit kFloors) {start s : Fleet kFloors} (launched : start.Launched)
    {trace : List (Transition (Fleet kFloors) (FleetRestartAction kFloors))}
    (run : Run FleetRestartStep start trace s) (i : Fin kElevs) (panel : Panel kFloors) :
    (∀ now signals, ∃ n, (s.node i).sync now signals = some n ∧ ∀ buttonLamps, ∃ panel',
      panel.calls (setButtonLamps buttonLamps n.drive.controller.requests).2 = some panel') ∧
    (∀ now floorSensor, ∃ n, (s.node i).handleEvent now floorSensor = some n ∧
      ∃ panel', panel.calls (n.drive.elev.commands.map .command) = some panel') ∧
    ∀ (initial : Signals kFloors) (first : StepInput kFloors), initial.AtFloor →
      ∃ synced n, (ElevatorNode.init i initial).sync first.locked first.signals = some synced ∧
        ElevatorNode.launch i initial first = some n ∧
        ∃ panel', panel.calls (Elevator.initCalls initial.floorSensor ++
          (setButtonLamps BoolTable.zeros synced.drive.controller.requests).2 ++
          n.drive.elev.commands.map .command) = some panel' := by
  have sendable : s.Sendable := by
    refine run.invariant Fleet.Sendable (fun step sendable => sendable.step step) fun i => ?_
    obtain ⟨initial, first, atFloor, node⟩ := launched.node i
    exact ElevatorNode.sendable_of_launch atFloor node
  have synced {n : ElevatorNode kFloors} (stepping : n = s.node i ∨
      ∃ initial : Signals kFloors, initial.AtFloor ∧ n = .init i initial) (now : StepClock kFloors)
      (signals : Signals kFloors) : ∃ n', n.sync now signals = some n' := by
    obtain ⟨p, stepped⟩ :=
      (launched.dispatching run stepping signals).step_total fits now
    exact ⟨_, by rw [ElevatorNode.sync_eq, stepped, Option.map_some]⟩
  refine ⟨fun now signals => ?_, fun now floorSensor => ?_, fun initial first atFloor => ?_⟩
  · obtain ⟨n, done⟩ := synced (.inl rfl) now signals
    exact ⟨n, done, fun buttonLamps =>
      Panel.calls_total (Panel.accepted_setButtonLamps buttonLamps _) panel⟩
  · obtain ⟨n, done, sent⟩ := ElevatorNode.handleEvent_total (sendable i) now floorSensor
    refine ⟨n, done, Panel.calls_total (fun c member => ?_) panel⟩
    obtain ⟨c, listed, rfl⟩ := List.mem_map.1 member
    exact sent.sent c listed
  · obtain ⟨q, sync⟩ := synced (.inr ⟨initial, atFloor, rfl⟩) first.locked first.signals
    have inside : (ElevatorNode.init i initial : ElevatorNode kFloors).drive.Inside :=
      (Drive.sited_init i atFloor).2
    obtain ⟨n, done, sent⟩ := ElevatorNode.handleEvent_total
      (ElevatorNode.sendable_of_sync inside sync) first.now first.stopSensor
    have begun : ElevatorNode.launch i initial first = some n := by
      refine Option.bind_eq_some_iff.2 ⟨q, ?_, done⟩
      exact Option.map_eq_some_iff.2 ⟨q, sync, rfl⟩
    refine ⟨q, n, sync, begun, Panel.calls_total (fun c member => ?_) panel⟩
    rcases List.mem_append.1 member with before | event
    · rcases List.mem_append.1 before with init | lamps
      · unfold Elevator.initCalls at init
        have found : ¬initial.floorSensor = Config.kBetweenFloors := by
          have lower := atFloor.1
          unfold Config.kBetweenFloors
          omega
        rw [if_neg found] at init
        simp only [List.cons_append, List.nil_append, List.mem_cons, List.not_mem_nil, or_false]
          at init
        rcases init with rfl | rfl | rfl
        · rfl
        · rfl
        · simp [HardwareCall.message, atFloor.1, atFloor.2]
      · exact Panel.accepted_setButtonLamps _ _ c lamps
    · obtain ⟨c, listed, rfl⟩ := List.mem_map.1 event
      exact sent.sent c listed

/-- A run after which node 0 drives away towards a cab call. -/
theorem never_aborts_dispatched : ∃ trace s, Run FleetRestartStep Fleet.atBottom trace s ∧
    ((s.node 0).handleEvent 100 0).any (fun n =>
      decide (n.drive.elev.commands = [.doorOpenLamp false, .motorDir .up])) = true ∧
    ∀ panel : Panel Config.kFloors, ∃ n, (s.node 0).handleEvent 100 0 = some n ∧
      ∃ panel', panel.calls (n.drive.elev.commands.map .command) = some panel' := by
  let press : Signals Config.kFloors := { floorSensor := 0, buttons := BoolTable.only 3 .cab }
  let actions : List (FleetRestartAction Config.kFloors) := [.run (.sync 0 (.still 40) press)]
  have evaluated : (actions.foldlM Fleet.execRestart Fleet.atBottom).any (fun s =>
      ((s.node 0).handleEvent 100 0).any (fun n =>
        decide (n.drive.elev.commands = [.doorOpenLamp false, .motorDir .up])))
      = true := by decide
  obtain ⟨trace, s, run, -, driven⟩ := Run.of_check FleetRestartStep id evaluated
  exact ⟨trace, s, run, driven, fun panel =>
    (never_aborts costsFit_config Fleet.launched_atBottom run 0 panel).2.1 100 0⟩

end CppElevator
