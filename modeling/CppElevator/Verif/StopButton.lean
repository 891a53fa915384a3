import CppElevator.Library.Registers
import CppElevator.Verif.DriveActs

/-!
# The stop button

Every press of the stop button turns the emergency stop over, whatever else is due in the same turn:
the stop is in force exactly after an odd number of presses, counted from what the button read when the
elevator was initialised. While it is in force no turn commands the motor to move.
-/
namespace CppElevator

open Library

variable {kFloors : Nat}

namespace Drive

/-- Only the two events of the stop button touch the emergency stop. -/
theorem Handles.stopped {d : Drive kFloors} {floorSensor : Int} {event : FsmEvent} {m : Mode kFloors}
    (handled : d.Handles floorSensor event m) : m.stopped = match event with
      | .emergencyStop => true
      | .emergencyStopReset => false
      | _ => d.mode.stopped := by
  have executed (m' : Mode kFloors) (pair : DirMovPair) : (m'.execute pair).stopped = m'.stopped := by
    unfold Mode.execute
    split_ifs <;> rfl
  cases handled with
  | resetClosed | updateOpens | updateLeaves | timeoutHolds | timeoutLeaves => exact executed _ _
  | _ => rfl

/-- Every motor command of the current step is `Stop`. -/
def Halting (d : Drive kFloors) : Prop := ∀ dir, .motorDir dir ∈ d.elev.commands → dir = .stop

/-- An act that commands no motor leaves a halting drive halting. -/
theorem Halting.act {d : Drive kFloors} (halting : d.Halting) (now : Nat) {a : DriveAct}
    (quiet : ∀ dir, a = .motorDir dir → d.elev.state.stopped = true ∨ dir = .stop) :
    (d.act now a).Halting := by
  intro dir sent
  rw [commands_act, List.mem_append] at sent
  rcases sent with earlier | sent
  · exact halting dir earlier
  · cases a with
    | motorDir commanded =>
      simp only [List.mem_singleton, Command.motorDir.injEq] at sent
      rw [sent]
      rcases quiet commanded rfl with stopped | stop
      · rw [if_pos stopped]
      · rw [stop, ite_self]
    | showFloor => split_ifs at sent <;> simp at sent
    | _ => simp_all

/-- After the handler of an event, a drive under the emergency stop has been sent no motor command
but `Stop`. -/
theorem halting_fsm {d : Drive kFloors} (silent : d.elev.commands = []) (now : Nat)
    (floorSensor : Int) (event : FsmEvent)
    (stopped : (d.fsm now floorSensor event).1.elev.state.stopped = true) :
    (d.fsm now floorSensor event).1.Halting := by
  have start : d.Halting := by
    intro dir sent
    rw [silent] at sent
    exact absurd sent List.not_mem_nil
  have acted := d.acted_fsm now floorSensor event
  by_cases emergency : event = .emergencyStop
  · subst emergency
    refine acted.keeps Halting (fun e a admitted halting => halting.act now ?_) start
    rintro dir rfl
    exact absurd rfl admitted.2
  · refine acted.keeps (fun e => e.elev.state.stopped = true → e.Halting)
      (fun e a admitted halting stopped => ?_) (fun _ => start) stopped
    rw [stopped_act] at stopped
    cases a with
    | halt => exact absurd admitted emergency
    | release => exact absurd stopped Bool.false_ne_true
    | motorDir dir => exact (halting stopped).act now fun _ _ => .inl stopped
    | _ => exact (halting stopped).act now fun _ same => by cases same

end Drive

namespace ElevatorNode

variable {s s' : ElevatorNode kFloors} {input : NodeInput kFloors}

/-- The event that turns the emergency stop over. -/
def turnsOver (stopped : Bool) : FsmEvent := if stopped then .emergencyStopReset else .emergencyStop

/-- The stop button goes before everything else. -/
theorem stop_of_nextEvent (d : Drive kFloors) (now : Nat) :
    d.elev.stopPressed = true ∧ (nextEvent d now).2 = some (turnsOver d.elev.state.stopped) ∨
      d.elev.stopPressed = false ∧ ∀ stopped, (nextEvent d now).2 ≠ some (turnsOver stopped) := by
  unfold nextEvent turnsOver
  cases pressed : d.elev.stopPressed with
  | true =>
    left
    cases stopped : d.elev.state.stopped <;>
      simp [Elevator.emergencyStop, Elevator.emergencyStopReset, pressed, stopped]
  | false =>
    right
    refine ⟨rfl, fun stopped => ?_⟩
    simp only [Elevator.emergencyStop, Elevator.emergencyStopReset, pressed, Bool.false_and,
      Bool.false_eq_true, ↓reduceIte]
    cases stopped <;> split_ifs <;> simp

/-- A press turns the emergency stop over, and only a press does. -/
theorem stopped_fsmDue {d : Drive kFloors} {now : Nat} {floorSensor : Int} {next : Option FsmEvent}
    {press : Bool} (button : press = true ∧ next = some (turnsOver d.elev.state.stopped) ∨
      press = false ∧ ∀ stopped, next ≠ some (turnsOver stopped)) :
    (fsmDue d now floorSensor next).elev.state.stopped = (d.elev.state.stopped ^^ press) := by
  have handled (event : FsmEvent) := (d.handles_fsm now floorSensor event).stopped
  rcases button with ⟨rfl, rfl⟩ | ⟨rfl, other⟩
  · refine (handled _).trans ?_
    cases d.elev.state.stopped <;> rfl
  · rw [Bool.xor_false]
    cases next with
    | none => rfl
    | some event =>
      refine (handled event).trans ?_
      cases event with
      | emergencyStop => exact absurd rfl (other false)
      | emergencyStopReset => exact absurd rfl (other true)
      | _ => rfl

/-- What a turn makes of the stop button and of the emergency stop, and what it commands under it. -/
theorem stop_of_turn (turned : s.turn input = some s') :
    s'.drive.elev.stopButton = input.signals.stop ∧
      s'.drive.elev.state.stopped =
        (s.drive.elev.state.stopped ^^ (input.signals.stop && !s.drive.elev.stopButton)) ∧
      (s'.drive.elev.state.stopped = true → s'.drive.Halting) := by
  obtain ⟨q, d, next, requests, prevRequests, prevFloor, -, sampled, found, looked, after⟩ :=
    turn_parts turned
  have stopped : d.elev.state.stopped = s.drive.elev.state.stopped := by
    have here := s.drive.mode_looked_sampled input.signals requests prevRequests prevFloor
    rw [← looked] at here
    exact congrArg Mode.stopped here
  have button := stop_of_nextEvent q.drive input.now
  have unlooked : q.drive.elev.state = d.elev.state := by
    rw [sampled, looked]
    rfl
  have press : q.drive.elev.stopPressed = (input.signals.stop && !s.drive.elev.stopButton) := by
    rw [sampled]
    rfl
  rw [found, press, unlooked] at button
  have kept : Drive.Kept input.now fun e : Drive kFloors =>
      e.elev.stopButton = input.signals.stop :=
    ⟨fun held => held, fun {e _ a} _ held => (e.buttons_act input.now a).1.trans held,
      fun held => held⟩
  refine ⟨kept_turn turned kept fun _ => rfl, ?_⟩
  have silent : d.elev.commands = [] := by
    rw [looked]
    rfl
  have turned : (fsmDue d input.now input.stopSensor next).elev.state.stopped =
      (d.elev.state.stopped ^^ pressed input.signals.stop s.drive.elev.stopButton) :=
    stopped_fsmDue button
  rw [stopped] at turned
  have halting : (fsmDue d input.now input.stopSensor next).elev.state.stopped = true →
      (fsmDue d input.now input.stopSensor next).Halting := by
    cases next with
    | none =>
      intro _ dir sent
      rw [show (fsmDue d input.now input.stopSensor none).elev.commands = [] from silent]
        at sent
      exact absurd sent List.not_mem_nil
    | some event => exact Drive.halting_fsm silent input.now input.stopSensor event
  rcases after with same | ⟨requests', same⟩ <;> rw [same] <;> exact ⟨turned, halting⟩

/-- What the stop button read in each turn. -/
def stopReadings (trace : List (Transition (ElevatorNode kFloors) (NodeInput kFloors))) : List Bool :=
  trace.map fun t => t.action.signals.stop

/-- After every run of turns, the emergency stop is in force exactly if the stop button was held when
the elevator was initialised and has been pressed an even number of times since, or was not held and has
been pressed an odd number of times; and a turn that ends under the emergency stop has sent no motor
command but `Stop`. -/
theorem stop_button_toggles {nodeId : Fin kElevs} {initial : Signals kFloors}
    {trace : List (Transition (ElevatorNode kFloors) (NodeInput kFloors))}
    (run : Run NodeStep (.init nodeId initial) trace s) :
    s.drive.elev.state.stopped =
        (initial.stop ^^ decide (risingEdges false (stopReadings trace) % 2 = 1)) ∧
      ∀ t ∈ trace, t.post.drive.elev.state.stopped = true →
        ∀ dir, .motorDir dir ∈ t.post.drive.elev.commands → dir = .stop := by
  constructor
  · have followed := run.follows
      (fun s => (s.drive.elev.stopButton, s.drive.elev.state.stopped))
      (fun register input =>
        (input.signals.stop, register.2 ^^ (input.signals.stop && !register.1)))
      fun turned => Prod.ext (stop_of_turn turned).1 (stop_of_turn turned).2.1
    have toggled := foldl_toggle (stopReadings trace) false initial.stop
    rw [← toggled, stopReadings, List.foldl_map]
    rw [List.foldl_map] at followed
    exact congrArg Prod.snd followed
  · intro t member stopped
    exact (stop_of_turn (run.steps t member)).2.2 stopped

/-- A car on its way to a call is stopped, and the button held for another turn. -/
theorem stop_button_toggles_travelling : ∃ trace s, Run NodeStep
      (.init 0 { floorSensor := 0 } : ElevatorNode Config.kFloors) trace s ∧
    stopReadings trace = [false, true, true] ∧ s.drive.elev.state.stopped = true ∧
    (s.drive.elev.state.stopped =
        (false ^^ decide (risingEdges false (stopReadings trace) % 2 = 1)) ∧
      ∀ t ∈ trace, t.post.drive.elev.state.stopped = true →
        ∀ dir, .motorDir dir ∈ t.post.drive.elev.commands → dir = .stop) := by
  let call : NodeInput Config.kFloors :=
    { now := 40, signals := { floorSensor := 0, buttons := .only 3 .cab } }
  let stop (now : Nat) : NodeInput Config.kFloors :=
    { now := now, signals := { floorSensor := Config.kBetweenFloors, stop := true } }
  have evaluated : ([call, stop 80, stop 120].foldlM ElevatorNode.turn
      (.init 0 { floorSensor := 0 })).any (fun s => s.drive.elev.state.stopped) = true := by
    decide +kernel
  obtain ⟨trace, s, run, labels, stopped⟩ :=
    Run.of_check NodeStep id evaluated
  have readings : stopReadings trace = [false, true, true] :=
    calc
      stopReadings trace = (trace.map Transition.action).map fun input => input.signals.stop := by
        rw [List.map_map]
        rfl
      _ = [false, true, true] := by rw [labels]; rfl
  exact ⟨trace, s, run, readings, stopped, stop_button_toggles run⟩

end ElevatorNode

end CppElevator
