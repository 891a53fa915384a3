import CppElevator.Shaft
import CppElevator.Verif.Interlock
import CppElevator.Verif.NodeEvents

/-!
# Where the car is

The stored floor is the last one the sensor has read at the beginning of a turn, and the car is
driven only the way it has last turned. A floor the controller has not attended to was either read
just now, or met by an emergency stop.
-/
namespace CppElevator

open Library

variable {kFloors : Nat}

namespace Mode

/-- A driven car has last moved the way it is driven. -/
def Turned (m : Mode kFloors) : Prop :=
  (m.motorDir = .up → m.inertia = .up) ∧ (m.motorDir = .down → m.inertia = .down)

/-- A decision that is carried out turns the car. -/
theorem Turned.execute {m : Mode kFloors} (turned : m.Turned) (pair : DirMovPair) :
    (m.execute pair).Turned := by
  unfold Mode.execute
  split_ifs
  · exact turned
  · constructor
    · intro up
      dsimp only at up ⊢
      rw [up]
      rfl
    · intro down
      dsimp only at down ⊢
      rw [down]
      rfl

/-- An arrival at most halts the motor. -/
theorem Turned.arrive {m : Mode kFloors} (turned : m.Turned) : m.arrive.Turned := by
  unfold Mode.arrive Turned
  dsimp only
  split_ifs
  · exact ⟨nofun, nofun⟩
  · exact turned

/-- The mode agrees with a car in its shaft. -/
structure InShaft (m : Mode kFloors) (pos : Nat) : Prop where
  /-- Door and motor. -/
  interlock : m.Interlock
  /-- The car is in the shaft. -/
  pos_le : pos ≤ 2 * (kFloors - 1)
  /-- The stored floor is a floor. -/
  floor_range : 0 ≤ m.floor ∧ m.floor < kFloors
  /-- The direction of the last movement. -/
  turned : m.Turned

end Mode

namespace Drive

/-- No event moves the stored floors. -/
theorem Handles.floor {d : Drive kFloors} {floorSensor : Int} {event : FsmEvent}
    {m : Mode kFloors} (handled : d.Handles floorSensor event m) :
    m.floor = d.mode.floor ∧ m.prevFloor = d.mode.prevFloor := by
  cases handled with
  | resetClosed | updateOpens | updateLeaves | timeoutHolds | timeoutLeaves =>
    exact ⟨(Mode.execute_frame _ _).1, (Mode.execute_frame _ _).2.1⟩
  | _ => exact ⟨rfl, rfl⟩

/-- No event drives a car another way than it has turned. -/
theorem Handles.turned {d : Drive kFloors} {floorSensor : Int} {event : FsmEvent}
    {m : Mode kFloors} (handled : d.Handles floorSensor event m) (turned : d.mode.Turned) :
    m.Turned := by
  cases handled with
  | stopBetween | stopAtFloor | arrivalStops => simp [Mode.Turned]
  | arrivalPasses => exact turned.arrive
  | resetClosed | updateOpens | updateLeaves | timeoutHolds | timeoutLeaves =>
    apply Mode.Turned.execute
    exact turned
  | _ => exact turned

/-- Every event keeps the mode in agreement with the position. -/
theorem Handles.inShaft {d : Drive kFloors} {floorSensor : Int} {event : FsmEvent}
    {m : Mode kFloors} (handled : d.Handles floorSensor event m) {pos : Nat}
    (inv : d.mode.InShaft pos) : m.InShaft pos :=
  ⟨handled.interlock inv.interlock, inv.pos_le, by rw [handled.floor.1]; exact inv.floor_range,
    handled.turned inv.turned⟩

end Drive

/-- The sensor reads a floor of the shaft, or none. -/
theorem sensorAt_cases {pos : Nat} (inside : pos ≤ 2 * (kFloors - 1)) (floors : 0 < kFloors) :
    (pos % 2 = 0 ∧ sensorAt pos = (pos / 2 : Nat) ∧ (pos / 2 : Nat) < kFloors) ∨
      (pos % 2 = 1 ∧ sensorAt pos = Config.kBetweenFloors) := by
  unfold sensorAt
  rcases Nat.mod_two_eq_zero_or_one pos with even | odd
  · exact .inl ⟨even, by simp [even], by omega⟩
  · exact .inr ⟨odd, by simp [odd]⟩

/-- A car that moves stays in the shaft. -/
theorem CarMoves.inside {dir : MotorDir} {pos pos' : Nat} (moves : CarMoves kFloors dir pos pos')
    (inside : pos ≤ 2 * (kFloors - 1)) : pos' ≤ 2 * (kFloors - 1) := by
  cases dir <;> simp only [CarMoves] at moves <;> omega

/-- A halted car stays where it is. -/
theorem CarMoves.halted {dir : MotorDir} {pos pos' : Nat} (moves : CarMoves kFloors dir pos pos')
    (moved : pos' ≠ pos) : dir = .up ∧ pos < pos' ∨ dir = .down ∧ pos' < pos := by
  cases dir <;> simp only [CarMoves] at moves <;> simp <;> omega

namespace Mode

/-- The stored floor after sampling the sensor. -/
theorem sample_floor {m : Mode kFloors} {pos' : Nat} (inside : pos' ≤ 2 * (kFloors - 1))
    (floors : 0 < kFloors) (obstruction : Bool) (requests : BoolTable kFloors) :
    (pos' % 2 = 0 ∧ (m.sample (sensorAt pos') obstruction requests).floor = (pos' / 2 : Nat)) ∨
      (pos' % 2 = 1 ∧ (m.sample (sensorAt pos') obstruction requests).floor = m.floor) := by
  rcases sensorAt_cases inside floors with ⟨even, reading, below⟩ | ⟨odd, reading⟩
  · refine .inl ⟨even, ?_⟩
    simp only [sample, reading]
    rw [if_neg (by omega)]
  · refine .inr ⟨odd, ?_⟩
    simp [sample, reading, Config.kBetweenFloors]

/-- At a floor sampling stores the reading. -/
theorem sample_floor_of_sensor {m : Mode kFloors} {pos : Nat} {f : Int}
    (inside : pos ≤ 2 * (kFloors - 1)) (floors : 0 < kFloors) (sensor : sensorAt pos = f)
    (floor : f ≠ Config.kBetweenFloors) (obstruction : Bool) (requests : BoolTable kFloors) :
    (m.sample (sensorAt pos) obstruction requests).floor = f := by
  rcases m.sample_floor inside floors obstruction requests with ⟨even, stored⟩ | ⟨odd, _⟩
  · rw [stored, ← sensor, sensorAt, if_pos even]
    simp
  · exact absurd (sensor.symm.trans (if_neg (by omega))) floor

/-- A movement of the car keeps the mode in agreement with the position. -/
theorem InShaft.moved {m : Mode kFloors} {pos pos' : Nat} (inv : m.InShaft pos)
    (moves : CarMoves kFloors m.motorDir pos pos') : m.InShaft pos' :=
  ⟨inv.interlock, moves.inside inv.pos_le, inv.floor_range, inv.turned⟩

/-- Sampling keeps the mode in agreement with the position. -/
theorem InShaft.sample {m : Mode kFloors} {pos : Nat} (inv : m.InShaft pos) (obstruction : Bool)
    (requests : BoolTable kFloors) : (m.sample (sensorAt pos) obstruction requests).InShaft pos := by
  have floors : 0 < kFloors := by have := inv.floor_range; omega
  refine ⟨inv.interlock.frame rfl, inv.pos_le, ?_, inv.turned⟩
  rcases m.sample_floor inv.pos_le floors obstruction requests with ⟨even, floor⟩ | ⟨odd, floor⟩
  · have := inv.pos_le
    rw [floor]
    omega
  · rw [floor]
    exact inv.floor_range

end Mode

namespace ElevatorNode

/-- The tests for an event keep the mode in agreement with the position. -/
theorem inShaft_of_due {d d' : Drive kFloors} {next : Option FsmEvent} (due : EventDue d d' next)
    {pos : Nat} (inv : d.mode.InShaft pos) : d'.mode.InShaft pos := by
  have noted : d.mode.noted.InShaft pos :=
    ⟨inv.interlock.frame rfl, inv.pos_le, inv.floor_range, inv.turned⟩
  cases due with
  | emergencyStop => exact inv
  | emergencyStopReset => exact inv
  | floorArrival mode _ =>
    rw [mode]
    exact ⟨inv.interlock.frame rfl, inv.pos_le, inv.floor_range, inv.turned⟩
  | tableUpdate mode _ _ => rwa [mode]
  | doorTimeout mode _ _ _ => rwa [mode]
  | floorTimeout mode _ _ => rwa [mode]
  | none mode _ _ => rwa [mode]

/-- Neither the tests for an event nor its handler move the stored floor. -/
theorem floor_fsmDue {d d' : Drive kFloors} {next : Option FsmEvent} (due : EventDue d d' next)
    (now : Nat) (floorSensor : Int) :
    (fsmDue d' now floorSensor next).mode.floor = d.mode.floor := by
  have tested : d'.mode.floor = d.mode.floor := by
    cases due with
    | emergencyStop => rfl
    | emergencyStopReset => rfl
    | floorArrival mode _ => rw [mode]; rfl
    | tableUpdate mode _ _ => rw [mode]; rfl
    | doorTimeout mode _ _ _ => rw [mode]; rfl
    | floorTimeout mode _ _ => rw [mode]; rfl
    | none mode _ _ => rw [mode]; rfl
  cases next with
  | none => exact tested
  | some event => exact (d'.handles_fsm now floorSensor event).floor.1.trans tested

/-- Handling the event that is due keeps the mode in agreement with the position. -/
theorem inShaft_fsmDue {d d' : Drive kFloors} {next : Option FsmEvent} (due : EventDue d d' next)
    {pos : Nat} (inv : d.mode.InShaft pos) (now : Nat) (floorSensor : Int) :
    (fsmDue d' now floorSensor next).mode.InShaft pos := by
  have tested := inShaft_of_due due inv
  cases next with
  | none => exact tested
  | some event => exact (d'.handles_fsm now floorSensor event).inShaft tested

end ElevatorNode

/-- What a turn of the shaft is made of. -/
theorem shaftStep_cases {s s' : Shaft kFloors} {input : ShaftInput kFloors}
    (step : ShaftStep s input s') :
    (CarMoves kFloors s.node.drive.mode.motorDir s.pos input.pos ∧
      CarMoves kFloors s.node.drive.mode.motorDir input.pos input.later) ∧
      s'.pos = input.later ∧ s.node.turn input.turn = some s'.node := by
  unfold ShaftStep Shaft.exec at step
  dsimp only at step
  split_ifs at step with moves
  obtain ⟨node, turned, rfl⟩ := Option.map_eq_some_iff.1 step
  exact ⟨moves, rfl, turned⟩

namespace Shaft

/-- The invariant of a node in its shaft. -/
def Located (s : Shaft kFloors) : Prop := s.node.drive.mode.InShaft s.pos

/-- The mode in which a turn looks for an event agrees with the position the car has got to. -/
theorem Located.due {s : Shaft kFloors} {input : ShaftInput kFloors} (located : s.Located)
    (moves : CarMoves kFloors s.node.drive.mode.motorDir s.pos input.pos ∧
      CarMoves kFloors s.node.drive.mode.motorDir input.pos input.later)
    {q : ElevatorNode kFloors} (due : s.node.due input.turn = some q) :
    q.drive.mode.InShaft input.later := by
  obtain ⟨requests, mode, _⟩ := ElevatorNode.mode_of_due due
  rw [mode]
  exact ((located.moved moves.1).sample _ _).moved moves.2

/-- A turn keeps track of the car. -/
theorem Located.step {s s' : Shaft kFloors} {input : ShaftInput kFloors} (located : s.Located)
    (step : ShaftStep s input s') : s'.Located := by
  obtain ⟨moves, pos, turned⟩ := shaftStep_cases step
  unfold Located
  rw [pos]
  refine ElevatorNode.turn_invariant turned (fun m => m.InShaft input.later)
    (fun m requests inv => ⟨inv.interlock.frame rfl, inv.pos_le, inv.floor_range, inv.turned⟩) ?_
  intro q d next due _ event
  exact ElevatorNode.inShaft_fsmDue event (located.due moves due) _ _

/-- The stored floor of a car that starts at a floor is that floor. -/
theorem floor_init (nodeId : Fin kElevs) (floor : Fin kFloors) (obstruction stop : Bool) :
    (init nodeId floor obstruction stop).node.drive.mode.floor = floor.val := by
  have range : ¬((floor.val : Int) < 0 ∨ (kFloors : Int) ≤ floor.val) := by
    have := floor.isLt
    omega
  simp only [init, ElevatorNode.init, Drive.init, Elevator.init, Drive.mode,
    ElevatorState.setFloor, if_neg range, ElevatorState.init]

/-- A car starts at a floor. -/
theorem located_init (nodeId : Fin kElevs) (floor : Fin kFloors) (obstruction stop : Bool) :
    (init nodeId floor obstruction stop).Located := by
  have halted : (init nodeId floor obstruction stop).node.drive.mode.motorDir = .stop :=
    (Drive.init_idle _ _).2.1
  have below := floor.isLt
  refine ⟨(Drive.init_interlock_armed _ _).1, ?_, ?_, ?_⟩
  · simp only [init]
    omega
  · rw [floor_init]
    omega
  · simp [Mode.Turned, halted]

end Shaft

end CppElevator
