import CppElevator.Verif.ShaftPosition

/-!
# The ends of the shaft

A car is driven up only from below the top floor and down only from above the bottom floor,
unless an emergency stop is reset behind a closed door at an end floor the car has last moved
towards: the reset resumes the last movement without looking at the floor.
-/
namespace CppElevator

open Library

variable {kFloors : Nat}

namespace Mode

/-- A car that has moved towards an end floor has not left it since. -/
structure Landed (m : Mode kFloors) (pos : Nat) : Prop where
  /-- A car that has moved up to the top floor stands there. -/
  top : m.inertia = .up → m.floor = (kFloors : Int) - 1 → pos = 2 * (kFloors - 1)
  /-- A car that has moved down to the bottom floor stands there. -/
  bottom : m.inertia = .down → m.floor = 0 → pos = 0
  /-- A car that has moved up has read nothing since it attended to the top floor. -/
  attendedTop : m.inertia = .up → m.prevFloor = (kFloors : Int) - 1 → m.floor = (kFloors : Int) - 1
  /-- A car that has moved down has read nothing since it attended to the bottom floor. -/
  attendedBottom : m.inertia = .down → m.prevFloor = 0 → m.floor = 0

/-- The car is driven towards floors that are still ahead of it. -/
structure Inward (m : Mode kFloors) (pos : Nat) : Prop extends m.Landed pos where
  /-- A car driven up has a floor above the last one attended to. -/
  up : m.motorDir = .up → m.prevFloor ≠ (kFloors : Int) - 1
  /-- A car driven down has a floor below the last one attended to. -/
  down : m.motorDir = .down → m.prevFloor ≠ 0

/-- The car is not driven on from an end floor it has read. -/
structure Halts (m : Mode kFloors) : Prop where
  /-- The top floor. -/
  top : m.motorDir = .up → m.floor ≠ (kFloors : Int) - 1
  /-- The bottom floor. -/
  bottom : m.motorDir = .down → m.floor ≠ 0

/-- The floors ahead are a matter of the stored floors, the motor and the direction alone. -/
theorem Inward.frame {m m' : Mode kFloors} {pos : Nat} (inward : m.Inward pos)
    (same : (m'.floor, m'.prevFloor, m'.motorDir, m'.inertia) =
      (m.floor, m.prevFloor, m.motorDir, m.inertia)) : m'.Inward pos := by
  cases m
  cases m'
  simp only [Prod.mk.injEq] at same
  obtain ⟨rfl, rfl, rfl, rfl⟩ := same
  exact ⟨⟨inward.top, inward.bottom, inward.attendedTop, inward.attendedBottom⟩, inward.up,
    inward.down⟩

/-- A car that has attended to the stored floor is not driven on from an end floor. -/
theorem Inward.halts {m : Mode kFloors} {pos : Nat} (inward : m.Inward pos)
    (attended : m.prevFloor = m.floor) : m.Halts :=
  ⟨by rw [← attended]; exact inward.up, by rw [← attended]; exact inward.down⟩

/-- A movement of the car keeps the floors ahead. -/
theorem Inward.moved {m : Mode kFloors} {pos pos' : Nat} (inward : m.Inward pos)
    (inv : m.InShaft pos) (moves : CarMoves kFloors m.motorDir pos pos') : m.Inward pos' := by
  have inside := moves.inside inv.pos_le
  refine ⟨⟨?_, ?_, inward.attendedTop, inward.attendedBottom⟩, inward.up, inward.down⟩
  · intro last reached
    have old := inward.top last reached
    by_contra left
    rcases moves.halted (by omega) with ⟨_, higher⟩ | ⟨driven, _⟩
    · omega
    · cases last.symm.trans (inv.turned.2 driven)
  · intro last reached
    have old := inward.bottom last reached
    by_contra left
    rcases moves.halted (by omega) with ⟨driven, _⟩ | ⟨_, lower⟩
    · cases last.symm.trans (inv.turned.1 driven)
    · omega

/-- Sampling keeps the floors ahead. -/
theorem Inward.sample {m : Mode kFloors} {pos : Nat} (inward : m.Inward pos)
    (inv : m.InShaft pos) (obstruction : Bool) (requests : BoolTable kFloors) :
    (m.sample (sensorAt pos) obstruction requests).Inward pos := by
  have floors : 0 < kFloors := by have := inv.floor_range; omega
  have inside := inv.pos_le
  have sampled := m.sample_floor inside floors obstruction requests
  refine ⟨⟨?_, ?_, ?_, ?_⟩, inward.up, inward.down⟩
  · intro last reached
    rcases sampled with ⟨even, floor⟩ | ⟨odd, floor⟩
    · rw [floor] at reached
      omega
    · rw [floor] at reached
      exact inward.top last reached
  · intro last reached
    rcases sampled with ⟨even, floor⟩ | ⟨odd, floor⟩
    · rw [floor] at reached
      omega
    · rw [floor] at reached
      exact inward.bottom last reached
  · intro last attended
    have reached := inward.attendedTop last attended
    have there := inward.top last reached
    rcases sampled with ⟨even, floor⟩ | ⟨odd, floor⟩
    · rw [floor]
      omega
    · rw [floor, reached]
  · intro last attended
    have reached := inward.attendedBottom last attended
    have there := inward.bottom last reached
    rcases sampled with ⟨even, floor⟩ | ⟨odd, floor⟩
    · rw [floor]
      omega
    · rw [floor, reached]

/-- A halted car has its floors ahead whatever it attends to. -/
theorem Landed.halted {m m' : Mode kFloors} {pos : Nat} (landed : m.Landed pos)
    (inertia : m'.inertia = m.inertia) (floor : m'.floor = m.floor)
    (prevFloor : m'.prevFloor = m.prevFloor) (halted : m'.motorDir = .stop) : m'.Inward pos :=
  ⟨⟨by rw [inertia, floor]; exact landed.top, by rw [inertia, floor]; exact landed.bottom,
    by rw [inertia, floor, prevFloor]; exact landed.attendedTop,
    by rw [inertia, floor, prevFloor]; exact landed.attendedBottom⟩,
    by simp [halted], by simp [halted]⟩

/-- A halted car is not driven on. -/
theorem halts_of_stop {m : Mode kFloors} (halted : m.motorDir = .stop) : m.Halts :=
  ⟨by simp [halted], by simp [halted]⟩

/-- Carrying out a decision that leads away from the end floors. -/
theorem Inward.execute {m : Mode kFloors} {pos : Nat} (inward : m.Inward pos) {pair : DirMovPair}
    (up : pair.motorDir = .up →
      m.floor ≠ (kFloors : Int) - 1 ∧ m.prevFloor ≠ (kFloors : Int) - 1)
    (down : pair.motorDir = .down → m.floor ≠ 0 ∧ m.prevFloor ≠ 0) :
    (m.execute pair).Inward pos := by
  unfold Mode.execute
  split_ifs
  · exact inward
  · refine ⟨?_, fun driven => (up driven).2, fun driven => (down driven).2⟩
    cases dir : pair.motorDir with
    | up =>
      exact ⟨fun _ reached => absurd reached (up dir).1, nofun,
        fun _ attended => absurd attended (up dir).2, nofun⟩
    | down =>
      exact ⟨nofun, fun _ reached => absurd reached (down dir).1, nofun,
        fun _ attended => absurd attended (down dir).2⟩
    | stop | err =>
      exact ⟨inward.top, inward.bottom, inward.attendedTop, inward.attendedBottom⟩

/-- Carrying out a decision that does not drive the car on from an end floor. -/
theorem Halts.execute {m : Mode kFloors} (halts : m.Halts) {pair : DirMovPair}
    (up : pair.motorDir = .up → m.floor ≠ (kFloors : Int) - 1)
    (down : pair.motorDir = .down → m.floor ≠ 0) : (m.execute pair).Halts := by
  unfold Mode.execute
  split_ifs
  · exact halts
  · exact ⟨up, down⟩

end Mode

namespace Drive

/-- A decision at a floor that has been attended to never leads out of the shaft. -/
theorem chooseDirection_inward {d : Drive kFloors} (attended : d.mode.prevFloor = d.mode.floor) :
    ((d.controller.chooseDirection d.mode.floor).motorDir = .up →
      d.mode.floor ≠ (kFloors : Int) - 1 ∧ d.mode.prevFloor ≠ (kFloors : Int) - 1) ∧
    ((d.controller.chooseDirection d.mode.floor).motorDir = .down →
      d.mode.floor ≠ 0 ∧ d.mode.prevFloor ≠ 0) := by
  rw [attended, and_self, and_self]
  exact ⟨fun up => (Controller.floor_lt_of_chooseDirection_up up).ne,
    fun down => (Controller.floor_pos_of_chooseDirection_down down).ne'⟩

namespace Handles

variable {d : Drive kFloors} {floorSensor : Int} {m : Mode kFloors} {pos : Nat}

/-- An emergency stop halts the car. -/
theorem inward_emergencyStop (handled : d.Handles floorSensor .emergencyStop m)
    (landed : d.mode.Landed pos) : m.Inward pos ∧ m.Halts := by
  cases handled <;> exact ⟨landed.halted rfl rfl rfl rfl, Mode.halts_of_stop rfl⟩

/-- A floor timeout drives no car. -/
theorem inward_floorTimeout (handled : d.Handles floorSensor .floorTimeout m)
    (inward : d.mode.Inward pos) : m.Inward pos := by
  cases handled
  exact inward.frame rfl

/-- A table update never drives the car out of the shaft. -/
theorem inward_tableUpdate (handled : d.Handles floorSensor .tableUpdate m)
    (inward : d.mode.Inward pos) (attended : d.mode.prevFloor = d.mode.floor) : m.Inward pos := by
  cases handled with
  | updateHolds => exact inward.frame rfl
  | updateWaits | updateBlocked => exact inward
  | updateOpens =>
    have held : d.mode.holdDoor.Inward pos := inward.frame rfl
    exact held.execute (by simp) (by simp)
  | updateLeaves =>
    have closed : { d.mode with doorOpen := false }.Inward pos := inward.frame rfl
    have decision := chooseDirection_inward attended
    exact closed.execute decision.1 decision.2

/-- A door timeout never drives the car out of the shaft. -/
theorem inward_doorTimeout (handled : d.Handles floorSensor .doorTimeout m)
    (inward : d.mode.Inward pos) (attended : d.mode.prevFloor = d.mode.floor) : m.Inward pos := by
  have timed (running opened : Bool) :
      { d.mode with doorTimer := running, doorOpen := opened }.Inward pos := inward.frame rfl
  cases handled with
  | timeoutBlocked | timeoutWaits => exact inward.frame rfl
  | timeoutHolds => exact (timed true d.mode.doorOpen).execute (by simp) (by simp)
  | timeoutLeaves =>
    have decision := chooseDirection_inward attended
    exact (timed false false).execute decision.1 decision.2

/-- An arrival stops the car at the end floors at the latest. -/
theorem inward_floorArrival (handled : d.Handles floorSensor .floorArrival m)
    (landed : d.mode.Landed pos) (inv : d.mode.InShaft pos)
    (attended : d.mode.prevFloor = d.mode.floor) : m.Inward pos := by
  cases handled with
  | arrivalStops => exact landed.halted rfl rfl rfl rfl
  | arrivalPasses passes =>
    have passing (driven : d.mode.motorDir ≠ .stop) :
        d.controller.shouldStop d.mode.floor = false := by
      refine passes.resolve_left fun other => driven ?_
      exact inv.interlock.notMoving_halts other
    refine ⟨⟨landed.top, landed.bottom, landed.attendedTop, landed.attendedBottom⟩,
      fun up => ?_, fun down => ?_⟩
    · have up' : d.mode.motorDir = .up := by
        simp only [Mode.arrive] at up
        split_ifs at up
        exact up
      have goesOn := passing (by simp [up'])
      intro top
      have stops : d.controller.shouldStop d.mode.floor = true :=
        Controller.shouldStop_top (inv.turned.1 up') (by rw [← attended]; exact top.ge)
      exact Bool.false_ne_true (goesOn.symm.trans stops)
    · have down' : d.mode.motorDir = .down := by
        simp only [Mode.arrive] at down
        split_ifs at down
        exact down
      have goesOn := passing (by simp [down'])
      intro bottom
      have stops : d.controller.shouldStop d.mode.floor = true :=
        Controller.shouldStop_bottom (inv.turned.2 down') (by rw [← attended]; exact bottom.le)
      exact Bool.false_ne_true (goesOn.symm.trans stops)

/-- A reset resumes a movement towards floors that are still ahead, unless the car stands at the
end floor it has moved towards. -/
theorem inward_emergencyStopReset (handled : d.Handles floorSensor .emergencyStopReset m)
    (inward : d.mode.Inward pos) (inv : d.mode.InShaft pos) (stopped : d.mode.stopped = true)
    (ahead : d.mode.doorOpen = false →
      ¬(d.mode.inertia = .up ∧ sensorAt pos = (kFloors : Int) - 1 ∨
        d.mode.inertia = .down ∧ sensorAt pos = 0)) : m.Inward pos ∧ m.Halts := by
  have halted := inv.interlock.stopped_halts stopped
  cases handled with
  | resetOpen =>
    exact ⟨inward.toLanded.halted rfl rfl rfl halted, Mode.halts_of_stop halted⟩
  | resetClosed closed =>
    have released : { d.mode with stopped := false }.Inward pos :=
      inward.toLanded.halted rfl rfl rfl halted
    have range := inv.floor_range
    have up (resumes : (resumption d.mode.inertia).motorDir = .up) :
        d.mode.floor ≠ (kFloors : Int) - 1 ∧ d.mode.prevFloor ≠ (kFloors : Int) - 1 := by
      have last : d.mode.inertia = .up := by
        cases dir : d.mode.inertia <;> simp [resumption, dir] at resumes ⊢
      have below : d.mode.floor ≠ (kFloors : Int) - 1 := by
        intro reached
        have there := inward.top last reached
        refine ahead closed (.inl ⟨last, ?_⟩)
        simp only [sensorAt, there]
        omega
      exact ⟨below, fun attended => below (inward.attendedTop last attended)⟩
    have down (resumes : (resumption d.mode.inertia).motorDir = .down) :
        d.mode.floor ≠ 0 ∧ d.mode.prevFloor ≠ 0 := by
      have last : d.mode.inertia = .down := by
        cases dir : d.mode.inertia <;> simp [resumption, dir] at resumes ⊢
      have above : d.mode.floor ≠ 0 := by
        intro reached
        have there := inward.bottom last reached
        refine ahead closed (.inr ⟨last, ?_⟩)
        simp [sensorAt, there]
      exact ⟨above, fun attended => above (inward.attendedBottom last attended)⟩
    have halts : { d.mode with stopped := false }.Halts := Mode.halts_of_stop halted
    exact ⟨released.execute up down,
      halts.execute (fun resumes => (up resumes).1) fun resumes => (down resumes).1⟩

end Handles

end Drive

/-- A press of the stop button releases a stopped elevator behind its closed door, at the end floor
it has last moved towards. -/
def ResumesOutward (t : Transition (Shaft kFloors) (ShaftInput kFloors)) : Prop :=
  let drive := t.pre.node.drive
  pressed t.action.stop drive.elev.stopButton = true ∧ drive.elev.state.stopped = true ∧
    drive.elev.state.doorOpen = false ∧
    (drive.controller.inertia = .up ∧ sensorAt t.action.pos = (kFloors : Int) - 1 ∨
      drive.controller.inertia = .down ∧ sensorAt t.action.pos = 0)

namespace ElevatorNode

/-- Handling the event that is due keeps the floors of a driven car ahead of it, and does not drive
it on from an end floor, a reset that resumes an outward movement apart. -/
theorem inward_of_due {d d' : Drive kFloors} {next : Option FsmEvent} (due : EventDue d d' next)
    {pos : Nat} (inward : d.mode.Inward pos) (inv : d.mode.InShaft pos) (now : Nat)
    (floorSensor : Int)
    (admitted : d.elev.stopPressed = true → d.mode.stopped = true → d.mode.doorOpen = false →
      ¬(d.mode.inertia = .up ∧ sensorAt pos = (kFloors : Int) - 1 ∨
        d.mode.inertia = .down ∧ sensorAt pos = 0)) :
    (fsmDue d' now floorSensor next).mode.Inward pos ∧
      (fsmDue d' now floorSensor next).mode.Halts := by
  -- the tests of the later events find the floor attended to
  have noted (same : d.mode.NoArrival) : d.mode.noted.Inward pos := by
    have floor : d.mode.floor = d.mode.prevFloor := by
      rcases same with same | between
      · exact same
      · have := inv.floor_range
        simp only [Config.kBetweenFloors] at between
        omega
    refine ⟨⟨inward.top, inward.bottom, fun _ => id, fun _ => id⟩, ?_, ?_⟩
    · change d.mode.motorDir = .up → d.mode.floor ≠ _
      rw [floor]
      exact inward.up
    · change d.mode.motorDir = .down → d.mode.floor ≠ _
      rw [floor]
      exact inward.down
  have tested := inShaft_of_due due inv
  have handled (event : FsmEvent) := d'.handles_fsm now floorSensor event
  have attended {event : FsmEvent} (same : d'.mode.prevFloor = d'.mode.floor)
      (kept : (d'.fsm now floorSensor event).1.mode.Inward pos) :
      (d'.fsm now floorSensor event).1.mode.Inward pos ∧
        (d'.fsm now floorSensor event).1.mode.Halts := by
    obtain ⟨floor, prevFloor⟩ := (handled event).floor
    exact ⟨kept, kept.halts (by rw [floor, prevFloor, same])⟩
  cases due with
  | emergencyStop button running => exact (handled _).inward_emergencyStop inward.toLanded
  | emergencyStopReset button stopped =>
    exact (handled _).inward_emergencyStopReset inward inv stopped (admitted button stopped)
  | floorArrival mode _ =>
    refine attended (by rw [mode]; rfl) ((handled _).inward_floorArrival ?_ tested (by rw [mode]; rfl))
    rw [mode]
    exact ⟨inward.top, inward.bottom, fun _ => id, fun _ => id⟩
  | tableUpdate mode same _ =>
    refine attended (by rw [mode]; rfl) ((handled _).inward_tableUpdate ?_ (by rw [mode]; rfl))
    rw [mode]
    exact noted same
  | doorTimeout mode same _ _ =>
    refine attended (by rw [mode]; rfl) ((handled _).inward_doorTimeout ?_ (by rw [mode]; rfl))
    rw [mode]
    exact noted same
  | floorTimeout mode same _ =>
    refine attended (by rw [mode]; rfl) ((handled _).inward_floorTimeout ?_)
    rw [mode]
    exact noted same
  | none mode same _ =>
    change d'.mode.Inward pos ∧ d'.mode.Halts
    rw [mode]
    exact ⟨noted same, (noted same).halts rfl⟩

end ElevatorNode

/-- The invariant of a car that stays between the ends of its shaft. -/
structure Shaft.Kept (s : Shaft kFloors) : Prop where
  /-- The car is in the shaft. -/
  located : s.Located
  /-- The floors ahead of the car. -/
  inward : s.node.drive.mode.Inward s.pos

/-- A turn that resumes no outward movement keeps the car between the ends, and does not drive it
on from an end floor it has read. -/
theorem Shaft.Kept.step {s s' : Shaft kFloors} {input : ShaftInput kFloors} (kept : s.Kept)
    (step : ShaftStep s input s') (admitted : ¬ ResumesOutward ⟨s, input, s'⟩) :
    s'.Kept ∧ s'.node.drive.mode.Halts := by
  obtain ⟨moves, pos, turned⟩ := shaftStep_cases step
  have outcome := ElevatorNode.turn_invariant turned (fun m => m.Inward input.later ∧ m.Halts)
    (fun m requests inv => ⟨inv.1.frame rfl, ⟨inv.2.top, inv.2.bottom⟩⟩) ?_
  · exact ⟨⟨kept.located.step step, by rw [pos]; exact outcome.1⟩, outcome.2⟩
  intro q d next due _ event
  have inv := kept.located.due moves due
  obtain ⟨requests, mode, button⟩ := ElevatorNode.mode_of_due due
  refine ElevatorNode.inward_of_due event ?_ inv _ _ ?_
  · rw [mode]
    have before := kept.inward.moved kept.located moves.1
    have located := kept.located.moved moves.1
    exact (before.sample located _ _).moved (located.sample _ _) moves.2
  · intro stopPressed stopped closed outward
    rw [button] at stopPressed
    rw [mode] at stopped closed outward
    -- a stopped car has not moved since the turn began
    have halted : s.node.drive.mode.motorDir = .stop := kept.located.interlock.stopped_halts stopped
    have still : input.later = input.pos := by
      have within := moves.2
      rw [halted] at within
      exact within
    rw [still] at outward
    exact admitted ⟨stopPressed, stopped, closed, outward⟩

/-- A turn stores the floor it reads. -/
theorem Shaft.Located.floor_of_sensor {s s' : Shaft kFloors} {input : ShaftInput kFloors}
    (located : s.Located) (step : ShaftStep s input s') {f : Int} (sensor : sensorAt input.pos = f)
    (floor : f ≠ Config.kBetweenFloors) : s'.node.drive.mode.floor = f := by
  obtain ⟨moves, _, turned⟩ := shaftStep_cases step
  have before := located.moved moves.1
  have floors : 0 < kFloors := by have := before.floor_range; omega
  refine ElevatorNode.turn_invariant turned (fun m => m.floor = f) (fun _ _ same => same) ?_
  intro q d next due _ event
  obtain ⟨requests, mode, _⟩ := ElevatorNode.mode_of_due due
  rw [ElevatorNode.floor_fsmDue event, mode]
  exact Mode.sample_floor_of_sensor before.pos_le floors sensor floor _ _

/-- A car starts without a direction. -/
theorem Shaft.kept_init (nodeId : Fin kElevs) (floor : Fin kFloors) (obstruction stop : Bool) :
    (Shaft.init nodeId floor obstruction stop).Kept := by
  have idle : (Shaft.init nodeId floor obstruction stop).node.drive.mode.inertia = .none := rfl
  have halted : (Shaft.init nodeId floor obstruction stop).node.drive.mode.motorDir = .stop :=
    (Drive.init_idle _ _).2.1
  exact ⟨located_init nodeId floor obstruction stop,
    ⟨⟨by simp [idle], by simp [idle], by simp [idle], by simp [idle]⟩, by simp [halted],
      by simp [halted]⟩⟩

/-- The car is never driven past the ends of the shaft, as long as no reset resumes an outward
movement. In a building of any height, at the end of every turn in which the sensor reads the top
floor the motor is not commanded up, and at the bottom floor it is not commanded down. -/
theorem car_kept_in_shaft {nodeId : Fin kElevs} {floor : Fin kFloors} {obstruction stop : Bool}
    {trace : List (Transition (Shaft kFloors) (ShaftInput kFloors))} {s : Shaft kFloors}
    (run : Run ShaftStep (Shaft.init nodeId floor obstruction stop) trace s)
    (admitted : ∀ t ∈ trace, ¬ ResumesOutward t) :
    ∀ t ∈ trace,
      (sensorAt t.action.pos = (kFloors : Int) - 1 →
        t.post.node.drive.elev.state.motorDir ≠ .up) ∧
      (sensorAt t.action.pos = 0 → t.post.node.drive.elev.state.motorDir ≠ .down) := by
  refine run.forall_transitions (fun t => ¬ ResumesOutward t) _ Shaft.Kept ?_ admitted
    (Shaft.kept_init nodeId floor obstruction stop)
  intro s s' input step admitted kept
  obtain ⟨kept', halts⟩ := kept.step step admitted
  have floors : 1 ≤ kFloors := by have := kept.located.floor_range; omega
  refine ⟨kept', fun top up => ?_, fun bottom down => ?_⟩
  · refine halts.top up (kept.located.floor_of_sensor step top ?_)
    simp only [Config.kBetweenFloors]
    omega
  · exact halts.bottom down (kept.located.floor_of_sensor step bottom (by decide))

/-- A car called to the top floor is halted there. -/
theorem car_halts_at_top :
    ∃ (trace : List (Transition (Shaft Config.kFloors) (ShaftInput Config.kFloors)))
      (s : Shaft Config.kFloors), Run ShaftStep (Shaft.init 0 0 false false) trace s ∧
      (∀ t ∈ trace, ¬ ResumesOutward t) ∧ s.pos = 6 ∧
      ∀ t ∈ trace, t.action.pos = 6 → t.post.node.drive.elev.state.motorDir ≠ .up := by
  have passed : (([{ pos := 0, buttons := .only 3 .cab }, { pos := 6 }] : List (ShaftInput _)).foldlM
      Shaft.exec (Shaft.init 0 (0 : Fin Config.kFloors) false false)).any
      (fun s => decide (s.pos = 6)) = true := by
    decide +kernel
  obtain ⟨trace, s, run, labels, pos⟩ := Run.of_check ShaftStep id passed
  have admitted : ∀ t ∈ trace, ¬ ResumesOutward t := by
    rintro t member ⟨button, _⟩
    have listed := List.mem_map_of_mem (f := Transition.action) member
    simp only [labels, List.mem_cons, List.not_mem_nil, or_false] at listed
    rcases listed with action | action <;> simp [action, pressed] at button
  refine ⟨trace, s, run, admitted, of_decide_eq_true pos, fun t member top => ?_⟩
  exact (car_kept_in_shaft run admitted t member).1 (by rw [top]; rfl)

/-- The car goes to the top floor, is stopped there with its door open, and loses the open door to a
call from below. -/
def stoppedAtTop : List (ShaftInput Config.kFloors) :=
  [{ pos := 0, buttons := .only 3 .cab }, { pos := 6 }, { pos := 6, stop := true },
    { pos := 6, buttons := .only 0 .cab }]

/-- The reset drives the car up from the top floor. -/
theorem car_driven_past_top :
    ∃ (trace : List (Transition (Shaft Config.kFloors) (ShaftInput Config.kFloors)))
      (s : Shaft Config.kFloors), Run ShaftStep (Shaft.init 0 0 false false) trace s ∧
      ∃ t ∈ trace, sensorAt t.action.pos = (Config.kFloors : Int) - 1 ∧
        t.post.node.drive.elev.state.motorDir = .up := by
  have passed : (stoppedAtTop.foldlM Shaft.exec (Shaft.init 0 0 false false)).any
      (fun s => (s.exec { pos := 6, stop := true }).any fun s' =>
        decide (s'.node.drive.elev.state.motorDir = .up)) = true := by
    decide +kernel
  obtain ⟨trace, s, run, -, passed⟩ := Run.of_check ShaftStep id passed
  obtain ⟨s', step, up⟩ := (Option.any_eq_true _ _).1 passed
  have top : sensorAt 6 = (Config.kFloors : Int) - 1 := by decide
  exact ⟨_, s', run.snoc step, _, List.mem_append_right _ (List.mem_singleton.2 rfl), top,
    of_decide_eq_true up⟩

end CppElevator
