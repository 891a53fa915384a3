import CppElevator.Verif.Deadlines
import CppElevator.Verif.Rides
import CppElevator.Verif.ShaftPosition

/-!
# The turns of a ride

Every turn of the node of a car that nothing disturbs is a step of a scanning car, or finds it waiting for
the next floor or for its door. What packets and presses change around it are the calls of that car.
-/
namespace CppElevator

open Library Config

variable {kFloors : Nat}

/-- An event leaves the requests alone. -/
theorem Drive.Handles.requests {d : Drive kFloors} {floorSensor : Int} {event : FsmEvent}
    {m : Mode kFloors} (handled : d.Handles floorSensor event m) : m.requests = d.mode.requests := by
  cases handled with
  | resetClosed | updateOpens | updateLeaves | timeoutHolds | timeoutLeaves =>
    exact Mode.execute_requests _ _
  | _ => rfl

namespace ElevatorNode

/-- Publishing the result of an event at a floor of the building clears the orders it serves. -/
theorem mode_of_event_cleared {s s' : ElevatorNode kFloors} {b2c : ButtonFlags} {floor : Fin kFloors}
    (done : s.event b2c = some s') (stands : s.drive.mode.floor = floor.val) :
    s'.drive.mode = { s.drive.mode with
      requests := (s.peers.orders.toBoolTable s.peers.nodeId.val).cleared floor b2c } := by
  obtain ⟨peers, cleared, rfl⟩ := Option.map_eq_some_iff.1 done
  have table : peers.orders.toBoolTable s.peers.nodeId.val =
      (s.peers.orders.toBoolTable s.peers.nodeId.val).cleared floor b2c := by
    have at_ : s.drive.elev.state.floor = floor.val := stands
    have inside : (0 : Int) ≤ s.drive.elev.state.floor ∧ s.drive.elev.state.floor < kFloors := by
      have := floor.isLt
      omega
    have here : (⟨s.drive.elev.state.floor.toNat, toNat_lt inside⟩ : Fin kFloors) = floor :=
      Fin.ext (by simp [at_])
    unfold clearServed at cleared
    split_ifs at cleared with nothing range
    · obtain rfl := Option.some.inj cleared
      rw [nothing]
      exact (BoolTable.cleared_kNoClear _ _).symm
    · rw [← Option.some.inj cleared, ← here]
      exact toBoolTable_clearOrders s.peers _ b2c
  rw [← table]
  rfl

/-- Publishing the result of an event leaves the floor timer alone. -/
theorem floorDeadline_of_event {s s' : ElevatorNode kFloors} {b2c : ButtonFlags}
    (done : s.event b2c = some s') : s'.floorDeadline = s.floorDeadline := by
  obtain ⟨peers, -, rfl⟩ := Option.map_eq_some_iff.1 done
  rfl

/-- What a turn finds due at a car that has not come to another floor. -/
theorem nextEvent_standing {d : Drive kFloors} (quiet : d.elev.stopPressed = false)
    (same : d.mode.floor = d.mode.prevFloor) (now : Nat) : (nextEvent d now).1.mode = d.mode.noted ∧
      (nextEvent d now).2 = if d.mode.requests ≠ d.mode.prevRequests then some .tableUpdate
        else if d.controller.doortimer.expired now then some .doorTimeout
        else if d.controller.floorTimer.expired now then some .floorTimeout else none := by
  have noStop : d.elev.emergencyStop = false ∧ d.elev.emergencyStopReset = false := by
    simp [Elevator.emergencyStop, Elevator.emergencyStopReset, quiet]
  have noArrival : d.elev.hitNewFloor.1 = false := by
    have same' : d.elev.state.floor = d.elev.prevFloor := same
    simp [Elevator.hitNewFloor, same']
  simp only [nextEvent, noStop.1, noStop.2, noArrival, Bool.false_eq_true, ↓reduceIte]
  by_cases changed : d.mode.requests ≠ d.mode.prevRequests
  · have updated : d.controller.requestTableUpdated.1 = true := decide_eq_true changed
    simp only [updated, ↓reduceIte, if_pos changed]
    exact ⟨rfl, trivial⟩
  · have unchanged : d.controller.requestTableUpdated.1 = false := decide_eq_false changed
    have timers : d.controller.requestTableUpdated.2.doortimer = d.controller.doortimer ∧
        d.controller.requestTableUpdated.2.floorTimer = d.controller.floorTimer := ⟨rfl, rfl⟩
    simp only [unchanged, Bool.false_eq_true, ↓reduceIte, if_neg changed, timers.1, timers.2]
    split_ifs <;> exact ⟨rfl, rfl⟩

/-- What a turn finds due at a car that has come to another floor. -/
theorem nextEvent_arriving {d : Drive kFloors} (quiet : d.elev.stopPressed = false)
    (new : d.mode.floor ≠ d.mode.prevFloor) (inside : d.mode.floor ≠ kBetweenFloors) (now : Nat) :
    (nextEvent d now).1.mode = d.mode.seen ∧ (nextEvent d now).2 = some .floorArrival := by
  have noStop : d.elev.emergencyStop = false ∧ d.elev.emergencyStopReset = false := by
    simp [Elevator.emergencyStop, Elevator.emergencyStopReset, quiet]
  have hit : d.elev.hitNewFloor.1 = true := by
    simp only [Elevator.hitNewFloor, Bool.and_eq_true, decide_eq_true_eq]
    exact ⟨new, inside⟩
  simp only [nextEvent, noStop.1, noStop.2, hit, Bool.false_eq_true, ↓reduceIte]
  exact ⟨rfl, trivial⟩

/-- A turn that finds an event due handles it. -/
theorem event_of_handleEvent {q s' : ElevatorNode kFloors} {now : Nat} {floorSensor : Int}
    {d : Drive kFloors} {event : FsmEvent} (done : q.handleEvent now floorSensor = some s')
    (found : nextEvent q.drive now = (d, some event)) :
    ({ q with drive := (d.fsm now floorSensor event).1 } : ElevatorNode kFloors).event
      (d.fsm now floorSensor event).2 = some s' := by
  unfold handleEvent at done
  rwa [found] at done

/-- A turn that finds none due leaves the rest alone. -/
theorem eq_of_handleEvent {q s' : ElevatorNode kFloors} {now : Nat} {floorSensor : Int}
    {d : Drive kFloors} (done : q.handleEvent now floorSensor = some s')
    (found : nextEvent q.drive now = (d, none)) : s' = { q with drive := d } := by
  unfold handleEvent at done
  rw [found] at done
  exact (Option.some.inj done).symm

/-- An event that is a step of the scanning car, once the orders it serves are cleared and others may have
come or gone. -/
theorem follows_of_event {q s' : ElevatorNode kFloors} {now : Nat} {floorSensor : Int} {d : Drive kFloors}
    {event : FsmEvent} {a : Scan kFloors BtnType} {arrival : Bool} {floor : Fin kFloors}
    (done : q.handleEvent now floorSensor = some s') (found : nextEvent q.drive now = (d, some event))
    (stands : d.mode.floor = floor.val) (same : d.mode.requests = q.drive.mode.requests)
    (follows : Drive.Follows a arrival floor (d.fsm now floorSensor event)) :
    ∃ a' a'', ScanStep hallAgainst a arrival a' ∧ (a'.phase = .resting → a'.calls = ∅) ∧
      a'.Recalled a'' ∧ s'.drive.mode.Rides a'' ∧
      (q.peers.orders.toBoolTable q.peers.nodeId.val ≤ q.drive.controller.requests →
        a''.calls ⊆ a'.calls) := by
  obtain ⟨a', step, rides⟩ := follows
  have handled := d.handles_fsm now floorSensor event
  have floor' := handled.floor.1.trans stands
  have mode := mode_of_event_cleared (event_of_handleEvent done found) floor'
  obtain ⟨a'', recalled, calls, rides'⟩ := rides.recalled
    ((q.peers.orders.toBoolTable q.peers.nodeId.val).cleared floor (d.fsm now floorSensor event).2)
  refine ⟨a', a'', step, rides.calls_of_resting, recalled, mode ▸ rides', fun fewer => ?_⟩
  rw [calls, ← rides.calls]
  intro c called
  simp only [Drive.cleared, handled.requests, same, BoolTable.mem_calls, BoolTable.cleared,
    Bool.and_eq_true] at called ⊢
  exact ⟨Bool.le_iff_imp.1 (fewer c.1 c.2) called.1, called.2⟩

/-- At a car on its way to the next floor a turn does no more than look at the calls. -/
theorem looks_of_moving {q s' : ElevatorNode kFloors} {now : Nat} {floorSensor : Int} {d : Drive kFloors}
    {due : Option FsmEvent} {a : Scan kFloors BtnType}
    (done : q.handleEvent now floorSensor = some s') (found : nextEvent q.drive now = (d, due))
    (next : due = if q.drive.mode.requests ≠ q.drive.mode.prevRequests then some .tableUpdate else none)
    (rides : d.mode.Rides a) (moving : a.phase = .moving)
    (calls : a.calls = q.drive.controller.requests.calls) :
    ∃ a', a.Recalled a' ∧ s'.drive.mode.Rides a' ∧
      s'.floorDeadline = d.controller.floorTimer.endTime ∧
      (q.peers.orders.toBoolTable q.peers.nodeId.val ≤ q.drive.controller.requests →
        a'.calls ⊆ a.calls) := by
  by_cases changed : q.drive.mode.requests ≠ q.drive.mode.prevRequests
  · rw [if_pos changed] at next
    have published := event_of_handleEvent done (found.trans (by rw [next]))
    have handled : d.fsm now floorSensor .tableUpdate = (d, kNoClear) := by
      have still : d.elev.state.movingState = .moving := rides.phase_moving.1 moving
      change d.fsmTableUpdate now = _
      unfold Drive.fsmTableUpdate
      rw [still]
    rw [handled] at published
    have cleared := mode_of_event_cleared published rides.floor
    rw [BoolTable.cleared_kNoClear] at cleared
    obtain ⟨a', after, calls', rides'⟩ := rides.recalled (q.peers.orders.toBoolTable q.peers.nodeId.val)
    refine ⟨a', after, cleared ▸ rides', floorDeadline_of_event published, fun fewer => ?_⟩
    rw [calls', calls]
    exact BoolTable.calls_mono fewer
  · rw [if_neg changed] at next
    have same := eq_of_handleEvent done (found.trans (by rw [next]))
    exact ⟨a, .refl a, same ▸ rides, by rw [same]; rfl, fun _ => Finset.Subset.refl _⟩

end ElevatorNode

namespace Ride

variable {s s' : Ride kFloors} {input : NodeInput kFloors} {a : Scan kFloors BtnType} {travel pace : Nat}

/-- A turn is one of the node, and it is noted when the car has last been found standing or at another
floor. -/
theorem step_cases (step : RideStep s input s') : s.node.turn input = some s'.node ∧
    s'.clock = input.now ∧
      s'.since = if s.Underway input.signals.floorSensor then s.since else input.now := by
  obtain ⟨node, turned, rfl⟩ := Option.map_eq_some_iff.1 step
  exact ⟨turned, rfl, rfl⟩

/-- The node follows a scanning car, and the time after which its motor is taken to fail counts from when
the car set off or came to another floor. -/
structure Follows (s : Ride kFloors) (a : Scan kFloors BtnType) : Prop where
  /-- The mode follows the scanning car. -/
  mode : s.node.drive.mode.Rides a
  /-- The deadline of a moving car. -/
  motor : s.node.drive.mode.movingState = .moving →
    s.since + kFaultTimeoutMs ≤ s.node.floorDeadline

/-- A turn that finds the car on its way, or the door open, before it has taken too long. -/
structure Waits (travel : Nat) (s : Ride kFloors) (input : NodeInput kFloors) (s' : Ride kFloors) :
    Prop where
  /-- The next floor is still to come. -/
  moving : s.node.drive.mode.movingState = .moving → input.now < s.since + travel ∧ s'.since = s.since
  /-- The door is still held. -/
  door : s.node.drive.mode.doorOpen = true →
    input.now < s.node.doorDeadline ∧ s'.node.doorDeadline = s.node.doorDeadline

/-- What a turn makes of a scanning car: its calls change before an event is looked for and while one is
handled, and in between it takes a step or waits. -/
structure Turned (travel : Nat) (t : Transition (Ride kFloors) (NodeInput kFloors))
    (a a₁ a₂ a₃ : Scan kFloors BtnType) : Prop where
  /-- Calls change before an event is looked for. -/
  before : a.Recalled a₁
  /-- A car at rest has no calls. -/
  rested : a₁.phase = .resting → a₁.calls = ∅
  /-- The car takes a step, or waits. -/
  moves : (a₂ = a₁ ∧ a₁.phase ≠ .waiting ∧ Waits travel t.pre t.action t.post) ∨
    ∃ arrival, ScanStep hallAgainst a₁ arrival a₂
  /-- A car at rest has no calls. -/
  rests : a₂.phase = .resting → a₂.calls = ∅
  /-- Calls change while an event is handled. -/
  after : a₂.Recalled a₃
  /-- The node follows the car. -/
  follows : t.post.Follows a₃
  /-- Calls are only taken back if nothing is new. -/
  fewer : NothingNew t → a₁.calls ⊆ a.calls ∧ a₃.calls ⊆ a₂.calls

/-- What a turn of an undisturbed car looks at. -/
theorem due_cases (undisturbed : Undisturbed travel pace ⟨s, input, s'⟩) (step : RideStep s input s') :
    ∃ q requests, s.node.due input = some q ∧
      q.handleEvent input.now input.stopSensor = some s'.node ∧
      q.drive = s.node.drive.sampled input.signals requests ∧
      q.drive.mode = s.node.drive.mode.sample input.signals.floorSensor false requests ∧
      q.drive.elev.stopPressed = false := by
  obtain ⟨q, due, done⟩ := ElevatorNode.turn_cases (step_cases step).1
  obtain ⟨requests, drive⟩ := ElevatorNode.drive_of_due due
  refine ⟨q, requests, due, done, drive, ?_, ?_⟩
  · have sampled := s.node.drive.mode_looked_sampled input.signals requests
      s.node.drive.controller.prevRequests s.node.drive.elev.prevFloor
    rw [show input.signals.obstruction = false from undisturbed.free] at sampled
    rw [drive]
    exact sampled
  · have released : input.signals.stop = false := undisturbed.released
    rw [drive]
    simp [Drive.sampled, Elevator.step, pressed, released]

/-- Nothing new: the calls a turn looks at were there before. -/
theorem fewer_of_due {q : ElevatorNode kFloors} {a₁ : Scan kFloors BtnType} (follows : s.Follows a)
    (due : s.node.due input = some q) (calls : a₁.calls = q.drive.controller.requests.calls)
    (nothing : NothingNew ⟨s, input, s'⟩) : a₁.calls ⊆ a.calls ∧
      q.peers.orders.toBoolTable q.peers.nodeId.val ≤ q.drive.controller.requests := by
  obtain ⟨before, between⟩ := nothing q due
  refine ⟨?_, between⟩
  rw [calls, ← follows.mode.calls]
  exact BoolTable.calls_mono before

/-- A turn whose event is a step of the scanning car. -/
theorem turned_of_event {q : ElevatorNode kFloors} {d : Drive kFloors} {event : FsmEvent}
    {a₁ : Scan kFloors BtnType} {arrival : Bool} {floor : Fin kFloors} (follows : s.Follows a)
    (due : s.node.due input = some q)
    (done : q.handleEvent input.now input.stopSensor = some s'.node)
    (found : ElevatorNode.nextEvent q.drive input.now = (d, some event)) (before : a.Recalled a₁)
    (calls : a₁.calls = q.drive.controller.requests.calls) (rested : a₁.phase = .resting → a₁.calls = ∅)
    (stands : d.mode.floor = floor.val) (same : d.mode.requests = q.drive.mode.requests)
    (scans : Drive.Follows a₁ arrival floor (d.fsm input.now input.stopSensor event))
    (motor : s'.node.drive.mode.movingState = .moving →
      s'.since + kFaultTimeoutMs ≤ s'.node.floorDeadline) :
    ∃ a₁ a₂ a₃, Turned travel ⟨s, input, s'⟩ a a₁ a₂ a₃ := by
  obtain ⟨a₂, a₃, scanned, rests, after, rides, fewer⟩ :=
    ElevatorNode.follows_of_event done found stands same scans
  exact ⟨a₁, a₂, a₃,
    { before := before, rested := rested, moves := .inr ⟨arrival, scanned⟩, rests := rests
      after := after, follows := ⟨rides, motor⟩
      fewer := fun nothing => (fewer_of_due follows due calls nothing).imp_right fewer }⟩

/-- A turn of a car that stands at a floor. -/
theorem Follows.turn_standing (follows : s.Follows a)
    (undisturbed : Undisturbed travel pace ⟨s, input, s'⟩) (step : RideStep s input s')
    (stands : s.node.drive.mode.movingState ≠ .moving) :
    ∃ a₁ a₂ a₃, Turned travel ⟨s, input, s'⟩ a a₁ a₂ a₃ := by
  obtain ⟨turned, -, since⟩ := step_cases step
  obtain ⟨q, requests, due, done, drive, mode, quiet⟩ := due_cases undisturbed step
  have halted : s.dir = .stop := follows.mode.timed.halted stands
  have notUnderway : ¬s.Underway input.signals.floorSensor := fun underway => underway.1 halted
  have sensor : input.signals.floorSensor = s.node.drive.mode.floor := by
    have reading := undisturbed.sensor.resolve_left notUnderway
    dsimp only at reading
    rw [halted] at reading
    exact reading.trans (Int.add_zero _)
  obtain ⟨a₁, before, calls, rides⟩ := follows.mode.sample (.inl sensor) requests
  rw [← mode] at rides
  have phase : a₁.phase ≠ .moving := by
    rw [Ne, rides.phase_moving, mode]
    exact stands
  have calls' : a₁.calls = q.drive.controller.requests.calls := rides.calls.symm
  have motor : s'.node.drive.mode.movingState = .moving →
      s'.since + kFaultTimeoutMs ≤ s'.node.floorDeadline := by
    intro moves
    rw [ElevatorNode.floorDeadline_of_marks turned (.inl ⟨stands, moves⟩), since, if_neg notUnderway]
  obtain ⟨looked, next⟩ := ElevatorNode.nextEvent_standing quiet rides.arrived.symm input.now
  generalize found : ElevatorNode.nextEvent q.drive input.now = result at looked next
  obtain ⟨d, event⟩ := result
  dsimp only at looked next
  have acts {event' : FsmEvent} (isDue : event = some event') (scans : Drive.Follows a₁ false a₁.floor
      (d.fsm input.now input.stopSensor event')) :
      ∃ a₁ a₂ a₃, Turned travel ⟨s, input, s'⟩ a a₁ a₂ a₃ := by
    have stands' : d.mode.floor = a₁.floor.val := by
      rw [looked]
      exact rides.floor
    have same : d.mode.requests = q.drive.mode.requests := by
      rw [looked]
      rfl
    exact turned_of_event follows due done (found.trans (by rw [isDue])) before calls'
      rides.calls_of_resting stands' same scans motor
  have waits (idle : event = none) (looks : a₁.phase ≠ .waiting)
      (seen : q.drive.mode.requests = q.drive.mode.prevRequests)
      (held : s.node.drive.mode.doorOpen = true → input.now < s.node.doorDeadline) :
      ∃ a₁ a₂ a₃, Turned travel ⟨s, input, s'⟩ a a₁ a₂ a₃ := by
    have same := ElevatorNode.eq_of_handleEvent done (found.trans (by rw [idle]))
    have deadline : s'.node.doorDeadline = s.node.doorDeadline := by
      obtain ⟨prevFloor, prevRequests, kept⟩ := ElevatorNode.nextEvent_looked q.drive input.now
      rw [found] at kept
      rw [same, show d = _ from kept, drive]
      rfl
    have rides' : s'.node.drive.mode.Rides a₁ := by
      rw [same]
      exact looked ▸ rides.noted (.inl seen)
    exact ⟨a₁, a₁, a₁,
      { before := before, rested := rides.calls_of_resting
        moves := .inl ⟨rfl, looks,
          fun moves => absurd moves stands, fun opened => ⟨held opened, deadline⟩⟩
        rests := rides.calls_of_resting, after := .refl a₁, follows := ⟨rides', motor⟩
        fewer := fun nothing =>
          ⟨(fewer_of_due follows due calls' nothing).1, Finset.Subset.refl _⟩ }⟩
  have noFault : q.drive.controller.floorTimer.expired input.now = false := by
    have off : q.drive.controller.floorTimer.active = false := by
      have timer := rides.timed.floorTimer
      rw [decide_eq_false fun moves => phase (rides.phase_moving.2 moves)] at timer
      exact timer
    simp [Timer.expired, off]
  have going := rides.going
  cases now : a₁.phase with
  | moving => exact absurd now phase
  | waiting =>
    rw [now] at going
    obtain ⟨-, -, seen, called⟩ := going
    rw [seen, if_pos called] at next
    exact acts next (Drive.follows_waiting rides now looked input.now)
  | held noted =>
    rw [now] at going
    obtain ⟨-, open_, same⟩ := going
    cases noted with
    | false =>
      rw [if_pos (of_decide_eq_false same.symm)] at next
      exact acts next (Drive.follows_held rides now looked input.now)
    | true =>
      have seen := of_decide_eq_true same.symm
      rw [if_neg (not_not.2 seen)] at next
      by_cases expired : q.drive.controller.doortimer.expired input.now = true
      · rw [if_pos expired] at next
        exact acts next (Drive.follows_noted rides now looked input.now)
      · rw [if_neg expired, noFault, if_neg Bool.false_ne_true] at next
        refine waits next (by rw [now]; exact Phase.noConfusion) seen fun _ => ?_
        have running : q.drive.controller.doortimer.active = true := rides.timed.doorTimer.trans open_
        have timer : q.drive.controller.doortimer = s.node.drive.controller.doortimer := by
          rw [drive]
          rfl
        simp only [Timer.expired, running, Bool.true_and, decide_eq_true_eq, Nat.not_le] at expired
        rwa [timer] at expired
  | resting =>
    rw [now] at going
    obtain ⟨-, closed, seen, empty⟩ := going
    have noDoor : q.drive.controller.doortimer.expired input.now = false := by
      have off : q.drive.controller.doortimer.active = false := rides.timed.doorTimer.trans closed
      simp [Timer.expired, off]
    have same := empty.trans seen.symm
    rw [if_neg (not_not.2 same), noDoor, noFault, if_neg Bool.false_ne_true,
      if_neg Bool.false_ne_true] at next
    refine waits next (by rw [now]; exact Phase.noConfusion) same fun opened => ?_
    have shut : s.node.drive.mode.doorOpen = false := by
      rw [mode] at closed
      exact closed
    exact absurd (shut.symm.trans opened) Bool.false_ne_true

/-- A turn of a car on its way to the next floor. -/
theorem Follows.turn_underway (follows : s.Follows a)
    (undisturbed : Undisturbed travel pace ⟨s, input, s'⟩) (within : travel ≤ kFaultTimeoutMs)
    (step : RideStep s input s') (moves : s.node.drive.mode.movingState = .moving)
    (underway : s.Underway input.signals.floorSensor) :
    ∃ a₁ a₂ a₃, Turned travel ⟨s, input, s'⟩ a a₁ a₂ a₃ := by
  obtain ⟨-, -, since⟩ := step_cases step
  obtain ⟨q, requests, due, done, drive, mode, quiet⟩ := due_cases undisturbed step
  rw [if_pos underway] at since
  have soon : input.now < s.since + travel := by
    by_contra late
    exact undisturbed.arrives (Nat.not_lt.1 late) underway
  obtain ⟨a₁, before, calls, rides⟩ := follows.mode.sample underway.2 requests
  rw [← mode] at rides
  have moving : a₁.phase = .moving := rides.phase_moving.2 (by rw [mode]; exact moves)
  have calls' : a₁.calls = q.drive.controller.requests.calls := rides.calls.symm
  have timers : q.drive.controller.doortimer.expired input.now = false ∧
      q.drive.controller.floorTimer.expired input.now = false := by
    have going := rides.going
    rw [moving] at going
    have shut : q.drive.controller.doortimer.active = false := rides.timed.doorTimer.trans going.2.1
    have deadline : s.since + kFaultTimeoutMs ≤ q.drive.controller.floorTimer.endTime := by
      rw [drive]
      exact follows.motor moves
    have running : ¬q.drive.controller.floorTimer.endTime ≤ input.now := by omega
    simp [Timer.expired, shut, running]
  obtain ⟨looked, next⟩ := ElevatorNode.nextEvent_standing quiet rides.arrived.symm input.now
  obtain ⟨prevFloor, prevRequests, kept⟩ := ElevatorNode.nextEvent_looked q.drive input.now
  rw [timers.1, timers.2, if_neg Bool.false_ne_true, if_neg Bool.false_ne_true] at next
  generalize found : ElevatorNode.nextEvent q.drive input.now = result at looked next kept
  obtain ⟨d, event⟩ := result
  dsimp only at looked next kept
  have noted : d.mode.Rides a₁ := looked ▸ rides.noted (.inr moving)
  obtain ⟨a₃, after, rides', deadline, fewer⟩ := ElevatorNode.looks_of_moving done found next noted moving
    calls'
  have kept' : s'.node.floorDeadline = s.node.floorDeadline := by
    rw [deadline, show d = _ from kept, drive]
    rfl
  have shut : s.node.drive.mode.doorOpen = false := by
    have going := rides.going
    rw [moving, mode] at going
    exact going.2.1
  exact ⟨a₁, a₁, a₃,
    { before := before, rested := rides.calls_of_resting
      moves := .inl ⟨rfl, by rw [moving]; exact Phase.noConfusion, fun _ => ⟨soon, since⟩,
        fun opened => absurd (shut.symm.trans opened) Bool.false_ne_true⟩
      rests := rides.calls_of_resting, after := after
      follows := ⟨rides', fun _ => by rw [since, kept']; exact follows.motor moves⟩
      fewer := fun nothing => (fewer_of_due follows due calls' nothing).imp_right fewer }⟩

/-- A turn of a car that comes to the next floor. -/
theorem Follows.turn_arriving (follows : s.Follows a)
    (undisturbed : Undisturbed travel pace ⟨s, input, s'⟩) (step : RideStep s input s')
    (moves : s.node.drive.mode.movingState = .moving)
    (arrives : ¬s.Underway input.signals.floorSensor) :
    ∃ a₁ a₂ a₃, Turned travel ⟨s, input, s'⟩ a a₁ a₂ a₃ := by
  obtain ⟨turned, -, since⟩ := step_cases step
  obtain ⟨q, requests, due, done, drive, mode, quiet⟩ := due_cases undisturbed step
  rw [if_neg arrives] at since
  obtain ⟨a₁, before, calls, rides⟩ := follows.mode.sample (.inl rfl) requests
  have moving : a₁.phase = .moving := rides.phase_moving.2 moves
  have calls' : a₁.calls = q.drive.controller.requests.calls := by
    have same := congrArg Mode.requests mode
    exact calls.trans (congrArg BoolTable.calls same).symm
  have going := rides.going
  rw [moving] at going
  obtain ⟨-, -, h, heading, driven, next, adjacent⟩ := going
  have sensor : input.signals.floorSensor = next.val := by
    have reading := undisturbed.sensor.resolve_left arrives
    have floor : s.floor = a₁.floor.val := follows.mode.floor.trans (by rw [before.floor])
    have dir : s.dir = h.motorDir := driven
    dsimp only at reading
    rw [reading, floor, dir]
    exact offset_of_next adjacent
  have sampled : q.drive.mode =
      { s.node.drive.mode.sample s.floor false requests with floor := next.val } := by
    rw [mode, sensor]
    have inside : ¬((next.val : Int) < 0 ∨ (kFloors : Int) ≤ next.val) := by
      have := next.isLt
      omega
    unfold Mode.sample
    rw [if_neg inside]
  have new : q.drive.mode.floor ≠ q.drive.mode.prevFloor := by
    have before' : q.drive.mode.prevFloor = a₁.floor.val := by
      rw [sampled]
      exact rides.arrived.trans rides.floor
    have here : q.drive.mode.floor = next.val := by rw [sampled]
    have apart := adjacent.reach
    rw [before', here]
    intro same
    rw [Fin.ext (Int.ofNat.inj same)] at apart
    omega
  have inside : q.drive.mode.floor ≠ kBetweenFloors := by
    rw [sampled]
    unfold kBetweenFloors
    dsimp only
    omega
  obtain ⟨looked, arrival⟩ := ElevatorNode.nextEvent_arriving quiet new inside input.now
  generalize found : ElevatorNode.nextEvent q.drive input.now = result at looked arrival
  obtain ⟨d, event⟩ := result
  dsimp only at looked arrival
  subst arrival
  rw [sampled] at looked
  have same : d.mode.requests = q.drive.mode.requests := by rw [looked, sampled]; rfl
  have stands : d.mode.floor = next.val := by rw [looked]; rfl
  have marks : ElevatorNode.Marks ⟨s.node, input, s'.node⟩ :=
    .inr ⟨q, due, congrArg Prod.snd found⟩
  exact turned_of_event follows due done found before calls' rides.calls_of_resting stands same
    (Drive.follows_moving rides moving heading adjacent looked input.now)
    fun _ => by rw [since, ElevatorNode.floorDeadline_of_marks turned marks]

/-- Every turn of an undisturbed car is one of a scanning car, or finds it waiting. -/
theorem Follows.turn (follows : s.Follows a) (undisturbed : Undisturbed travel pace ⟨s, input, s'⟩)
    (within : travel ≤ kFaultTimeoutMs) (step : RideStep s input s') :
    ∃ a₁ a₂ a₃, Turned travel ⟨s, input, s'⟩ a a₁ a₂ a₃ := by
  by_cases moves : s.node.drive.mode.movingState = .moving
  · by_cases underway : s.Underway input.signals.floorSensor
    · exact follows.turn_underway undisturbed within step moves underway
    · exact follows.turn_arriving undisturbed step moves underway
  · exact follows.turn_standing undisturbed step moves

end Ride

end CppElevator
