import CppElevator.Library.Registers
import CppElevator.Verif.DriveActs
import CppElevator.Verif.Interlock

/-!
# The deadlines of the controller

The door timer and the floor timer of a node over whole runs of its main loop, under a clock that
never goes back. A door that is not held by an emergency stop closes only once it has been open for the
whole door time and with the obstruction off, and a motor is found to fail exactly when the fault time
has passed since the car last set off or arrived.
-/
namespace CppElevator

open Library Config

variable {kFloors : Nat}

namespace Drive

/-- The event that closes a door: its timeout, or a table update under the emergency stop. -/
theorem Handles.closes {d : Drive kFloors} {floorSensor : Int} {event : FsmEvent} {m : Mode kFloors}
    (handled : d.Handles floorSensor event m) (armed : d.mode.Armed)
    (opened : d.mode.doorOpen = true) (closed : m.doorOpen = false) :
    d.mode.obstruction = false ∧ m.stopped = d.mode.stopped ∧
      (d.mode.stopped = true ∨ event = .doorTimeout) := by
  have still {m' : Mode kFloors} (same : m'.doorOpen = d.mode.doorOpen) (shut : m'.doorOpen = false) :
      False := by
    rw [same, opened] at shut
    exact Bool.false_ne_true shut.symm
  have executed (m' : Mode kFloors) (pair : DirMovPair) :
      (m'.execute pair).doorOpen = m'.doorOpen ∧ (m'.execute pair).stopped = m'.stopped := by
    unfold Mode.execute
    split_ifs <;> exact ⟨rfl, rfl⟩
  cases handled with
  | stopBetween | resetOpen | arrivalPasses | updateHolds | updateWaits | updateBlocked |
      timeoutBlocked | timeoutWaits | floorTimeout => exact (still rfl closed).elim
  | stopAtFloor | arrivalStops => exact absurd closed (by simp [Mode.holdDoor])
  | resetClosed shut => exact (still rfl shut).elim
  | updateOpens => exact absurd closed (by simp [executed, Mode.holdDoor])
  | timeoutHolds =>
    rw [(executed _ _).1] at closed
    exact (still rfl closed).elim
  | updateLeaves idle _ free =>
    refine ⟨free, (executed _ _).2, ?_⟩
    by_contra neither
    have running : d.mode.stopped = false := by simpa using (not_or.1 neither).1
    have doorMode := armed.open_doorMode running opened
    rw [idle] at doorMode
    cases doorMode
  | timeoutLeaves free _ _ => exact ⟨free, (executed _ _).2, .inr rfl⟩

end Drive

namespace ElevatorNode

variable {s s' : ElevatorNode kFloors} {input : NodeInput kFloors}

/-- A turn keeps the interlock and the armed wake-ups. -/
theorem interlock_armed_of_turn (turned : s.turn input = some s')
    (inv : s.drive.mode.Interlock ∧ s.drive.mode.Armed) :
    s'.drive.mode.Interlock ∧ s'.drive.mode.Armed := by
  refine turn_invariant turned (fun m => m.Interlock ∧ m.Armed)
    (fun m requests held => ⟨held.1.frame rfl, held.2.frame rfl⟩) ?_
  intro q d next due found _
  obtain ⟨requests, mode, -⟩ := mode_of_due due
  obtain ⟨prevFloor, prevRequests, looked⟩ := nextEvent_looked q.drive input.now
  rw [found] at looked
  have seen : d.mode.Interlock ∧ d.mode.Armed := by
    have here : q.drive.mode.Interlock ∧ q.drive.mode.Armed := by
      rw [mode]
      exact ⟨inv.1.frame rfl, inv.2.frame rfl⟩
    rw [show d = _ from looked]
    exact ⟨here.1.frame rfl, here.2.frame rfl⟩
  cases next with
  | none => exact seen
  | some event =>
    have handled := d.handles_fsm input.now input.stopSensor event
    exact ⟨handled.interlock seen.1, handled.armed seen.2⟩

/-- The clock reading of a turn. -/
def turnClock (input : NodeInput kFloors) : Option Nat := some input.now

/-- The deadline in the door timer. -/
def doorDeadline (s : ElevatorNode kFloors) : Nat := s.drive.controller.doortimer.endTime

/-- The deadline in the floor timer. -/
def floorDeadline (s : ElevatorNode kFloors) : Nat := s.drive.controller.floorTimer.endTime

/-- A turn keeps the deadline of the door or sets it the door time ahead. -/
theorem doorDeadline_turn (turned : s.turn input = some s') :
    Run.KeepsOrSets turnClock doorDeadline kDoorOpenTimeMs ⟨s, input, s'⟩ := by
  have kept : Drive.Kept input.now fun d : Drive kFloors =>
      d.controller.doortimer.endTime = s.doorDeadline ∨
        d.controller.doortimer.endTime = input.now + kDoorOpenTimeMs := by
    refine ⟨fun held => held, fun {d _ a} _ held => ?_, fun held => held⟩
    rw [d.doortimer_act input.now a]
    cases a with
    | holdDoor | startDoorTimer => exact .inr rfl
    | _ => exact held
  rcases kept_turn turned kept fun _ => .inl rfl with same | set
  · exact .inl same
  · exact .inr ⟨input.now, rfl, set⟩

/-- A turn keeps the deadline of the floor timer or sets it the fault time ahead. -/
theorem floorDeadline_turn (turned : s.turn input = some s') :
    Run.KeepsOrSets turnClock floorDeadline kFaultTimeoutMs ⟨s, input, s'⟩ := by
  have kept : Drive.Kept input.now fun d : Drive kFloors =>
      d.controller.floorTimer.endTime = s.floorDeadline ∨
        d.controller.floorTimer.endTime = input.now + kFaultTimeoutMs := by
    refine ⟨fun held => held, fun {d _ a} _ held => ?_, fun held => held⟩
    rw [d.floorTimer_act input.now a]
    cases a with
    | startFloorTimer => exact .inr rfl
    | movingState mov => cases mov <;> first | exact .inr rfl | exact held
    | _ => exact held
  rcases kept_turn turned kept fun _ => .inl rfl with same | set
  · exact .inl same
  · exact .inr ⟨input.now, rfl, set⟩

/-- A turn that opens the door sets its deadline. -/
theorem doorDeadline_of_opens (turned : s.turn input = some s')
    (shut : s.drive.elev.state.doorOpen = false) (opened : s'.drive.elev.state.doorOpen = true) :
    s'.doorDeadline = input.now + kDoorOpenTimeMs := by
  have kept : Drive.Kept input.now fun d : Drive kFloors => d.elev.state.doorOpen = true →
      d.controller.doortimer.endTime = input.now + kDoorOpenTimeMs := by
    refine ⟨fun held => held, fun {d _ a} _ held => ?_, fun held => held⟩
    rw [d.doortimer_act input.now a, d.doorOpen_act input.now a]
    cases a with
    | holdDoor | startDoorTimer => exact fun _ => rfl
    | closeDoor => exact fun closed => absurd closed Bool.false_ne_true
    | _ => exact held
  refine kept_turn turned kept (fun _ still => ?_) opened
  have same : s.drive.elev.state.doorOpen = true := by
    rw [← still]
    simp only [Drive.sampled, Elevator.step, ElevatorState.incrementVersion, ElevatorState.setFloor]
    split_ifs <;> rfl
  exact absurd (shut.symm.trans same) Bool.false_ne_true

/-- A timeout is handled when its timer has run out. -/
theorem expired_of_timeout {d : Drive kFloors} {now : Nat} :
    ((nextEvent d now).2 = some .doorTimeout → d.controller.doortimer.expired now = true) ∧
      ((nextEvent d now).2 = some .floorTimeout → d.controller.floorTimer.expired now = true) := by
  unfold nextEvent
  dsimp only
  constructor
  all_goals
    intro due
    split_ifs at due with stop reset hit updated door floor
    all_goals first
      | exact absurd (Option.some.inj due) (by decide)
      | exact door
      | exact floor

/-- When nothing is due, the floor timer has not run out. -/
theorem running_of_none {d : Drive kFloors} {now : Nat} (due : (nextEvent d now).2 = none) :
    ¬d.controller.floorTimer.expired now = true := by
  unfold nextEvent at due
  dsimp only at due
  split_ifs at due with stop reset hit updated door floor
  exact floor

/-- A turn takes the event that its tests find due, if any. -/
def Takes (s : ElevatorNode kFloors) (input : NodeInput kFloors) (event : Option FsmEvent) : Prop :=
  ∃ q, s.due input = some q ∧ (nextEvent q.drive input.now).2 = event

/-- A door closes free of obstruction, and at its deadline unless the stop is in force. -/
theorem closes_of_turn (turned : s.turn input = some s') (armed : s.drive.mode.Armed)
    (opened : s.drive.elev.state.doorOpen = true) (closed : s'.drive.elev.state.doorOpen = false) :
    input.signals.obstruction = false ∧
      (s'.drive.elev.state.stopped = true ∨ s.doorDeadline ≤ input.now) := by
  obtain ⟨q, d, next, requests, prevRequests, prevFloor, -, sampled, found, looked, after⟩ :=
    turn_parts turned
  have here := s.drive.mode_looked_sampled input.signals requests prevRequests prevFloor
  rw [← looked] at here
  have open_ : d.mode.doorOpen = true := by
    rw [here]
    exact opened
  generalize handledBy : fsmDue d input.now input.stopSensor next = d' at after
  have published : s'.drive.elev.state.doorOpen = d'.mode.doorOpen ∧
      s'.drive.elev.state.stopped = d'.mode.stopped := by
    rcases after with same | ⟨_, same⟩ <;> rw [same] <;> exact ⟨rfl, rfl⟩
  rw [published.1] at closed
  rw [published.2]
  cases next with
  | none =>
    obtain rfl : d = d' := handledBy
    exact absurd (closed.symm.trans open_) Bool.false_ne_true
  | some event =>
    have handled := d.handles_fsm input.now input.stopSensor event
    rw [show (d.fsm input.now input.stopSensor event).1 = d' from handledBy] at handled
    have armed' : d.mode.Armed := by
      rw [here]
      exact armed.frame rfl
    obtain ⟨free, stopped, cause⟩ := handled.closes armed' open_ closed
    have off : d.mode.obstruction = input.signals.obstruction := by rw [here]; rfl
    refine ⟨off.symm.trans free, ?_⟩
    rcases cause with inForce | rfl
    · exact .inl (stopped.trans inForce)
    · right
      have expired := expired_of_timeout.1 (congrArg Prod.snd found)
      rw [sampled] at expired
      simp only [Timer.expired, Bool.and_eq_true, decide_eq_true_eq] at expired
      exact expired.2

/-- A turn opens the door. -/
def Opens (t : Transition (ElevatorNode kFloors) (NodeInput kFloors)) : Prop :=
  t.pre.drive.elev.state.doorOpen = false ∧ t.post.drive.elev.state.doorOpen = true

/-- Both invariants of the state machine hold after every run of turns. -/
theorem interlock_armed_of_turns {nodeId : Fin kElevs} {initial : Signals kFloors}
    {trace : List (Transition (ElevatorNode kFloors) (NodeInput kFloors))}
    (run : Run NodeStep (.init nodeId initial) trace s) :
    s.drive.mode.Interlock ∧ s.drive.mode.Armed :=
  run.invariant (fun s => s.drive.mode.Interlock ∧ s.drive.mode.Armed)
    (fun turned inv => interlock_armed_of_turn turned inv) (Drive.init_interlock_armed _ _)

/-- In every run of turns under a clock that never goes back, a turn that closes the door finds the
obstruction off; and unless the emergency stop is in force, it comes no sooner than the door time after
each turn that opened the door. -/
theorem door_held_open {nodeId : Fin kElevs} {initial : Signals kFloors}
    {trace : List (Transition (ElevatorNode kFloors) (NodeInput kFloors))}
    (run : Run NodeStep (.init nodeId initial) trace s) (turned : NodeStep s input s')
    (timely : Timely turnClock (trace.map Transition.action))
    (opened : s.drive.elev.state.doorOpen = true) (closed : s'.drive.elev.state.doorOpen = false) :
    input.signals.obstruction = false ∧
      (s'.drive.elev.state.stopped = true ∨
        ∀ t ∈ trace, Opens t → t.action.now + kDoorOpenTimeMs ≤ input.now) := by
  obtain ⟨free, cause⟩ := closes_of_turn turned (interlock_armed_of_turns run).2 opened closed
  refine ⟨free, cause.imp_right fun due t member opens => ?_⟩
  have sets : ∀ t ∈ trace, Run.KeepsOrSets turnClock doorDeadline kDoorOpenTimeMs t :=
    fun t member => doorDeadline_turn (run.steps t member)
  have ahead := run.deadline_mono sets (Nat.zero_le _) timely t member
  have set := doorDeadline_of_opens (run.steps t member) opens.1 opens.2
  calc
    t.action.now + kDoorOpenTimeMs = t.post.doorDeadline := set.symm
    _ ≤ s.doorDeadline := ahead
    _ ≤ input.now := due

/-- A car called to its floor opens the door, and closes it when the door time has passed. -/
theorem door_held_open_called : ∃ trace s s', Run NodeStep
      (.init 0 { floorSensor := 0 } : ElevatorNode Config.kFloors) trace s ∧
    NodeStep s { now := 3080, signals := { floorSensor := 0 } } s' ∧
    s.drive.elev.state.doorOpen = true ∧ s'.drive.elev.state.doorOpen = false ∧
    s'.drive.elev.state.stopped = false ∧ (s'.drive.elev.state.stopped = true ∨
      ∀ t ∈ trace, Opens t → t.action.now + kDoorOpenTimeMs ≤ 3080) := by
  let call : NodeInput Config.kFloors :=
    { now := 40, signals := { floorSensor := 0, buttons := .only 0 .cab } }
  let wait : NodeInput Config.kFloors := { now := 80, signals := { floorSensor := 0 } }
  let leave : NodeInput Config.kFloors := { now := 3080, signals := { floorSensor := 0 } }
  have evaluated : ([call, wait].foldlM ElevatorNode.turn (.init 0 { floorSensor := 0 })).any
      (fun s => s.drive.elev.state.doorOpen && (s.turn leave).any fun s' =>
        !s'.drive.elev.state.doorOpen && !s'.drive.elev.state.stopped) = true := by
    decide +kernel
  obtain ⟨trace, s, run, labels, checked⟩ :=
    Run.of_check NodeStep id evaluated
  simp only [Bool.and_eq_true, Option.any_eq_true, Bool.not_eq_true'] at checked
  obtain ⟨opened, s', turned, closed, running⟩ := checked
  have timely : Timely turnClock (trace.map Transition.action) := by
    rw [labels]
    decide
  exact ⟨trace, s, s', run, turned, opened, closed, running,
    (door_held_open run turned timely opened closed).2⟩

/-- A car sets off. -/
def Departs (t : Transition (ElevatorNode kFloors) (NodeInput kFloors)) : Prop :=
  t.pre.drive.elev.state.movingState ≠ .moving ∧ t.post.drive.elev.state.movingState = .moving

/-- A car sets off, or arrives at a floor. -/
def Marks (t : Transition (ElevatorNode kFloors) (NodeInput kFloors)) : Prop :=
  Departs t ∨ t.pre.Takes t.action (some .floorArrival)

end ElevatorNode

namespace Drive

variable (d : Drive kFloors) (now : Nat)

/-- What a handler makes of the floor timer: it stays, it is off, or it has been started, by an arrival
or by a decision to move. -/
def WatchesFrom (event : FsmEvent) (d' : Drive kFloors) : Prop :=
  d'.controller.floorTimer = d.controller.floorTimer ∨ d'.controller.floorTimer.active = false ∨
    d'.controller.floorTimer = .start now kFaultTimeoutMs ∧
      (event = .floorArrival ∨ d'.elev.state.movingState = .moving ∧
        (event = .emergencyStopReset ∨ d.elev.state.movingState ≠ .moving))

/-- A decision taken outside the moving mode, or after a reset. -/
theorem watches_executeDecision {event : FsmEvent} {d' : Drive kFloors} (pair : DirMovPair)
    (same : d'.controller.floorTimer = d.controller.floorTimer)
    (left : event = .emergencyStopReset ∨ d.elev.state.movingState ≠ .moving) :
    d.WatchesFrom now event (d'.executeDecision now pair) := by
  unfold executeDecision
  split_ifs with stopped moving
  · exact .inl same
  · exact .inr (.inr ⟨rfl, .inr ⟨moving, left⟩⟩)
  · exact .inr (.inl rfl)

/-- The same behind a door that has to close first. -/
theorem watches_closeDoorAndExecute {event : FsmEvent} {d' : Drive kFloors} (pair : DirMovPair)
    (same : d'.controller.floorTimer = d.controller.floorTimer)
    (left : event = .emergencyStopReset ∨ d.elev.state.movingState ≠ .moving) :
    d.WatchesFrom now event (d'.closeDoorAndExecute now pair) := by
  unfold closeDoorAndExecute tryCloseDoor
  cases d'.elev.state.obstruction with
  | true =>
    simp only [↓reduceIte, Bool.false_eq_true]
    split_ifs
    · exact .inl same
    · exact .inl same
  | false => exact d.watches_executeDecision now pair same left

/-- What every handler makes of the floor timer. -/
theorem watches_fsm (floorSensor : Int) (event : FsmEvent) :
    d.WatchesFrom now event (d.fsm now floorSensor event).1 := by
  cases event with
  | emergencyStop => exact .inr (.inl rfl)
  | emergencyStopReset =>
    change d.WatchesFrom now _ (d.fsmEmergencyStopReset now).1
    unfold fsmEmergencyStopReset
    dsimp only
    split_ifs
    · exact .inl rfl
    · exact d.watches_executeDecision now _ rfl (.inl rfl)
  | floorArrival =>
    change d.WatchesFrom now _ (d.fsmFloorArrival now).1
    unfold fsmFloorArrival
    dsimp only
    split_ifs <;> first
      | exact .inr (.inr ⟨rfl, .inl rfl⟩)
      | exact .inr (.inl rfl)
  | tableUpdate =>
    change d.WatchesFrom now _ (d.fsmTableUpdate now).1
    unfold fsmTableUpdate
    cases mov : d.elev.state.movingState with
    | doorOpen =>
      dsimp only
      split_ifs <;> exact .inl rfl
    | moving => exact .inl rfl
    | err => exact .inl rfl
    | idle =>
      have left : d.elev.state.movingState ≠ .moving := by simp [mov]
      dsimp only
      split_ifs
      · exact d.watches_executeDecision now _ rfl (.inr left)
      · exact d.watches_executeDecision now _ rfl (.inr left)
      · exact d.watches_closeDoorAndExecute now _ rfl (.inr left)
  | doorTimeout =>
    change d.WatchesFrom now _ (d.fsmDoorTimeout now).1
    unfold fsmDoorTimeout
    dsimp only
    split_ifs with _ other
    · exact .inl rfl
    · exact .inl rfl
    all_goals
      have left : d.elev.state.movingState ≠ .moving := by
        rw [not_not.1 other]
        decide
    · let shut : Drive kFloors :=
        { d with controller := { d.controller with doortimer := d.controller.doortimer.stop } }
      have watches : d.WatchesFrom now .doorTimeout
          (shut.executeDecision now (d.controller.chooseDirection d.elev.state.floor)) :=
        d.watches_executeDecision now _ rfl (.inr left)
      exact watches
    · exact d.watches_closeDoorAndExecute now _ rfl (.inr left)
  | floorTimeout =>
    change d.WatchesFrom now _ d.fsmFloorTimeout.1
    unfold fsmFloorTimeout
    dsimp only
    split_ifs <;> exact .inr (.inl rfl)

/-- What an event makes of the fault: an arrival clears it, and a floor timeout of a moving car
raises it. -/
theorem Handles.fault {d : Drive kFloors} {floorSensor : Int} {event : FsmEvent} {m : Mode kFloors}
    (handled : d.Handles floorSensor event m) : m.fault = match event with
      | .floorArrival => false
      | .floorTimeout => d.mode.fault || decide (d.mode.movingState = .moving)
      | _ => d.mode.fault := by
  have executed (m' : Mode kFloors) (pair : DirMovPair) : (m'.execute pair).fault = m'.fault := by
    unfold Mode.execute
    split_ifs <;> rfl
  cases handled with
  | resetClosed | updateOpens | updateLeaves | timeoutHolds | timeoutLeaves => exact executed _ _
  | _ => rfl

end Drive

namespace ElevatorNode

variable {s s' : ElevatorNode kFloors} {input : NodeInput kFloors}

/-- What a turn makes of the floor timer: it stays, it is off, or the car has set off or arrived. -/
theorem watches_turn (turned : s.turn input = some s') (interlock : s.drive.mode.Interlock) :
    s'.drive.controller.floorTimer = s.drive.controller.floorTimer ∨
      s'.drive.controller.floorTimer.active = false ∨
      s'.drive.controller.floorTimer = .start input.now kFaultTimeoutMs ∧ Marks ⟨s, input, s'⟩ := by
  obtain ⟨q, d, next, requests, prevRequests, prevFloor, due, sampled, found, looked, after⟩ :=
    turn_parts turned
  have isDue := eventDue_nextEvent q.drive input.now
  rw [found] at isDue
  have timer : d.controller.floorTimer = s.drive.controller.floorTimer := by rw [looked]; rfl
  have here := s.drive.mode_looked_sampled input.signals requests prevRequests prevFloor
  rw [← looked] at here
  have moves : d.mode.movingState = s.drive.elev.state.movingState := by rw [here]; rfl
  generalize handledBy : fsmDue d input.now input.stopSensor next = d' at after
  have published : s'.drive.controller.floorTimer = d'.controller.floorTimer ∧
      s'.drive.elev.state.movingState = d'.elev.state.movingState := by
    rcases after with same | ⟨_, same⟩ <;> rw [same] <;> exact ⟨rfl, rfl⟩
  rw [published.1]
  cases next with
  | none =>
    obtain rfl : d = d' := handledBy
    exact .inl timer
  | some event =>
    have watches := d.watches_fsm input.now input.stopSensor event
    rw [show (d.fsm input.now input.stopSensor event).1 = d' from handledBy] at watches
    rcases watches with same | off | ⟨started, rfl | ⟨moving, left⟩⟩
    · exact .inl (same.trans timer)
    · exact .inr (.inl off)
    · exact .inr (.inr ⟨started, .inr ⟨q, due, congrArg Prod.snd found⟩⟩)
    · refine .inr (.inr ⟨started, .inl ⟨?_, published.2.trans moving⟩⟩)
      rw [← moves]
      rcases left with rfl | left
      · cases isDue with
        | emergencyStopReset _ stopped =>
          rw [here] at stopped ⊢
          exact interlock.stopped_notMoving stopped
      · exact left

/-- The event a turn takes. -/
theorem Takes.eq {event : Option FsmEvent} (takes : s.Takes input event) {q : ElevatorNode kFloors}
    (due : s.due input = some q) : (nextEvent q.drive input.now).2 = event := by
  obtain ⟨q', due', found⟩ := takes
  rwa [← Option.some.inj (due.symm.trans due')] at found

/-- A turn in which the car sets off or arrives sets the deadline of the floor timer. -/
theorem floorDeadline_of_marks (turned : s.turn input = some s') (marks : Marks ⟨s, input, s'⟩) :
    s'.floorDeadline = input.now + kFaultTimeoutMs := by
  rcases marks with ⟨left, moving⟩ | arrival
  · have kept : Drive.Kept input.now fun d : Drive kFloors =>
        d.elev.state.movingState = .moving →
          d.controller.floorTimer.endTime = input.now + kFaultTimeoutMs := by
      refine ⟨fun held => held, fun {d _ a} _ held => ?_, fun held => held⟩
      rw [d.floorTimer_act input.now a, d.movingState_act input.now a]
      cases a with
      | startFloorTimer => exact fun _ => rfl
      | movingState mov => cases mov <;> simp [Timer.start]
      | holdDoor => exact fun opened => by cases opened
      | _ => exact held
    refine kept_turn turned kept (fun _ still => absurd ?_ left) moving
    rw [← still]
    simp only [Drive.sampled, Elevator.step, ElevatorState.incrementVersion, ElevatorState.setFloor]
    split_ifs <;> rfl
  · obtain ⟨q, d, next, requests, prevRequests, prevFloor, due, -, found, -, after⟩ :=
      turn_parts turned
    obtain rfl : next = some .floorArrival := by
      rw [← arrival.eq due, found]
    have started (e : Drive kFloors) :
        (e.fsmFloorArrival input.now).1.controller.floorTimer.endTime =
          input.now + kFaultTimeoutMs := by
      unfold Drive.fsmFloorArrival
      dsimp only
      split_ifs <;> rfl
    rcases after with same | ⟨_, same⟩
    · exact (congrArg (fun e => e.controller.floorTimer.endTime) same).trans (started d)
    · exact (congrArg (fun e => e.controller.floorTimer.endTime) same).trans (started d)

/-- After every run of turns, a running floor timer has been started when the car set off or
arrived. -/
theorem floorTimer_marked {nodeId : Fin kElevs} {initial : Signals kFloors}
    {trace : List (Transition (ElevatorNode kFloors) (NodeInput kFloors))}
    (run : Run NodeStep (.init nodeId initial) trace s)
    (running : s.drive.controller.floorTimer.active = true) :
    ∃ t ∈ trace, Marks t ∧ s.floorDeadline = t.action.now + kFaultTimeoutMs := by
  generalize begun : ElevatorNode.init nodeId initial = start at run
  induction run with
  | nil =>
    rw [← begun] at running
    exact absurd running Bool.false_ne_true
  | @snoc last next trace action before step ih =>
    rw [← begun] at before
    have extend {t : Transition (ElevatorNode kFloors) (NodeInput kFloors)} (member : t ∈ trace) :
        t ∈ trace ++ [⟨last, action, next⟩] := List.mem_append_left _ member
    rcases watches_turn step (interlock_armed_of_turns before).1 with same | off | ⟨started, marks⟩
    · rw [same] at running
      obtain ⟨t, member, marks, set⟩ := ih running
      exact ⟨t, extend member, marks, (congrArg Timer.endTime same).trans set⟩
    · exact absurd (off.symm.trans running) Bool.false_ne_true
    · exact ⟨_, List.mem_append_right _ (List.mem_singleton.2 rfl), marks,
        congrArg Timer.endTime started⟩

/-- What a turn makes of the fault. -/
theorem fault_of_takes (turned : s.turn input = some s') {next : Option FsmEvent}
    (takes : s.Takes input next) : s'.drive.elev.state.fault = match next with
      | some .floorArrival => false
      | some .floorTimeout =>
        s.drive.elev.state.fault || decide (s.drive.elev.state.movingState = .moving)
      | _ => s.drive.elev.state.fault := by
  obtain ⟨q, d, event, requests, prevRequests, prevFloor, due, -, found, looked, after⟩ :=
    turn_parts turned
  obtain rfl : event = next := by
    rw [← takes.eq due, found]
  have here := s.drive.mode_looked_sampled input.signals requests prevRequests prevFloor
  rw [← looked] at here
  have seen : d.mode.fault = s.drive.elev.state.fault ∧
      d.mode.movingState = s.drive.elev.state.movingState := by
    rw [here]
    exact ⟨rfl, rfl⟩
  rw [← seen.1, ← seen.2]
  generalize handledBy : fsmDue d input.now input.stopSensor event = d' at after
  have published : s'.drive.elev.state.fault = d'.mode.fault := by
    rcases after with same | ⟨_, same⟩ <;> rw [same] <;> rfl
  rw [published]
  cases event with
  | none =>
    obtain rfl : d = d' := handledBy
    rfl
  | some event =>
    have handled := d.handles_fsm input.now input.stopSensor event
    rw [show (d.fsm input.now input.stopSensor event).1 = d' from handledBy] at handled
    rw [handled.fault]
    cases event <;> rfl

/-- In every run of turns under a clock that never goes back, a turn finds the motor to fail only while
the car moves and the fault time has passed since the car last set off or arrived; a turn with nothing
more urgent to do then does find it; and only an arrival takes the fault back. -/
theorem motor_fault_timed {nodeId : Fin kElevs} {initial : Signals kFloors}
    {trace : List (Transition (ElevatorNode kFloors) (NodeInput kFloors))}
    (run : Run NodeStep (.init nodeId initial) trace s) (turned : NodeStep s input s')
    (timely : Timely turnClock (trace.map Transition.action)) :
    (s.drive.elev.state.fault = false → s'.drive.elev.state.fault = true →
      s.drive.elev.state.movingState = .moving ∧
        ∀ t ∈ trace, Marks t → t.action.now + kFaultTimeoutMs ≤ input.now) ∧
    (s.drive.elev.state.movingState = .moving →
      (s.Takes input none ∨ s.Takes input (some .floorTimeout)) →
      (∀ t ∈ trace, Marks t → t.action.now + kFaultTimeoutMs ≤ input.now) →
      s'.drive.elev.state.fault = true) ∧
    (s.drive.elev.state.fault = true → s'.drive.elev.state.fault = false →
      s.Takes input (some .floorArrival)) := by
  obtain ⟨q, d, next, requests, prevRequests, prevFloor, due, sampled, found, looked, -⟩ :=
    turn_parts turned
  have takes : s.Takes input next := ⟨q, due, congrArg Prod.snd found⟩
  have fault := fault_of_takes turned takes
  have timer : q.drive.controller.floorTimer = s.drive.controller.floorTimer := by
    rw [sampled]
    rfl
  refine ⟨fun sound failed => ?_, fun moving quiet passed => ?_, fun failed sound => ?_⟩
  · rw [failed] at fault
    have timedOut : next = some .floorTimeout := by
      cases next with
      | none => exact absurd (fault.trans sound) (by decide)
      | some event => cases event <;> simp_all
    subst timedOut
    simp only [sound, Bool.false_or, Bool.true_eq, decide_eq_true_eq] at fault
    refine ⟨fault, fun t member marks => ?_⟩
    have expired := expired_of_timeout.2 (congrArg Prod.snd found)
    simp only [Timer.expired, timer, Bool.and_eq_true, decide_eq_true_eq] at expired
    have sets : ∀ t ∈ trace, Run.KeepsOrSets turnClock floorDeadline kFaultTimeoutMs t :=
      fun t member => floorDeadline_turn (run.steps t member)
    calc
      t.action.now + kFaultTimeoutMs = t.post.floorDeadline :=
        (floorDeadline_of_marks (run.steps t member) marks).symm
      _ ≤ s.floorDeadline := run.deadline_mono sets (Nat.zero_le _) timely t member
      _ ≤ input.now := expired.2
  · cases already : s.drive.elev.state.fault with
    | true =>
      rcases quiet with quiet | quiet
      · rw [fault_of_takes turned quiet, already]
      · rw [fault_of_takes turned quiet, already, Bool.true_or]
    | false =>
      have watched : s.drive.controller.floorTimer.active = true := by
        rcases (interlock_armed_of_turns run).2.moving_watched moving with running | failed
        · exact running
        · exact absurd (already.symm.trans failed) Bool.false_ne_true
      obtain ⟨t, member, marks, set⟩ := floorTimer_marked run watched
      have reached : s.drive.controller.floorTimer.expired input.now = true := by
        have deadline : s.floorDeadline ≤ input.now := set ▸ passed t member marks
        simp only [Timer.expired, watched, Bool.true_and, decide_eq_true_eq]
        exact deadline
      rcases quiet with none | timedOut
      · have running := running_of_none (none.eq due)
        rw [timer] at running
        exact absurd reached running
      · rw [fault_of_takes turned timedOut, moving]
        simp
  · rw [sound] at fault
    cases next with
    | none => exact absurd (fault.trans failed) (by decide)
    | some event =>
      cases event with
      | floorArrival => exact takes
      | _ => simp_all

/-- A car that sets off and reaches no floor is found to fail after the fault time. -/
theorem motor_fault_timed_stuck : ∃ trace s s', Run NodeStep
      (.init 0 { floorSensor := 0 } : ElevatorNode Config.kFloors) trace s ∧
    NodeStep s { now := 5040, signals := { floorSensor := kBetweenFloors } } s' ∧
    s.drive.elev.state.fault = false ∧ s'.drive.elev.state.fault = true ∧
    s.drive.elev.state.movingState = .moving ∧
    ∀ t ∈ trace, Marks t → t.action.now + kFaultTimeoutMs ≤ 5040 := by
  let call : NodeInput Config.kFloors :=
    { now := 40, signals := { floorSensor := 0, buttons := .only 3 .cab } }
  let travel : NodeInput Config.kFloors := { now := 80, signals := { floorSensor := kBetweenFloors } }
  let late : NodeInput Config.kFloors :=
    { now := 5040, signals := { floorSensor := kBetweenFloors } }
  have evaluated : ([call, travel].foldlM ElevatorNode.turn (.init 0 { floorSensor := 0 })).any
      (fun s => !s.drive.elev.state.fault && (s.turn late).any fun s' => s'.drive.elev.state.fault) =
        true := by
    decide +kernel
  obtain ⟨trace, s, run, labels, checked⟩ :=
    Run.of_check NodeStep id evaluated
  simp only [Bool.and_eq_true, Option.any_eq_true, Bool.not_eq_true'] at checked
  obtain ⟨sound, s', turned, failed⟩ := checked
  have timely : Timely turnClock (trace.map Transition.action) := by
    rw [labels]
    decide
  exact ⟨trace, s, s', run, turned, sound, failed,
    (motor_fault_timed run turned timely).1 sound failed⟩

end ElevatorNode

end CppElevator
