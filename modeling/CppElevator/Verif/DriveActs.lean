import CppElevator.Verif.NodeEvents

/-!
# The acts of a handler

Every handler of the state machine is a sequence of acts on its drive: one command, one field or one
timer each, or the few that the source never separates. A property of drives that the acts of an event
keep is kept by its handler, whatever branch it takes. This complements the modes, which say which
branch is taken but show neither commands nor deadlines.
-/
namespace CppElevator

variable {kFloors : Nat}

/-- An act on a drive. -/
inductive DriveAct where
  /-- `SetMotorDir`. -/
  | motorDir (dir : MotorDir)
  /-- `OpenDoor`, and the door timer started. -/
  | holdDoor
  /-- `CloseDoor`. -/
  | closeDoor
  /-- `SetStopped(true)`, the motor halted and the stop lamp lit. -/
  | halt
  /-- `SetStopped(false)` and the stop lamp out. -/
  | release
  /-- `SetFloorIndicator`. -/
  | showFloor
  /-- `SetMovingState`, and the floor timer started on entering the moving mode. -/
  | movingState (mov : MovingState)
  /-- `SetFault`. -/
  | fault (value : Bool)
  /-- `SetInertia`. -/
  | inertia (dir : MotorDir)
  /-- `doortimer_.Start`. -/
  | startDoorTimer
  /-- `doortimer_.Stop`. -/
  | stopDoorTimer
  /-- `floor_timer_.Start`. -/
  | startFloorTimer
  /-- `floor_timer_.Stop`. -/
  | stopFloorTimer
  deriving DecidableEq

/-- The controller never decides on an undefined direction. -/
theorem Controller.chooseDirection_defined (c : Controller kFloors) (floor : Int) :
    (c.chooseDirection floor).motorDir ≠ .err := by
  rcases c.chooseDirection_cases floor with ⟨pair, _⟩ | ⟨pair, _⟩ | ⟨pair, _⟩ | ⟨pair, _⟩ <;>
    simp [pair]

namespace Drive

/-- Carry out an act. -/
def act (now : Nat) (d : Drive kFloors) : DriveAct → Drive kFloors
  | .motorDir dir => { d with elev := d.elev.setMotorDir dir }
  | .holdDoor => { d with elev := d.elev.openDoor }.startDoorTimer now
  | .closeDoor => { d with elev := d.elev.closeDoor }
  | .halt =>
    let stopped := { d.elev with state := { d.elev.state with stopped := true } }
    { d with elev := (stopped.setMotorDir .stop).setStopLamp true }
  | .release =>
    let released := { d.elev with state := { d.elev.state with stopped := false } }
    { d with elev := released.setStopLamp false }
  | .showFloor => { d with elev := d.elev.setFloorIndicator }
  | .movingState mov =>
    if mov = .moving then (d.setMovingState mov).startFloorTimer now else d.setMovingState mov
  | .fault value =>
    { d with elev := { d.elev with state := { d.elev.state with fault := value } } }
  | .inertia dir => d.setInertia dir
  | .startDoorTimer => d.startDoorTimer now
  | .stopDoorTimer =>
    { d with controller := { d.controller with doortimer := d.controller.doortimer.stop } }
  | .startFloorTimer => d.startFloorTimer now
  | .stopFloorTimer => d.stopFloorTimer

end Drive

/-- Whether a handler may carry out an act. Only an arrival shows the floor and clears the fault, only
a floor timeout sets it, and only the stop button stops and releases. No handler commands an undefined
direction, and an emergency stop commands none but in halting. -/
def FsmEvent.Admits : FsmEvent → DriveAct → Prop
  | event, .motorDir dir => dir ≠ .err ∧ event ≠ .emergencyStop
  | event, .halt => event = .emergencyStop
  | event, .release => event = .emergencyStopReset
  | event, .showFloor => event = .floorArrival
  | event, .fault value => event = if value then .floorTimeout else .floorArrival
  | _, _ => True

namespace Drive

/-- What an act does to the door timer. -/
theorem doortimer_act (now : Nat) (d : Drive kFloors) (a : DriveAct) :
    (d.act now a).controller.doortimer = match a with
      | .holdDoor | .startDoorTimer => .start now Config.kDoorOpenTimeMs
      | .stopDoorTimer => d.controller.doortimer.stop
      | _ => d.controller.doortimer := by
  cases a with
  | movingState mov => cases mov <;> rfl
  | _ => rfl

/-- What an act does to the floor timer. -/
theorem floorTimer_act (now : Nat) (d : Drive kFloors) (a : DriveAct) :
    (d.act now a).controller.floorTimer = match a with
      | .startFloorTimer | .movingState .moving => .start now Config.kFaultTimeoutMs
      | .stopFloorTimer => d.controller.floorTimer.stop
      | _ => d.controller.floorTimer := by
  cases a with
  | movingState mov => cases mov <;> rfl
  | _ => rfl

/-- The floor indicator is no part of the state. -/
theorem state_setFloorIndicator (e : Elevator kFloors) : e.setFloorIndicator.state = e.state := by
  unfold Elevator.setFloorIndicator
  split_ifs <;> rfl

/-- What an act does to the door. -/
theorem doorOpen_act (now : Nat) (d : Drive kFloors) (a : DriveAct) :
    (d.act now a).elev.state.doorOpen = match a with
      | .holdDoor => true
      | .closeDoor => false
      | _ => d.elev.state.doorOpen := by
  cases a with
  | showFloor => exact congrArg ElevatorState.doorOpen (state_setFloorIndicator d.elev)
  | movingState mov => cases mov <;> rfl
  | _ => rfl

/-- What an act does to the mode of the state machine. -/
theorem movingState_act (now : Nat) (d : Drive kFloors) (a : DriveAct) :
    (d.act now a).elev.state.movingState = match a with
      | .holdDoor => .doorOpen
      | .movingState mov => mov
      | _ => d.elev.state.movingState := by
  cases a with
  | showFloor => exact congrArg ElevatorState.movingState (state_setFloorIndicator d.elev)
  | movingState mov => cases mov <;> rfl
  | _ => rfl

/-- What an act does to the emergency stop. -/
theorem stopped_act (now : Nat) (d : Drive kFloors) (a : DriveAct) :
    (d.act now a).elev.state.stopped = match a with
      | .halt => true
      | .release => false
      | _ => d.elev.state.stopped := by
  cases a with
  | showFloor => exact congrArg ElevatorState.stopped (state_setFloorIndicator d.elev)
  | movingState mov => cases mov <;> rfl
  | _ => rfl

/-- What an act does to the last motor command. -/
theorem motorDir_act (now : Nat) (d : Drive kFloors) (a : DriveAct) :
    (d.act now a).elev.state.motorDir = match a with
      | .motorDir dir => if d.elev.state.stopped then .stop else dir
      | .halt => .stop
      | _ => d.elev.state.motorDir := by
  cases a with
  | showFloor => exact congrArg ElevatorState.motorDir (state_setFloorIndicator d.elev)
  | movingState mov => cases mov <;> rfl
  | _ => rfl

/-- No act touches the buttons or the floor of the last check. -/
theorem buttons_act (now : Nat) (d : Drive kFloors) (a : DriveAct) :
    (d.act now a).elev.stopButton = d.elev.stopButton ∧
      (d.act now a).elev.orderButtons = d.elev.orderButtons ∧
      (d.act now a).elev.prevFloor = d.elev.prevFloor ∧
      (d.act now a).elev.state.floor = d.elev.state.floor := by
  cases a with
  | showFloor =>
    simp only [act, Elevator.setFloorIndicator]
    split_ifs <;> exact ⟨rfl, rfl, rfl, rfl⟩
  | movingState mov => cases mov <;> exact ⟨rfl, rfl, rfl, rfl⟩
  | _ => exact ⟨rfl, rfl, rfl, rfl⟩

/-- What an act sends to the hardware. -/
theorem commands_act (now : Nat) (d : Drive kFloors) (a : DriveAct) :
    (d.act now a).elev.commands = d.elev.commands ++ match a with
      | .motorDir dir => [.motorDir (if d.elev.state.stopped then .stop else dir)]
      | .holdDoor => [.doorOpenLamp true]
      | .closeDoor => [.doorOpenLamp false]
      | .halt => [.motorDir .stop, .stopLamp true]
      | .release => [.stopLamp false]
      | .showFloor =>
        if d.elev.state.floor = Config.kBetweenFloors then []
        else [.floorIndicator d.elev.state.floor]
      | _ => [] := by
  cases a with
  | motorDir | holdDoor | closeDoor | release => rfl
  | halt =>
    simp only [act, Elevator.setMotorDir, Elevator.setStopLamp, Elevator.send, ↓reduceIte,
      List.append_assoc, List.cons_append, List.nil_append]
  | showFloor =>
    simp only [act, Elevator.setFloorIndicator]
    split_ifs
    · exact (List.append_nil _).symm
    · rfl
  | movingState mov => cases mov <;> exact (List.append_nil _).symm
  | _ => exact (List.append_nil _).symm

/-- What a handler can make of a drive, act by act. -/
inductive Acted (event : FsmEvent) (now : Nat) (d : Drive kFloors) : Drive kFloors → Prop where
  /-- Nothing has been done. -/
  | refl : Acted event now d d
  /-- One more act. -/
  | act {d' : Drive kFloors} (before : Acted event now d d') (a : DriveAct)
      (admitted : event.Admits a) : Acted event now d (d'.act now a)

namespace Acted

variable {event : FsmEvent} {now : Nat} {d d' : Drive kFloors}

/-- A property that every admitted act keeps, the acts of a handler keep. -/
theorem keeps (acted : d.Acted event now d') (P : Drive kFloors → Prop)
    (kept : ∀ e a, event.Admits a → P e → P (e.act now a)) (holds : P d) : P d' := by
  induction acted with
  | refl => exact holds
  | act _ a admitted ih => exact kept _ a admitted ih

/-- Carrying out a decision. -/
theorem executeDecision (acted : d.Acted event now d') {pair : DirMovPair}
    (defined : pair.motorDir ≠ .err ∧ event ≠ .emergencyStop) :
    d.Acted event now (d'.executeDecision now pair) := by
  unfold Drive.executeDecision
  have moved := (acted.act (.motorDir pair.motorDir) defined).act (.movingState pair.movingState)
    trivial
  split_ifs with stopped moving
  · exact acted
  · simp only [Drive.act, if_pos moving] at moved
    exact moved.act (.inertia pair.motorDir) trivial
  · simp only [Drive.act, if_neg moving] at moved
    exact (moved.act .stopFloorTimer trivial).act (.inertia pair.motorDir) trivial

/-- Closing the door for a decision. -/
theorem closeDoorAndExecute (acted : d.Acted event now d') {pair : DirMovPair}
    (defined : pair.motorDir ≠ .err ∧ event ≠ .emergencyStop) :
    d.Acted event now (d'.closeDoorAndExecute now pair) := by
  unfold Drive.closeDoorAndExecute tryCloseDoor
  cases d'.elev.state.obstruction with
  | true =>
    simp only [↓reduceIte, Bool.false_eq_true]
    split_ifs
    · exact acted.act .startDoorTimer trivial
    · exact acted
  | false =>
    simp only [↓reduceIte, Bool.false_eq_true]
    exact (acted.act .closeDoor trivial).executeDecision defined

/-- Stopping at a floor. -/
theorem stopAndOpenDoor (acted : d.Acted event now d') (running : event ≠ .emergencyStop) :
    d.Acted event now (d'.stopAndOpenDoor now) := by
  have halted := acted.act (.motorDir .stop) ⟨by decide, running⟩
  exact (halted.act .holdDoor trivial).act .stopFloorTimer trivial

end Acted

variable (d : Drive kFloors) (now : Nat)

/-- The acts of an emergency stop. -/
theorem acted_fsmEmergencyStop (floorSensor : Int) :
    d.Acted .emergencyStop now (d.fsmEmergencyStop now floorSensor).1 := by
  have halted : d.Acted .emergencyStop now (d.act now .halt) := .act .refl .halt rfl
  unfold fsmEmergencyStop
  dsimp only
  split_ifs with atFloor opened
  · have held := halted.act .startDoorTimer trivial
    exact (held.act (.movingState .idle) trivial).act .stopFloorTimer trivial
  · have held := halted.act .holdDoor trivial
    exact (held.act (.movingState .idle) trivial).act .stopFloorTimer trivial
  · exact (halted.act (.movingState .idle) trivial).act .stopFloorTimer trivial

/-- The acts of a reset. -/
theorem acted_fsmEmergencyStopReset :
    d.Acted .emergencyStopReset now (d.fsmEmergencyStopReset now).1 := by
  have released : d.Acted .emergencyStopReset now (d.act now .release) := .act .refl .release rfl
  unfold fsmEmergencyStopReset
  dsimp only
  split_ifs with opened
  · exact (released.act (.movingState .doorOpen) trivial).act .startDoorTimer trivial
  · refine released.executeDecision ⟨?_, by decide⟩
    cases d.controller.inertia <;> decide

/-- The acts of an arrival. -/
theorem acted_fsmFloorArrival : d.Acted .floorArrival now (d.fsmFloorArrival now).1 := by
  have halted : FsmEvent.Admits .floorArrival (.motorDir .stop) := ⟨by decide, by decide⟩
  have arrives {d' : Drive kFloors} (acted : d.Acted .floorArrival now d') :
      d.Acted .floorArrival now
        (((d'.act now .showFloor).act now (.fault false)).act now .startFloorTimer) :=
    ((acted.act .showFloor rfl).act (.fault false) rfl).act .startFloorTimer trivial
  unfold fsmFloorArrival
  by_cases endFloor : d.elev.state.floor = 0 ∨ d.elev.state.floor = kFloors
  · have shown := arrives (.act .refl (.motorDir .stop) halted)
    simp only [if_pos endFloor]
    split_ifs
    · exact shown
    · exact shown.stopAndOpenDoor (by decide)
  · have shown := arrives .refl
    simp only [if_neg endFloor]
    split_ifs
    · exact shown
    · exact shown.stopAndOpenDoor (by decide)

/-- The acts of a table update. -/
theorem acted_fsmTableUpdate : d.Acted .tableUpdate now (d.fsmTableUpdate now).1 := by
  have defined := And.intro (d.controller.chooseDirection_defined d.elev.state.floor)
    (show FsmEvent.tableUpdate ≠ .emergencyStop by decide)
  unfold fsmTableUpdate
  cases d.elev.state.movingState with
  | doorOpen =>
    dsimp only
    split_ifs
    · exact .act .refl .startDoorTimer trivial
    · exact .refl
  | moving => exact .refl
  | err => exact .refl
  | idle =>
    dsimp only
    split_ifs
    · exact (Acted.refl.act .holdDoor trivial).executeDecision defined
    · exact (Acted.refl.act .startDoorTimer trivial).executeDecision defined
    · exact Acted.refl.closeDoorAndExecute defined

/-- The acts of a door timeout. -/
theorem acted_fsmDoorTimeout : d.Acted .doorTimeout now (d.fsmDoorTimeout now).1 := by
  have defined := And.intro (d.controller.chooseDirection_defined d.elev.state.floor)
    (show FsmEvent.doorTimeout ≠ .emergencyStop by decide)
  have timedOut : d.Acted .doorTimeout now (d.act now .stopDoorTimer) :=
    .act .refl .stopDoorTimer trivial
  unfold fsmDoorTimeout
  dsimp only
  split_ifs
  · exact timedOut.act .startDoorTimer trivial
  · exact timedOut
  · exact (timedOut.executeDecision defined).act .startDoorTimer trivial
  · exact timedOut.closeDoorAndExecute defined

/-- The acts of a floor timeout. -/
theorem acted_fsmFloorTimeout : d.Acted .floorTimeout now d.fsmFloorTimeout.1 := by
  have timedOut : d.Acted .floorTimeout now (d.act now .stopFloorTimer) :=
    .act .refl .stopFloorTimer trivial
  unfold fsmFloorTimeout
  dsimp only
  split_ifs
  · exact timedOut.act (.fault true) rfl
  · exact timedOut

/-- Every event carries out acts it admits. -/
theorem acted_fsm (floorSensor : Int) (event : FsmEvent) :
    d.Acted event now (d.fsm now floorSensor event).1 := by
  cases event with
  | emergencyStop => exact d.acted_fsmEmergencyStop now floorSensor
  | emergencyStopReset => exact d.acted_fsmEmergencyStopReset now
  | floorArrival => exact d.acted_fsmFloorArrival now
  | tableUpdate => exact d.acted_fsmTableUpdate now
  | doorTimeout => exact d.acted_fsmDoorTimeout now
  | floorTimeout => exact d.acted_fsmFloorTimeout now

/-- The drive once the hardware is sampled and the confirmed orders are taken over. -/
def sampled (signals : Signals kFloors) (requests : BoolTable kFloors) : Drive kFloors where
  controller := d.controller.setRequests requests
  elev := { d.elev.step signals with
    orderButtons := signals.buttons, state := (d.elev.step signals).state.incrementVersion }

/-- The drive once the result of an event is published. -/
def published (requests : BoolTable kFloors) : Drive kFloors where
  controller := d.controller.setRequests requests
  elev := { d.elev with state := { d.elev.state.incrementVersion with requests := requests } }

/-- The drive once an event has been looked for. -/
def looked (prevFloor : Int) (prevRequests : BoolTable kFloors) : Drive kFloors where
  controller := { d.controller with prevRequests := prevRequests }
  elev := { d.elev with prevFloor := prevFloor }

/-- A property of drives that everything a turn does to its drive after sampling keeps. -/
structure Kept (now : Nat) (P : Drive kFloors → Prop) : Prop where
  /-- Looking for an event. -/
  looked : ∀ {d prevFloor prevRequests}, P d → P (d.looked prevFloor prevRequests)
  /-- The acts of its handler. -/
  act : ∀ {d : Drive kFloors} {event : FsmEvent} {a}, event.Admits a → P d → P (d.act now a)
  /-- Publishing the result. -/
  published : ∀ {d requests}, P d → P (d.published requests)

end Drive

namespace ElevatorNode

/-- The drive after the locked section of a step. -/
theorem drive_of_sync {s s' : ElevatorNode kFloors} {now : StepClock kFloors} {signals : Signals kFloors}
    (done : s.sync now signals = some s') : ∃ requests, s'.drive = s.drive.sampled signals requests := by
  obtain ⟨peers, _, done⟩ := Option.bind_eq_some_iff.1 done
  obtain rfl := Option.some.inj done
  exact ⟨_, rfl⟩

/-- The drive in which a turn looks for an event. -/
theorem drive_of_due {s q : ElevatorNode kFloors} {input : NodeInput kFloors}
    (due : s.due input = some q) :
    ∃ requests, q.drive = s.drive.sampled input.signals requests := by
  obtain ⟨synced, sync, rfl⟩ := Option.map_eq_some_iff.1 due
  obtain ⟨requests, drive⟩ := drive_of_sync sync
  rw [receive_drive] at drive ⊢
  exact ⟨requests, drive⟩

/-- Looking for an event notes the floor and the requests that were looked at. -/
theorem nextEvent_looked (d : Drive kFloors) (now : Nat) :
    ∃ prevFloor prevRequests, (nextEvent d now).1 = d.looked prevFloor prevRequests := by
  unfold nextEvent
  dsimp only
  split_ifs
  · exact ⟨_, _, rfl⟩
  · exact ⟨_, _, rfl⟩
  all_goals exact ⟨_, _, rfl⟩

/-- The drive after an event: that of its handler, published, or that which found none due. -/
theorem drive_of_handleEvent {q s' : ElevatorNode kFloors} {now : Nat} {floorSensor : Int}
    (done : q.handleEvent now floorSensor = some s') :
    let d := fsmDue (nextEvent q.drive now).1 now floorSensor (nextEvent q.drive now).2
    s'.drive = d ∨ ∃ requests, s'.drive = d.published requests := by
  unfold handleEvent at done
  dsimp only at done ⊢
  generalize nextEvent q.drive now = due at done ⊢
  obtain ⟨d, next⟩ := due
  cases next with
  | none =>
    obtain rfl := Option.some.inj done
    exact .inl rfl
  | some event =>
    obtain ⟨peers, _, rfl⟩ := Option.map_eq_some_iff.1 done
    exact .inr ⟨_, rfl⟩

/-- What is kept through the second half of a step. -/
theorem kept_handleEvent {q s' : ElevatorNode kFloors} {now : Nat} {floorSensor : Int}
    (done : q.handleEvent now floorSensor = some s') {P : Drive kFloors → Prop}
    (kept : Drive.Kept now P) (holds : P q.drive) : P s'.drive := by
  have handled : P (fsmDue (nextEvent q.drive now).1 now floorSensor (nextEvent q.drive now).2) := by
    obtain ⟨prevFloor, prevRequests, looked⟩ := nextEvent_looked q.drive now
    rw [looked]
    have before : P (q.drive.looked prevFloor prevRequests) := kept.looked holds
    cases (nextEvent q.drive now).2 with
    | none => exact before
    | some event =>
      exact (Drive.acted_fsm _ now floorSensor event).keeps P (fun _ _ => kept.act) before
  rcases drive_of_handleEvent done with same | ⟨requests, same⟩ <;> rw [same]
  · exact handled
  · exact kept.published handled

/-- What sampling establishes and the rest of a turn keeps, holds after the turn. -/
theorem kept_turn {s s' : ElevatorNode kFloors} {input : NodeInput kFloors}
    (turned : s.turn input = some s') {P : Drive kFloors → Prop} (kept : Drive.Kept input.now P)
    (holds : ∀ requests, P (s.drive.sampled input.signals requests)) : P s'.drive := by
  obtain ⟨q, due, done⟩ := turn_cases turned
  obtain ⟨requests, drive⟩ := drive_of_due due
  apply kept_handleEvent done kept
  rw [drive]
  exact holds requests

/-- The parts of a turn: the drive in which it looks for an event, the one in which the event is
handled, and what is published of the result. -/
theorem turn_parts {s s' : ElevatorNode kFloors} {input : NodeInput kFloors}
    (turned : s.turn input = some s') :
    ∃ (q : ElevatorNode kFloors) (d : Drive kFloors) (next : Option FsmEvent)
      (requests prevRequests : BoolTable kFloors) (prevFloor : Int),
      s.due input = some q ∧ q.drive = s.drive.sampled input.signals requests ∧
      nextEvent q.drive input.now = (d, next) ∧
      d = (s.drive.sampled input.signals requests).looked prevFloor prevRequests ∧
      (s'.drive = fsmDue d input.now input.stopSensor next ∨
        ∃ requests', s'.drive =
          (fsmDue d input.now input.stopSensor next).published requests') := by
  obtain ⟨q, due, done⟩ := turn_cases turned
  obtain ⟨requests, sampled⟩ := drive_of_due due
  obtain ⟨prevFloor, prevRequests, looked⟩ := nextEvent_looked q.drive input.now
  exact ⟨q, (nextEvent q.drive input.now).1, (nextEvent q.drive input.now).2, requests, prevRequests,
    prevFloor, due, sampled, rfl, looked.trans (by rw [sampled]), drive_of_handleEvent done⟩

end ElevatorNode

namespace Drive

/-- What sampling and looking show of the mode. -/
theorem mode_looked_sampled (d : Drive kFloors) (signals : Signals kFloors)
    (requests prevRequests : BoolTable kFloors) (prevFloor : Int) :
    ((d.sampled signals requests).looked prevFloor prevRequests).mode =
      { d.mode.sample signals.floorSensor signals.obstruction requests with
        prevFloor := prevFloor, prevRequests := prevRequests } := by
  unfold looked sampled mode Mode.sample Elevator.step ElevatorState.setFloor
    ElevatorState.incrementVersion Controller.setRequests
  split_ifs <;> simp

/-- The floor of a drive is one of the building. -/
def Inside (d : Drive kFloors) : Prop := 0 ≤ d.elev.state.floor ∧ d.elev.state.floor < kFloors

/-- What a turn does to its drive leaves the floor alone. -/
theorem kept_inside (now : Nat) : Kept now (@Inside kFloors) where
  looked inside := inside
  act {d _ a} _ inside := by
    unfold Inside
    rw [(d.buttons_act now a).2.2.2]
    exact inside
  published inside := inside

/-- Sampling takes over floors of the building only. -/
theorem Inside.sampled {d : Drive kFloors} (inside : d.Inside) (signals : Signals kFloors)
    (requests : BoolTable kFloors) : (d.sampled signals requests).Inside := by
  simp only [Inside, Drive.sampled, Elevator.step, ElevatorState.incrementVersion,
    ElevatorState.setFloor]
  split_ifs with outside
  · exact inside
  · exact ⟨by dsimp only; omega, by dsimp only; omega⟩

end Drive

open Library

end CppElevator
