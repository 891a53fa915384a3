import CppElevator.Console
import CppElevator.Verif.DriveActs
import CppElevator.Verif.FleetInvariants

/-!
# The panel mirrors the state

What the calls of a node have written to its panel is what the node holds: the motor, the door lamp and
the stop lamp follow the state of the elevator, the floor indicator shows the last floor the node has
looked at, and the button lamps are the record `SetButtonLamps` keeps of the orders confirmed to the
elevator.
-/
namespace CppElevator

open Library

variable {kFloors : Nat}

namespace Panel

/-- Calls that all succeed have been written in order. -/
theorem eq_of_calls {p p' : Panel kFloors} {cs : List HardwareCall} (done : p.calls cs = some p') :
    p' = cs.foldl write p := by
  induction cs generalizing p with
  | nil => exact (Option.some.inj done).symm
  | cons c cs ih =>
    obtain ⟨next, called, rest⟩ := Option.bind_eq_some_iff.1 done
    obtain ⟨_, _, rfl⟩ := Option.map_eq_some_iff.1 called
    exact ih rest

/-- Commands in order. -/
def commands (p : Panel kFloors) (cs : List Command) : Panel kFloors :=
  cs.foldl (fun p c => p.write (.command c)) p

/-- Commands after others. -/
theorem commands_append (p : Panel kFloors) (before after : List Command) :
    p.commands (before ++ after) = (p.commands before).commands after := List.foldl_append ..

/-- Commands write no button lamp. -/
theorem btnLamps_commands (p : Panel kFloors) (cs : List Command) :
    (p.commands cs).btnLamps = p.btnLamps := by
  unfold commands
  induction cs generalizing p with
  | nil => rfl
  | cons c cs ih =>
    rw [List.foldl_cons, ih]
    cases c <;> rfl

end Panel

/-- The panel shows the motor, the door and the stop of a drive once its commands are written. -/
structure Drive.Shown (p : Panel kFloors) (d : Drive kFloors) : Prop where
  /-- The motor. -/
  motor : (p.commands d.elev.commands).motorDir = d.elev.state.motorDir
  /-- The door lamp. -/
  door : (p.commands d.elev.commands).doorOpenLamp = d.elev.state.doorOpen
  /-- The stop lamp. -/
  stop : (p.commands d.elev.commands).stopLamp = d.elev.state.stopped

namespace Drive

/-- Every act writes what it changes. -/
theorem Shown.act {p : Panel kFloors} {d : Drive kFloors} (shown : d.Shown p) (now : Nat)
    (a : DriveAct) : (d.act now a).Shown p := by
  obtain ⟨motor, door, stop⟩ := shown
  constructor
  · rw [commands_act, motorDir_act, Panel.commands_append]
    cases a with
    | showFloor => split_ifs <;> exact motor
    | motorDir | halt => rfl
    | _ => exact motor
  · rw [commands_act, doorOpen_act, Panel.commands_append]
    cases a with
    | showFloor => split_ifs <;> exact door
    | holdDoor | closeDoor => rfl
    | _ => exact door
  · rw [commands_act, stopped_act, Panel.commands_append]
    cases a with
    | showFloor => split_ifs <;> exact stop
    | halt | release => rfl
    | _ => exact stop

/-- What a turn does to its drive stays shown. -/
theorem kept_shown (now : Nat) (p : Panel kFloors) : Kept now (Shown p) where
  looked shown := ⟨shown.motor, shown.door, shown.stop⟩
  act _ shown := shown.act now _
  published shown := ⟨shown.motor, shown.door, shown.stop⟩

/-- Only an arrival writes the floor indicator. -/
theorem floorIndicator_of_acted {p : Panel kFloors} {d d' : Drive kFloors} {event : FsmEvent}
    {now : Nat} (acted : d.Acted event now d') (other : event ≠ .floorArrival) :
    (p.commands d'.elev.commands).floorIndicator = (p.commands d.elev.commands).floorIndicator := by
  refine acted.keeps (fun e => (p.commands e.elev.commands).floorIndicator =
    (p.commands d.elev.commands).floorIndicator) (fun e a admitted same => ?_) rfl
  rw [commands_act, Panel.commands_append]
  cases a with
  | showFloor => exact absurd admitted other
  | _ => exact same

/-- An arrival writes the floor. -/
theorem floorIndicator_fsmFloorArrival (p : Panel kFloors) {d : Drive kFloors} (now : Nat)
    (inside : d.elev.state.floor ≠ Config.kBetweenFloors) :
    (p.commands (d.fsmFloorArrival now).1.elev.commands).floorIndicator = d.elev.state.floor := by
  have outside : ¬d.elev.state.floor = Config.kBetweenFloors := inside
  unfold fsmFloorArrival
  by_cases endFloor : d.elev.state.floor = 0 ∨ d.elev.state.floor = kFloors
  · simp only [if_pos endFloor, Elevator.setFloorIndicator, Elevator.setMotorDir, Elevator.send,
      if_neg outside]
    split_ifs <;> simp [startFloorTimer, stopAndOpenDoor, startDoorTimer, stopFloorTimer,
      Elevator.openDoor, Elevator.setMotorDir, Elevator.send, Panel.commands, Panel.write]
  · simp only [if_neg endFloor, Elevator.setFloorIndicator, Elevator.send, if_neg outside]
    split_ifs <;> simp [startFloorTimer, stopAndOpenDoor, startDoorTimer, stopFloorTimer,
      Elevator.openDoor, Elevator.setMotorDir, Elevator.send, Panel.commands, Panel.write]

end Drive

namespace ElevatorNode

/-- What looking for an event makes of the floor of the last check, and when an arrival is due. -/
theorem prevFloor_of_nextEvent (d : Drive kFloors) (now : Nat) :
    (nextEvent d now).1 = d ∧ d.elev.stopPressed = true ∧
        (nextEvent d now).2 ≠ some .floorArrival ∨
      (nextEvent d now).1.elev.prevFloor = d.elev.state.floor ∧
        ((nextEvent d now).2 = some .floorArrival ∨ (nextEvent d now).2 ≠ some .floorArrival ∧
          (d.elev.state.floor = d.elev.prevFloor ∨ d.elev.state.floor = Config.kBetweenFloors)) := by
  unfold nextEvent
  dsimp only
  split_ifs with stop reset hit updated door floor
  · simp only [Elevator.emergencyStop, Bool.and_eq_true] at stop
    exact .inl ⟨rfl, stop.1, by simp⟩
  · simp only [Elevator.emergencyStopReset, Bool.and_eq_true] at reset
    exact .inl ⟨rfl, reset.1, by simp⟩
  · exact .inr ⟨rfl, .inl rfl⟩
  all_goals
    refine .inr ⟨rfl, .inr ⟨by simp, ?_⟩⟩
    by_contra other
    obtain ⟨new, inside⟩ := not_or.1 other
    exact hit (by simp [Elevator.hitNewFloor, new, inside])

end ElevatorNode

/-- The record takes over the requests. -/
theorem setButtonLamps_record (buttonLamps requests : BoolTable kFloors) :
    (setButtonLamps buttonLamps requests).1 = requests := by
  funext f b
  simp only [setButtonLamps, ite_eq_right_iff]
  exact fun same => same.symm

/-- Every button is visited. -/
theorem mem_buttonCells (f : Fin kFloors) (b : BtnType) : (f, b) ∈ buttonCells kFloors := by
  unfold buttonCells
  rw [List.mem_flatMap]
  refine ⟨f, List.mem_finRange f, ?_⟩
  cases b <;> simp

/-- The calls for the lamps at a list of buttons. -/
theorem write_lampCalls (buttonLamps requests : BoolTable kFloors)
    (cells : List (Fin kFloors × BtnType)) (p : Panel kFloors) :
    let q := (cells.filterMap fun (f, b) =>
      if requests f b = buttonLamps f b then none
      else some (HardwareCall.btnLamp b f.val (requests f b))).foldl Panel.write p
    (q.motorDir, q.doorOpenLamp, q.stopLamp, q.floorIndicator) =
        (p.motorDir, p.doorOpenLamp, p.stopLamp, p.floorIndicator) ∧
      ∀ f b, q.btnLamps (f : Fin kFloors).val b =
        if (f, b) ∈ cells ∧ requests f b ≠ buttonLamps f b then requests f b
        else p.btnLamps f.val b := by
  induction cells generalizing p with
  | nil => exact ⟨rfl, fun f b => by simp⟩
  | cons cell cells ih =>
    obtain ⟨g, c⟩ := cell
    rw [List.filterMap_cons]
    by_cases same : requests g c = buttonLamps g c
    · simp only [same, ↓reduceIte]
      obtain ⟨frame, lamps⟩ := ih p
      refine ⟨frame, fun f b => ?_⟩
      rw [lamps f b]
      by_cases here : f = g ∧ b = c
      · obtain ⟨rfl, rfl⟩ := here
        simp [same]
      · have other : ¬(f, b) = (g, c) := fun eq => here (Prod.mk.inj eq)
        simp [List.mem_cons, other]
    · simp only [same, ↓reduceIte, List.foldl_cons]
      obtain ⟨frame, lamps⟩ := ih (p.write (.btnLamp c g.val (requests g c)))
      refine ⟨frame, fun f b => ?_⟩
      rw [lamps f b]
      by_cases here : f = g ∧ b = c
      · obtain ⟨rfl, rfl⟩ := here
        simp [same, Panel.write]
      · have other : ¬(f, b) = (g, c) := fun eq => here (Prod.mk.inj eq)
        have apart : ¬((f.val : Int) = g.val ∧ b = c) := fun eq =>
          here ⟨Fin.ext (Int.ofNat.inj eq.1), eq.2⟩
        simp only [List.mem_cons, other, false_or, Panel.write, if_neg apart]

/-- The calls of `SetButtonLamps` write the lamps alone, and leave them as requested. -/
theorem write_setButtonLamps (buttonLamps requests : BoolTable kFloors) {p : Panel kFloors}
    (recorded : ∀ f b, p.btnLamps (f : Fin kFloors).val b = buttonLamps f b) :
    let q := (setButtonLamps buttonLamps requests).2.foldl Panel.write p
    (q.motorDir, q.doorOpenLamp, q.stopLamp, q.floorIndicator) =
        (p.motorDir, p.doorOpenLamp, p.stopLamp, p.floorIndicator) ∧
      ∀ f b, q.btnLamps (f : Fin kFloors).val b = requests f b := by
  obtain ⟨frame, lamps⟩ := write_lampCalls buttonLamps requests (buttonCells kFloors) p
  refine ⟨frame, fun f b => (lamps f b).trans ?_⟩
  split_ifs with changed
  · rfl
  · have same : requests f b = buttonLamps f b := by
      by_contra differs
      exact changed ⟨mem_buttonCells f b, differs⟩
    rw [recorded, same]

namespace ElevatorNode

variable {s s' : ElevatorNode kFloors} {input : NodeInput kFloors} {p : Panel kFloors}

/-- A panel that shows the state before a turn shows it again once the commands of the turn are
written. -/
theorem shown_of_turn (turned : s.turn input = some s') (inside : s.drive.Inside)
    (motor : p.motorDir = s.drive.elev.state.motorDir)
    (door : p.doorOpenLamp = s.drive.elev.state.doorOpen)
    (stop : p.stopLamp = s.drive.elev.state.stopped) : s'.drive.Inside ∧ s'.drive.Shown p := by
  refine ⟨kept_turn turned (Drive.kept_inside input.now) fun requests =>
    inside.sampled input.signals requests, kept_turn turned (Drive.kept_shown input.now p) ?_⟩
  intro requests
  have state : (s.drive.sampled input.signals requests).elev.state.motorDir =
        s.drive.elev.state.motorDir ∧
      (s.drive.sampled input.signals requests).elev.state.doorOpen = s.drive.elev.state.doorOpen ∧
      (s.drive.sampled input.signals requests).elev.state.stopped =
        s.drive.elev.state.stopped := by
    simp only [Drive.sampled, Elevator.step, ElevatorState.incrementVersion, ElevatorState.setFloor]
    split_ifs <;> exact ⟨rfl, rfl, rfl⟩
  exact ⟨motor.trans state.1.symm, door.trans state.2.1.symm, stop.trans state.2.2.symm⟩

/-- The floor indicator shows the floor of the last check, which is the present one unless the turn
went to the stop button. -/
theorem floor_of_turn (turned : s.turn input = some s') (inside : s.drive.Inside)
    (shown : p.floorIndicator = s.drive.elev.prevFloor) :
    (p.commands s'.drive.elev.commands).floorIndicator = s'.drive.elev.prevFloor ∧
      (pressed input.signals.stop s.drive.elev.stopButton = false →
        s'.drive.elev.prevFloor = s'.drive.elev.state.floor) := by
  obtain ⟨q, d, next, requests, prevRequests, prevFloor, -, sampled, found, looked, after⟩ :=
    turn_parts turned
  have floors := prevFloor_of_nextEvent q.drive input.now
  rw [found] at floors
  have silent : d.elev.commands = [] := by
    rw [looked]
    rfl
  have here : d.elev.state.floor = q.drive.elev.state.floor ∧
      d.elev.state.floor ≠ Config.kBetweenFloors := by
    have lower := (inside.sampled input.signals requests).1
    rw [← sampled] at lower
    have same : d.elev.state.floor = q.drive.elev.state.floor := by
      rw [looked, sampled]
      rfl
    refine ⟨same, fun between => ?_⟩
    rw [same, Config.kBetweenFloors] at between
    omega
  have before : q.drive.elev.prevFloor = s.drive.elev.prevFloor ∧
      q.drive.elev.stopPressed = pressed input.signals.stop s.drive.elev.stopButton := by
    rw [sampled]
    exact ⟨rfl, rfl⟩
  have handled : (fsmDue d input.now input.stopSensor next).elev.prevFloor =
        d.elev.prevFloor ∧
      (fsmDue d input.now input.stopSensor next).elev.state.floor = d.elev.state.floor ∧
      (p.commands (fsmDue d input.now input.stopSensor next).elev.commands).floorIndicator =
        if next = some .floorArrival then d.elev.state.floor else p.floorIndicator := by
    cases next with
    | none =>
      refine ⟨rfl, rfl, ?_⟩
      rw [show (fsmDue d input.now input.stopSensor none).elev.commands = [] from silent]
      rfl
    | some event =>
      have acted := d.acted_fsm input.now input.stopSensor event
      have frame := acted.keeps (fun e => e.elev.prevFloor = d.elev.prevFloor ∧
          e.elev.state.floor = d.elev.state.floor)
        (fun e a _ same => by
          have frame := e.buttons_act input.now a
          exact ⟨frame.2.2.1.trans same.1, frame.2.2.2.trans same.2⟩) ⟨rfl, rfl⟩
      refine ⟨frame.1, frame.2, ?_⟩
      by_cases arrival : event = .floorArrival
      · subst arrival
        rw [if_pos rfl]
        exact Drive.floorIndicator_fsmFloorArrival p input.now here.2
      · rw [if_neg fun same => arrival (Option.some.inj same)]
        refine (Drive.floorIndicator_of_acted acted arrival).trans ?_
        rw [silent]
        rfl
  obtain ⟨prev, floor, indicator⟩ := handled
  have settled : (p.commands
        (fsmDue d input.now input.stopSensor next).elev.commands).floorIndicator =
      (fsmDue d input.now input.stopSensor next).elev.prevFloor ∧
      (pressed input.signals.stop s.drive.elev.stopButton = false →
        (fsmDue d input.now input.stopSensor next).elev.prevFloor =
          (fsmDue d input.now input.stopSensor next).elev.state.floor) := by
    rw [indicator, prev, floor]
    rcases floors with ⟨same, button, other⟩ | ⟨noted, arrival | ⟨other, stays⟩⟩
    · refine ⟨?_, fun released => ?_⟩
      · rw [if_neg other, shown, ← before.1]
        exact congrArg (fun e => e.elev.prevFloor) same.symm
      · rw [← before.2, button] at released
        cases released
    · dsimp only at noted arrival
      rw [if_pos arrival, noted, here.1]
      exact ⟨rfl, fun _ => rfl⟩
    · dsimp only at noted other
      rw [if_neg other, noted, here.1, shown, ← before.1]
      refine ⟨?_, fun _ => rfl⟩
      rcases stays with same | between
      · exact same.symm
      · exact absurd (here.1.trans between) here.2
  rcases after with same | ⟨_, same⟩ <;> rw [same] <;> exact settled

end ElevatorNode

/-- A panel with its lamps out. -/
structure Panel.Dark (p : Panel kFloors) : Prop where
  /-- The door lamp. -/
  door : p.doorOpenLamp = false
  /-- The stop lamp. -/
  stop : p.stopLamp = false
  /-- The button lamps. -/
  buttons : ∀ f b, p.btnLamps f b = false

namespace Console

/-- The panel shows what the node holds. -/
structure Mirrors (s : Console kFloors) : Prop where
  /-- The motor turns as last commanded. -/
  motor : s.panel.motorDir = s.node.drive.elev.state.motorDir
  /-- The door lamp is lit while the door is open. -/
  door : s.panel.doorOpenLamp = s.node.drive.elev.state.doorOpen
  /-- The stop lamp is lit while the emergency stop is in force. -/
  stop : s.panel.stopLamp = s.node.drive.elev.state.stopped
  /-- The floor indicator shows the floor of the last check for an arrival. -/
  floor : s.panel.floorIndicator = s.node.drive.elev.prevFloor
  /-- The button lamps are as recorded. -/
  buttons : ∀ f b, s.panel.btnLamps (f : Fin kFloors).val b = s.buttonLamps f b

/-- The orders that a turn finds after its presses, before `Peers::Step`. -/
def ordersFound (t : Transition (Console kFloors) (NodeInput kFloors)) : OrderTable kFloors :=
  ((t.pre.node.receive t.action.earlier).synced t.action.signals).peers.orders

/-- What a turn writes: the lamps of the requests taken over, then the commands of the event. -/
theorem exec_cases {s s' : Console kFloors} {input : NodeInput kFloors}
    (done : s.exec input = some s') : s.node.turn input = some s'.node ∧
      s'.buttonLamps = (ordersFound ⟨s, input, s'⟩).toBoolTable s.node.peers.nodeId.val ∧
      s'.panel = ((setButtonLamps s.buttonLamps s'.buttonLamps).2.foldl Panel.write
        s.panel).commands s'.node.drive.elev.commands := by
  obtain ⟨q, due, done⟩ := Option.bind_eq_some_iff.1 done
  obtain ⟨n, handled, done⟩ := Option.bind_eq_some_iff.1 done
  obtain ⟨panel, written, done⟩ := Option.bind_eq_some_iff.1 done
  obtain rfl := Option.some.inj done
  have requests : q.drive.controller.requests =
      (ordersFound ⟨s, input, s⟩).toBoolTable s.node.peers.nodeId.val := by
    obtain ⟨synced, sync, rfl⟩ := Option.map_eq_some_iff.1 due
    rw [ElevatorNode.sync_eq] at sync
    obtain ⟨peers, -, rfl⟩ := Option.map_eq_some_iff.1 sync
    rw [ElevatorNode.receive_drive]
    have own : (s.node.receive input.earlier).peers.nodeId = s.node.peers.nodeId := by
      unfold ElevatorNode.receive
      generalize s.node = n'
      induction input.earlier generalizing n' with
      | nil => rfl
      | cons packet packets ih =>
        rw [List.foldl_cons, ih]
        exact n'.peers.rxPacketProcessing_nodeId packet.1 packet.2
    rw [← own]
    rfl
  have record := setButtonLamps_record s.buttonLamps q.drive.controller.requests
  simp only [setButtonLamps] at record
  refine ⟨Option.bind_eq_some_iff.2 ⟨q, due, handled⟩, record.trans requests, ?_⟩
  simp only [record]
  rw [Panel.eq_of_calls written, List.foldl_append, List.foldl_map]
  rfl

/-- A turn keeps the mirror, shows the floor, and lights the lamps of the orders found. -/
theorem Mirrors.exec {s s' : Console kFloors} {input : NodeInput kFloors} (mirrors : s.Mirrors)
    (inside : s.node.drive.Inside) (done : s.exec input = some s') :
    (s'.Mirrors ∧ s'.node.drive.Inside) ∧
      (pressed input.signals.stop s.node.drive.elev.stopButton = false →
        s'.panel.floorIndicator = s'.node.drive.elev.state.floor) ∧
      ∀ f b, s'.panel.btnLamps (f : Fin kFloors).val b =
        (ordersFound ⟨s, input, s'⟩).toBoolTable s.node.peers.nodeId.val f b := by
  obtain ⟨turned, lamps, panel⟩ := exec_cases done
  have written := write_setButtonLamps s.buttonLamps s'.buttonLamps mirrors.buttons
  dsimp only at written
  generalize (setButtonLamps s.buttonLamps s'.buttonLamps).2.foldl Panel.write s.panel = p
    at panel written
  obtain ⟨frame, lit⟩ := written
  simp only [Prod.mk.injEq] at frame
  obtain ⟨motor, door, stop, floor⟩ := frame
  obtain ⟨inside', shown⟩ := ElevatorNode.shown_of_turn turned inside (motor.trans mirrors.motor)
    (door.trans mirrors.door) (stop.trans mirrors.stop)
  obtain ⟨indicator, present⟩ :=
    ElevatorNode.floor_of_turn turned inside (floor.trans mirrors.floor)
  have buttons (f : Fin kFloors) (b : BtnType) :
      s'.panel.btnLamps f.val b = s'.buttonLamps f b := by
    rw [panel, Panel.btnLamps_commands]
    exact lit f b
  rw [← panel] at indicator
  refine ⟨⟨⟨?_, ?_, ?_, indicator, buttons⟩, inside'⟩, fun quiet => indicator.trans (present quiet),
    fun f b => (buttons f b).trans (congrFun (congrFun lamps f) b)⟩
  · rw [panel]
    exact shown.motor
  · rw [panel]
    exact shown.door
  · rw [panel]
    exact shown.stop

/-- `ElevatorNode::Init` at a floor, with the stop button released, at a dark panel. -/
theorem mirrors_init {nodeId : Fin kElevs} {initial : Signals kFloors} {before : Panel kFloors}
    {start : Console kFloors} (dark : before.Dark) (atFloor : initial.AtFloor)
    (released : initial.stop = false) (begun : Console.init nodeId initial before = some start) :
    start.Mirrors ∧ start.node.drive.Inside := by
  obtain ⟨panel, written, rfl⟩ := Option.map_eq_some_iff.1 begun
  have inside : (ElevatorNode.init nodeId initial : ElevatorNode kFloors).drive.Inside :=
    (Drive.sited_init nodeId atFloor).2
  obtain ⟨mov, motor, door⟩ := @Drive.init_idle kFloors nodeId.val initial
  have found : (ElevatorNode.init nodeId initial : ElevatorNode kFloors).drive.elev.state.floor ≠
      Config.kBetweenFloors := by
    intro between
    have lower := inside.1
    rw [between, Config.kBetweenFloors] at lower
    omega
  rw [Panel.eq_of_calls written, Elevator.initCalls, if_neg found]
  exact ⟨⟨motor.symm, dark.door.trans door.symm, dark.stop.trans released.symm, rfl,
    fun f b => dark.buttons f.val b⟩, inside⟩

/-- A node initialised at a floor, with the stop button released, at a dark panel: after every run of
turns the panel shows the motor command, the door, the emergency stop and the floor of the last check
for an arrival; after every turn that did not go to the stop button it shows the present floor; and
after every turn exactly the buttons are lit whose orders the turn found confirmed to this elevator. -/
theorem panel_mirrors {nodeId : Fin kElevs} {initial : Signals kFloors} {before : Panel kFloors}
    {start s : Console kFloors} (dark : before.Dark) (atFloor : initial.AtFloor)
    (released : initial.stop = false) (begun : Console.init nodeId initial before = some start)
    {trace : List (Transition (Console kFloors) (NodeInput kFloors))}
    (run : Run ConsoleStep start trace s) :
    s.Mirrors ∧ ∀ t ∈ trace,
      (pressed t.action.signals.stop t.pre.node.drive.elev.stopButton = false →
        t.post.panel.floorIndicator = t.post.node.drive.elev.state.floor) ∧
      ∀ f b, t.post.panel.btnLamps (f : Fin kFloors).val b =
        (ordersFound t).toBoolTable t.pre.node.peers.nodeId.val f b := by
  have init := mirrors_init dark atFloor released begun
  constructor
  · exact (run.invariant (fun s => s.Mirrors ∧ s.node.drive.Inside)
      (fun done inv => (inv.1.exec inv.2 done).1) init).1
  · exact run.forall_transitions (fun _ => True) _ (fun s => s.Mirrors ∧ s.node.drive.Inside)
      (fun done _ inv => inv.1.exec inv.2 done) (fun _ _ => trivial) init

/-- A car called to its own floor opens the door, with the lamps of the door and of the call lit. -/
theorem panel_mirrors_called : ∃ (start : Console Config.kFloors) (trace : List _) (s : Console _),
    Run ConsoleStep start trace s ∧ s.panel.doorOpenLamp = true ∧ s.panel.btnLamps 2 .cab = true ∧
    s.Mirrors ∧ ∀ t ∈ trace,
      (pressed t.action.signals.stop t.pre.node.drive.elev.stopButton = false →
        t.post.panel.floorIndicator = t.post.node.drive.elev.state.floor) ∧
      ∀ f b, t.post.panel.btnLamps (f : Fin Config.kFloors).val b =
        (ordersFound t).toBoolTable t.pre.node.peers.nodeId.val f b := by
  let before : Panel Config.kFloors := ⟨.stop, false, false, 0, fun _ _ => false⟩
  let initial : Signals Config.kFloors := { floorSensor := 2 }
  let call : NodeInput Config.kFloors :=
    { now := 40, signals := { floorSensor := 2, buttons := .only 2 .cab } }
  have evaluated : (Console.init 1 initial before).any (fun start =>
      ([call].foldlM Console.exec start).any fun s =>
        s.panel.doorOpenLamp && s.panel.btnLamps 2 .cab) = true := by
    decide +kernel
  obtain ⟨start, begun, turned⟩ := (Option.any_eq_true _ _).1 evaluated
  obtain ⟨trace, s, run, -, lit⟩ := Run.of_check ConsoleStep id turned
  obtain ⟨door, button⟩ := Bool.and_eq_true_iff.1 lit
  exact ⟨start, trace, s, run, door, button,
    panel_mirrors ⟨rfl, rfl, fun _ _ => rfl⟩ (by decide) rfl begun run⟩

end Console

end CppElevator
