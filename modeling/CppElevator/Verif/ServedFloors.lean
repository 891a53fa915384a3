import CppElevator.Verif.Orders
import CppElevator.Verif.ShaftPosition

/-!
# Where orders are served

The door opens, and orders are cleared, only by a halted car at the stored floor behind an open
door, with four exceptions. The stored floor is the one read at the beginning of the turn: an
emergency stop may read another one and open the door there, and an arrival may stop a car that has
left the floor. An emergency stop also leaves the mode behind: an idle elevator between two floors
opens its door for an order at the floor it has left, and an elevator in the door mode whose door a
table update has closed clears orders behind it.
-/
namespace CppElevator

open Library

variable {kFloors : Nat}

namespace Mode

/-- Unless it is on its way, the car stands at the stored floor. -/
structure Moored (m : Mode kFloors) (pos : Nat) : Prop where
  /-- A running elevator that does not move. -/
  running : m.stopped = false → m.movingState ≠ .moving → sensorAt pos = m.floor
  /-- An open door. -/
  door : m.doorOpen = true → sensorAt pos = m.floor
  /-- The door mode, whatever the door. -/
  doorMode : m.movingState = .doorOpen → sensorAt pos = m.floor
  /-- A car that has never moved. -/
  still : m.inertia = .none → sensorAt pos = m.floor

/-- Standing at the stored floor is a matter of the floor, the stop, the mode, the door and the
direction alone. -/
theorem Moored.frame {m m' : Mode kFloors} {pos : Nat} (moored : m.Moored pos)
    (same : (m'.floor, m'.stopped, m'.movingState, m'.doorOpen, m'.inertia) =
      (m.floor, m.stopped, m.movingState, m.doorOpen, m.inertia)) : m'.Moored pos := by
  cases m
  cases m'
  simp only [Prod.mk.injEq] at same
  obtain ⟨rfl, rfl, rfl, rfl, rfl⟩ := same
  exact ⟨moored.running, moored.door, moored.doorMode, moored.still⟩

/-- A car leaves a floor only while it is driven. -/
theorem Moored.moved {m : Mode kFloors} {pos pos' : Nat} (moored : m.Moored pos)
    (inv : m.InShaft pos) (moves : CarMoves kFloors m.motorDir pos pos') : m.Moored pos' := by
  have stays (halted : m.motorDir = .stop) : pos' = pos := by
    rw [halted] at moves
    exact moves
  refine ⟨fun running other => ?_, fun door => ?_, fun doorMode => ?_, fun still => ?_⟩
  · rw [stays (inv.interlock.notMoving_halts other)]
    exact moored.running running other
  · rw [stays (inv.interlock.doorOpen_halts door)]
    exact moored.door door
  · rw [stays (inv.interlock.notMoving_halts (by simp [doorMode]))]
    exact moored.doorMode doorMode
  · by_cases moved : pos' = pos
    · rw [moved]
      exact moored.still still
    · rcases moves.halted moved with ⟨driven, _⟩ | ⟨driven, _⟩
      · cases still.symm.trans (inv.turned.1 driven)
      · cases still.symm.trans (inv.turned.2 driven)

/-- Sampling stores the floor the car stands at. -/
theorem Moored.sample {m : Mode kFloors} {pos : Nat} (moored : m.Moored pos) (obstruction : Bool)
    (requests : BoolTable kFloors) : (m.sample (sensorAt pos) obstruction requests).Moored pos := by
  have stored (here : sensorAt pos = m.floor) :
      sensorAt pos = (m.sample (sensorAt pos) obstruction requests).floor := by
    simp only [Mode.sample]
    split_ifs
    · exact here
    · rfl
  exact ⟨fun running other => stored (moored.running running other),
    fun door => stored (moored.door door), fun doorMode => stored (moored.doorMode doorMode),
    fun still => stored (moored.still still)⟩

/-- At the stored floor every mode is moored. -/
theorem moored_of_here {m : Mode kFloors} {pos : Nat} (here : sensorAt pos = m.floor) :
    m.Moored pos :=
  ⟨fun _ _ => here, fun _ => here, fun _ => here, fun _ => here⟩

/-- Carrying out a decision at the stored floor. -/
theorem moored_execute {m : Mode kFloors} {pos : Nat} (here : sensorAt pos = m.floor)
    (pair : DirMovPair) : (m.execute pair).Moored pos :=
  moored_of_here (here.trans (m.execute_frame pair).1.symm)

/-- Carrying out a decision that moves the car, or rests where a running one rests. -/
theorem Moored.execute {m : Mode kFloors} {pos : Nat} (moored : m.Moored pos) {pair : DirMovPair}
    (rests : m.stopped = false → pair.movingState ≠ .moving → sensorAt pos = m.floor)
    (turns : pair.movingState = .moving → pair.motorDir = .up ∨ pair.motorDir = .down) :
    (m.execute pair).Moored pos := by
  unfold Mode.execute
  split_ifs with stopped
  · exact moored
  · have running : m.stopped = false := by simpa using stopped
    refine ⟨fun _ other => rests running other, moored.door, fun doorMode => ?_, fun still => ?_⟩
    · change pair.movingState = .doorOpen at doorMode
      exact rests running (by simp [doorMode])
    · by_cases moving : pair.movingState = .moving
      · rcases turns moving with dir | dir <;> simp [dir, Inertia.turned] at still
      · exact rests running moving

end Mode

/-- Every decision to move has a direction. -/
theorem Controller.chooseDirection_turns (c : Controller kFloors) (floor : Int)
    (moving : (c.chooseDirection floor).movingState = .moving) :
    (c.chooseDirection floor).motorDir = .up ∨ (c.chooseDirection floor).motorDir = .down := by
  rcases c.chooseDirection_cases floor with ⟨pair, _⟩ | ⟨pair, _⟩ | ⟨pair, _⟩ | ⟨pair, _⟩ <;>
    simp [pair] at moving ⊢

/-- An order of the node at a floor is confirmed, and its button among those served. -/
def Clears (p : Peers kFloors) (floor : Int) (b2c : ButtonFlags) : Prop :=
  ∃ f : Fin kFloors, (f.val : Int) = floor ∧ ∃ b, b2c b = true ∧
    (p.orders f b).status = .confirmed ∧ (b = .cab ∨ (p.orders f b).assignedId = p.nodeId.val)

/-- `ClearOrders` at the stored floor ends no order but the confirmed ones of the node there. -/
theorem clears_of_clearServed {p p' : Peers kFloors} {floor : Int} {b2c : ButtonFlags}
    (done : ElevatorNode.clearServed p floor b2c = some p') {f : Fin kFloors} {b : BtnType}
    (confirmed : (p.orders f b).status = .confirmed) (ended : (p'.orders f b).status ≠ .confirmed) :
    Clears p floor b2c := by
  unfold ElevatorNode.clearServed at done
  split_ifs at done with none inside
  · obtain rfl := Option.some.inj done
    exact absurd confirmed ended
  · obtain rfl := Option.some.inj done
    simp only [Peers.clearOrders] at ended
    by_cases served : f = ⟨floor.toNat, toNat_lt inside⟩ ∧ b2c b = true
    · obtain ⟨rfl, flag⟩ := served
      refine ⟨_, by simp [inside.1], b, flag, confirmed, ?_⟩
      by_cases cab : b = .cab
      · exact .inl cab
      · by_contra other
        obtain ⟨_, foreign⟩ := not_or.1 other
        simp only [flag, and_self, ↓reduceIte, if_neg cab, if_neg foreign] at ended
        exact ended confirmed
    · rw [if_neg served] at ended
      exact absurd confirmed ended

/-- `ClearOrders` ends a confirmed order of the node at the stored floor. -/
theorem clearServed_of_clears {p : Peers kFloors} {floor : Int} {b2c : ButtonFlags}
    (clears : Clears p floor b2c) : ∃ p', ElevatorNode.clearServed p floor b2c = some p' ∧
      ∃ f b, (p.orders f b).status = .confirmed ∧ (p'.orders f b).status ≠ .confirmed := by
  obtain ⟨f, rfl, b, flag, confirmed, own⟩ := clears
  have some : b2c ≠ ButtonFlags.zeros := by
    rintro rfl
    cases flag
  have inside : 0 ≤ (f.val : Int) ∧ (f.val : Int) < kFloors := by
    have := f.isLt
    omega
  have cleared : ElevatorNode.clearServed p f.val b2c = .some (p.clearOrders f b2c) := by
    unfold ElevatorNode.clearServed
    rw [if_neg some, dif_pos inside]
    rfl
  refine ⟨_, cleared, f, b, confirmed, ?_⟩
  simp only [Peers.clearOrders, flag, and_self, ↓reduceIte]
  split_ifs with cab assigned
  · unfold Order.onReset
    split_ifs
    · exact nofun
    · exact (p.orders f b).onClear_status_ne
  · exact (p.orders f b).onClear_status_ne
  · exact absurd own (not_or.2 ⟨cab, assigned⟩)

/-- The event that is due opens the door of a car that is not at the stored floor, or a table update
or a door timeout in the door mode clears an order behind a closed door. The door is opened by an
emergency stop at a floor, by the arrival of a moving car that is to stop, and by a table update
that finds an idle car with an order at the stored floor. -/
def ServesBlindly (q : ElevatorNode kFloors) (input : NodeInput kFloors) : Prop :=
  let (d, next) := ElevatorNode.nextEvent q.drive input.now
  let floor := d.elev.state.floor
  input.stopSensor ≠ floor ∧
      (next = some .emergencyStop ∧ d.elev.state.doorOpen = false ∧
          input.stopSensor ≠ Config.kBetweenFloors ∨
        next = some .floorArrival ∧ d.elev.state.movingState = .moving ∧
          d.controller.shouldStop floor = true ∨
        next = some .tableUpdate ∧ d.elev.state.movingState = .idle ∧
          (d.controller.chooseDirection floor).movingState = .doorOpen) ∨
    d.elev.state.movingState = .doorOpen ∧ d.elev.state.doorOpen = false ∧
      (next = some .tableUpdate ∧ d.controller.shouldStop floor = true ∨
        next = some .doorTimeout ∧ d.elev.state.obstruction = false ∧
          (d.controller.chooseDirection floor).movingState = .doorOpen) ∧
      Clears q.peers floor (d.controller.clearCurrentFloor floor)

/-- The event that is due opens the door or ends an order of the node only while the car stands
halted at the stored floor, and leaves the door open there. -/
def ServesAtFloor (q : ElevatorNode kFloors) (input : NodeInput kFloors) : Prop :=
  let (d, next) := ElevatorNode.nextEvent q.drive input.now
  ∀ event, next = some event →
    let (after, b2c) := d.fsm input.now input.stopSensor event
    (Command.doorOpenLamp true ∈ after.elev.commands ∨
      ∃ p, ElevatorNode.clearServed q.peers after.elev.state.floor b2c = some p ∧
        ∃ f b, (q.peers.orders f b).status = .confirmed ∧ (p.orders f b).status ≠ .confirmed) →
    input.stopSensor = after.elev.state.floor ∧
      after.elev.state.motorDir = .stop ∧ after.elev.state.doorOpen = true

/-- An event that acts blindly does not serve orders at their floor, in any state. -/
theorem ServesBlindly.not_servesAtFloor {q : ElevatorNode kFloors} {input : NodeInput kFloors}
    (blind : ServesBlindly q input) : ¬ServesAtFloor q input := by
  unfold ServesBlindly at blind
  unfold ServesAtFloor
  generalize ElevatorNode.nextEvent q.drive input.now = picked at blind ⊢
  obtain ⟨d, next⟩ := picked
  dsimp only at blind ⊢
  intro serves
  have opens {event : FsmEvent} (due : next = some event)
      (opened : (d.fsm input.now input.stopSensor event).1.mode.opened = true) :
      input.stopSensor = d.mode.floor := by
    have floor := ((d.handles_fsm input.now input.stopSensor event).floor).1
    exact ((serves event due (.inl (of_decide_eq_true opened))).1).trans floor
  have clears {event : FsmEvent} (due : next = some event)
      (flags : (d.fsm input.now input.stopSensor event).2 =
        d.controller.clearCurrentFloor d.mode.floor)
      (cleared : Clears q.peers d.mode.floor (d.controller.clearCurrentFloor d.mode.floor)) :
      (d.fsm input.now input.stopSensor event).1.mode.doorOpen = true := by
    have floor := ((d.handles_fsm input.now input.stopSensor event).floor).1
    rw [← flags, ← floor] at cleared
    exact (serves event due (.inr (clearServed_of_clears cleared))).2.2
  rcases blind with ⟨away, ⟨due, shut, reading⟩ | ⟨due, moving, stops⟩ | ⟨due, idle, here⟩⟩ |
    ⟨doorMode, shut, ⟨due, stops⟩ | ⟨due, off, here⟩, cleared⟩
  · refine away (opens due ?_)
    change (d.fsmEmergencyStop input.now input.stopSensor).1.mode.opened = true
    have shut' : d.mode.doorOpen = false := shut
    simp [d.mode_fsmEmergencyStop, reading, shut']
  · refine away (opens due ?_)
    change (d.fsmFloorArrival input.now).1.mode.opened = true
    rcases d.fsmFloorArrival_cases input.now with ⟨-, -, mode, -⟩ | ⟨passes, -, -⟩
    · rw [mode]
      rfl
    · rcases passes with other | goesOn
      · exact absurd moving other
      · exact absurd (stops.symm.trans goesOn) (by decide)
  · refine away (opens due ?_)
    change (d.fsmTableUpdate input.now).1.mode.opened = true
    have idle' : d.mode.movingState = .idle := idle
    rcases d.fsmTableUpdate_cases input.now with
      ⟨doorMode, _⟩ | ⟨other, _⟩ | ⟨-, -, mode⟩ | ⟨-, other, _⟩
    · cases idle'.symm.trans doorMode
    · exact absurd idle' other
    · rw [mode, (Mode.execute_frame _ _).2.2.2]
      rfl
    · exact absurd here other
  · have held : d.fsmTableUpdate input.now = (d.startDoorTimer input.now,
        d.controller.clearCurrentFloor d.elev.state.floor) := by
      simp [Drive.fsmTableUpdate, doorMode, stops]
    have left := clears due (congrArg Prod.snd held) cleared
    change (d.fsmTableUpdate input.now).1.mode.doorOpen = true at left
    rw [held] at left
    exact Bool.false_ne_true (shut.symm.trans left)
  · have off' : d.mode.obstruction = false := off
    rcases d.fsmDoorTimeout_cases input.now with
      ⟨blocked, _⟩ | ⟨-, other, _⟩ | ⟨-, -, -, mode, flags⟩ | ⟨-, -, other, _⟩
    · exact Bool.false_ne_true (off'.symm.trans blocked)
    · exact other doorMode
    · have left := clears due flags cleared
      change (d.fsmDoorTimeout input.now).1.mode.doorOpen = true at left
      rw [mode, (Mode.execute_frame _ _).2.2.1] at left
      exact Bool.false_ne_true (shut.symm.trans left)
    · exact other here

/-- What an event that opened the door, or returned the buttons it serves, has to leave behind. -/
def Serves (p : Peers kFloors) (floorSensor : Int) (result : Drive kFloors × ButtonFlags) : Prop :=
  result.1.mode.opened = true ∨ Clears p result.1.mode.floor result.2 →
    floorSensor = result.1.mode.floor ∧ result.1.mode.motorDir = .stop ∧
      result.1.mode.doorOpen = true

/-- An event that opens nothing and returns no button serves nothing. -/
theorem serves_nothing {p : Peers kFloors} {floorSensor : Int} {result : Drive kFloors × ButtonFlags}
    (opened : result.1.mode.opened = false) (none : result.2 = kNoClear) :
    Serves p floorSensor result := by
  rintro (open_ | ⟨_, _, _, flag, _⟩)
  · exact absurd open_ (by simp [opened])
  · simp [none, kNoClear, ButtonFlags.zeros] at flag

namespace Drive

variable {pos : Nat}

/-- An emergency stop opens the door only at a floor it reads. -/
theorem moored_fsmEmergencyStop {d : Drive kFloors} (moored : d.mode.Moored pos)
    (closed : d.mode.opened = false) (p : Peers kFloors) (now : Nat)
    (sees : d.mode.doorOpen = false → sensorAt pos ≠ Config.kBetweenFloors →
      sensorAt pos = d.mode.floor) :
    (d.fsmEmergencyStop now (sensorAt pos)).1.mode.Moored pos ∧
      Serves p (sensorAt pos) (d.fsmEmergencyStop now (sensorAt pos)) := by
  have mode := d.mode_fsmEmergencyStop now (sensorAt pos)
  dsimp only at mode
  by_cases between : sensorAt pos = Config.kBetweenFloors
  · rw [if_pos between] at mode
    refine ⟨?_, serves_nothing (by rw [mode]; exact closed) rfl⟩
    rw [mode]
    exact ⟨nofun, moored.door, nofun, moored.still⟩
  · rw [if_neg between] at mode
    have here : sensorAt pos = d.mode.floor := by
      cases door : d.mode.doorOpen with
      | false => exact sees door between
      | true => exact moored.door door
    refine ⟨by rw [mode]; exact Mode.moored_of_here here, fun _ => ?_⟩
    rw [mode]
    exact ⟨here, rfl, rfl⟩

/-- A reset serves the floor its open door is at. -/
theorem moored_fsmEmergencyStopReset {d : Drive kFloors} (inv : d.mode.InShaft pos)
    (moored : d.mode.Moored pos) (closed : d.mode.opened = false) (p : Peers kFloors) (now : Nat) :
    (d.fsmEmergencyStopReset now).1.mode.Moored pos ∧
      Serves p (sensorAt pos) (d.fsmEmergencyStopReset now) := by
  rcases d.fsmEmergencyStopReset_cases now with ⟨door, mode, _⟩ | ⟨_, mode, none⟩
  · have here := moored.door door
    refine ⟨by rw [mode]; exact Mode.moored_of_here here, fun _ => ?_⟩
    rw [mode]
    exact ⟨here, inv.interlock.doorOpen_halts door, door⟩
  · obtain ⟨_, _, _, opened⟩ :=
      { d.mode with stopped := false }.execute_frame (resumption d.mode.inertia)
    refine ⟨?_, serves_nothing (by rw [mode, opened]; exact closed) none⟩
    rw [mode]
    unfold Mode.execute
    cases dir : d.mode.inertia with
    | up => exact ⟨fun _ => absurd rfl, moored.door, nofun, nofun⟩
    | down => exact ⟨fun _ => absurd rfl, moored.door, nofun, nofun⟩
    | none => exact Mode.moored_of_here (moored.still dir)

/-- An arrival opens the door of a car that has not left the floor. -/
theorem moored_fsmFloorArrival {d : Drive kFloors} (moored : d.mode.Moored pos)
    (closed : d.mode.opened = false) (p : Peers kFloors) (now : Nat)
    (sees : d.mode.movingState = .moving → d.controller.shouldStop d.mode.floor = true →
      sensorAt pos = d.mode.floor) :
    (d.fsmFloorArrival now).1.mode.Moored pos ∧
      Serves p (sensorAt pos) (d.fsmFloorArrival now) := by
  rcases d.fsmFloorArrival_cases now with ⟨moving, stops, mode, _⟩ | ⟨_, mode, none⟩
  · have here := sees moving stops
    refine ⟨by rw [mode]; exact Mode.moored_of_here here, fun _ => ?_⟩
    rw [mode]
    exact ⟨here, rfl, rfl⟩
  · refine ⟨?_, serves_nothing (by rw [mode]; exact closed) none⟩
    rw [mode]
    exact moored.frame rfl

/-- A table update serves the floor the car stands at, unless it acts blindly. -/
theorem moored_fsmTableUpdate {d : Drive kFloors} (inv : d.mode.InShaft pos)
    (moored : d.mode.Moored pos) (closed : d.mode.opened = false) (p : Peers kFloors) (now : Nat)
    (sees : d.mode.movingState = .idle →
      (d.controller.chooseDirection d.mode.floor).movingState = .doorOpen →
      sensorAt pos = d.mode.floor)
    (holds : d.mode.movingState = .doorOpen → d.controller.shouldStop d.mode.floor = true →
      Clears p d.mode.floor (d.controller.clearCurrentFloor d.mode.floor) → d.mode.doorOpen = true) :
    (d.fsmTableUpdate now).1.mode.Moored pos ∧
      Serves p (sensorAt pos) (d.fsmTableUpdate now) := by
  rcases d.fsmTableUpdate_cases now with
    ⟨doorMode, stops, mode, flags⟩ | ⟨_, mode, none⟩ | ⟨idle, opens, mode⟩ | ⟨idle, other, mode, none⟩
  · have here := moored.doorMode doorMode
    refine ⟨by rw [mode]; exact Mode.moored_of_here here, ?_⟩
    unfold Serves
    rw [mode, flags]
    rintro (open_ | clears)
    · exact absurd (closed.symm.trans open_) Bool.false_ne_true
    · exact ⟨here, inv.interlock.notMoving_halts (by simp [doorMode]),
        holds doorMode stops clears⟩
  · refine ⟨by rw [mode]; exact moored, serves_nothing (by rw [mode]; exact closed) none⟩
  · have here := sees idle (by rw [opens])
    refine ⟨by rw [mode]; apply Mode.moored_execute; exact here, fun _ => ?_⟩
    obtain ⟨floor, _, door, _⟩ := d.mode.holdDoor.execute_frame ⟨.stop, .doorOpen⟩
    rw [mode, floor, door]
    refine ⟨here, ?_, rfl⟩
    have halted : d.mode.motorDir = .stop := inv.interlock.notMoving_halts (by simp [idle])
    unfold Mode.execute
    split_ifs
    · exact halted
    · rfl
  · obtain ⟨_, _, _, opened⟩ := { d.mode with doorOpen := false }.execute_frame
      (d.controller.chooseDirection d.mode.floor)
    refine ⟨?_, serves_nothing ?_ none⟩
    · rw [mode]
      split_ifs
      · exact moored
      · have shut : { d.mode with doorOpen := false }.Moored pos :=
          ⟨moored.running, by simp, moored.doorMode, moored.still⟩
        exact shut.execute (fun running _ => moored.running running (by simp [idle]))
          (d.controller.chooseDirection_turns _)
    · rw [mode]
      split_ifs
      · exact closed
      · rw [opened]
        exact closed

/-- A door timeout serves the floor its open door is at, unless it acts blindly. -/
theorem moored_fsmDoorTimeout {d : Drive kFloors} (inv : d.mode.InShaft pos)
    (moored : d.mode.Moored pos) (closed : d.mode.opened = false) (p : Peers kFloors) (now : Nat)
    (holds : d.mode.obstruction = false → d.mode.movingState = .doorOpen →
      (d.controller.chooseDirection d.mode.floor).movingState = .doorOpen →
      Clears p d.mode.floor (d.controller.clearCurrentFloor d.mode.floor) → d.mode.doorOpen = true) :
    (d.fsmDoorTimeout now).1.mode.Moored pos ∧
      Serves p (sensorAt pos) (d.fsmDoorTimeout now) := by
  rcases d.fsmDoorTimeout_cases now with
    ⟨_, mode, none⟩ | ⟨_, _, mode, none⟩ | ⟨off, doorMode, opens, mode, flags⟩ |
    ⟨_, doorMode, _, mode, none⟩
  · refine ⟨?_, serves_nothing (by rw [mode]; exact closed) none⟩
    rw [mode]
    exact moored.frame rfl
  · refine ⟨?_, serves_nothing (by rw [mode]; exact closed) none⟩
    rw [mode]
    exact moored.frame rfl
  · have here := moored.doorMode doorMode
    refine ⟨by rw [mode]; apply Mode.moored_execute; exact here, ?_⟩
    obtain ⟨floor, _, door, opened⟩ :=
      { d.mode with doorTimer := true }.execute_frame ⟨.stop, .doorOpen⟩
    have halted : d.mode.motorDir = .stop := inv.interlock.notMoving_halts (by simp [doorMode])
    unfold Serves
    rw [mode, flags, floor, door, opened]
    rintro (open_ | clears)
    · exact absurd (closed.symm.trans open_) Bool.false_ne_true
    · refine ⟨here, ?_, holds off doorMode (by rw [opens]) clears⟩
      unfold Mode.execute
      split_ifs
      · exact halted
      · rfl
  · have here := moored.doorMode doorMode
    obtain ⟨_, _, _, opened⟩ := { d.mode with doorTimer := false, doorOpen := false }.execute_frame
      (d.controller.chooseDirection d.mode.floor)
    refine ⟨by rw [mode]; apply Mode.moored_execute; exact here,
      serves_nothing (by rw [mode, opened]; exact closed) none⟩

end Drive

/-- Before the events of a turn: the car, the mode and the commands of the turn. -/
structure Mode.Prepared (m : Mode kFloors) (pos : Nat) : Prop where
  /-- Agreement with the position. -/
  inShaft : m.InShaft pos
  /-- Floors. -/
  moored : m.Moored pos
  /-- Nothing has been sent. -/
  closed : m.opened = false

/-- The event that is due serves orders at their floor, unless it acts blindly, and leaves the car
at the stored floor unless it is on its way. -/
theorem serves_of_due {q : ElevatorNode kFloors} {input : NodeInput kFloors} {pos : Nat}
    (truthful : input.stopSensor = sensorAt pos) (prepared : q.drive.mode.Prepared pos)
    (sighted : ¬ ServesBlindly q input) {d : Drive kFloors} {next : Option FsmEvent}
    (picked : ElevatorNode.nextEvent q.drive input.now = (d, next))
    (due : ElevatorNode.EventDue q.drive d next) :
    (ElevatorNode.fsmDue d input.now (sensorAt pos) next).mode.Moored pos ∧
      ∀ event, next = some event →
        Serves q.peers (sensorAt pos) (d.fsm input.now (sensorAt pos) event) := by
  unfold ServesBlindly at sighted
  rw [picked, truthful] at sighted
  dsimp only at sighted
  have inv := ElevatorNode.inShaft_of_due due prepared.inShaft
  have moored := prepared.moored
  have tested {m : Mode kFloors} (mode : m = q.drive.mode.seen ∨ m = q.drive.mode.noted) :
      m.Moored pos ∧ m.opened = false := by
    rcases mode with rfl | rfl <;>
      exact ⟨moored.frame rfl, prepared.closed⟩
  cases due with
  | emergencyStop button running =>
    have kept := Drive.moored_fsmEmergencyStop moored prepared.closed q.peers input.now
      (fun shut reading => by
        by_contra away
        exact sighted (.inl ⟨away, .inl ⟨rfl, shut, reading⟩⟩))
    exact ⟨kept.1, fun event same => by cases same; exact kept.2⟩
  | emergencyStopReset button stopped =>
    have kept := Drive.moored_fsmEmergencyStopReset inv moored prepared.closed q.peers input.now
    exact ⟨kept.1, fun event same => by cases same; exact kept.2⟩
  | floorArrival mode new =>
    obtain ⟨moored, closed⟩ := tested (.inl mode)
    have kept := Drive.moored_fsmFloorArrival moored closed q.peers input.now
      (fun moving stops => by
        by_contra away
        exact sighted (.inl ⟨away, .inr (.inl ⟨rfl, moving, stops⟩)⟩))
    exact ⟨kept.1, fun event same => by cases same; exact kept.2⟩
  | tableUpdate mode same changed =>
    obtain ⟨moored, closed⟩ := tested (.inr mode)
    have kept := Drive.moored_fsmTableUpdate inv moored closed q.peers input.now
      (fun idle opens => by
        by_contra away
        exact sighted (.inl ⟨away, .inr (.inr ⟨rfl, idle, opens⟩)⟩))
      (fun doorMode stops clears => by
        by_contra shut
        exact sighted (.inr ⟨doorMode, Bool.eq_false_iff.2 shut, .inl ⟨rfl, stops⟩, clears⟩))
    exact ⟨kept.1, fun event same => by cases same; exact kept.2⟩
  | doorTimeout mode same unchanged timer =>
    obtain ⟨moored, closed⟩ := tested (.inr mode)
    have kept := Drive.moored_fsmDoorTimeout inv moored closed q.peers input.now
      (fun off doorMode opens clears => by
        by_contra shut
        exact sighted (.inr ⟨doorMode, Bool.eq_false_iff.2 shut, .inr ⟨rfl, off, opens⟩, clears⟩))
    exact ⟨kept.1, fun event same => by cases same; exact kept.2⟩
  | floorTimeout mode same unchanged =>
    obtain ⟨moored, closed⟩ := tested (.inr mode)
    have outcome := d.mode_fsmFloorTimeout
    refine ⟨?_, fun event same => ?_⟩
    · change d.fsmFloorTimeout.1.mode.Moored pos
      rw [outcome]
      exact moored.frame rfl
    · cases same
      exact serves_nothing (by change d.fsmFloorTimeout.1.mode.opened = false; rw [outcome]; exact closed)
        rfl
  | none mode same unchanged =>
    exact ⟨(tested (.inr mode)).1, nofun⟩

/-- Serving in terms of the mode covers the commands sent and the orders ended. -/
theorem servesAtFloor_of_serves {q : ElevatorNode kFloors} {input : NodeInput kFloors}
    (serves : ∀ event, (ElevatorNode.nextEvent q.drive input.now).2 = some event →
      Serves q.peers input.stopSensor
        ((ElevatorNode.nextEvent q.drive input.now).1.fsm input.now input.stopSensor event)) :
    ServesAtFloor q input := by
  unfold ServesAtFloor
  dsimp only
  intro event due acts
  refine serves event due (acts.imp (fun open_ => decide_eq_true open_) ?_)
  rintro ⟨p, done, f, b, confirmed, ended⟩
  exact clears_of_clearServed done confirmed ended

/-- The invariant of a car that serves orders at their floor. -/
structure Shaft.Serving (s : Shaft kFloors) : Prop where
  /-- The car is in the shaft. -/
  located : s.Located
  /-- Floors. -/
  moored : s.node.drive.mode.Moored s.pos

/-- The mode in which a turn looks for an event. -/
theorem Shaft.Serving.due {s : Shaft kFloors} {input : ShaftInput kFloors} (serving : s.Serving)
    (moves : CarMoves kFloors s.node.drive.mode.motorDir s.pos input.pos ∧
      CarMoves kFloors s.node.drive.mode.motorDir input.pos input.later)
    {q : ElevatorNode kFloors} (due : s.node.due input.turn = some q) :
    q.drive.mode.Prepared input.later := by
  have inv := serving.located.due moves due
  obtain ⟨requests, mode, _⟩ := ElevatorNode.mode_of_due due
  refine ⟨inv, ?_, by rw [mode]; rfl⟩
  rw [mode]
  have located := serving.located.moved moves.1
  have before := serving.moored.moved serving.located moves.1
  exact (before.sample _ _).moved (located.sample _ _) moves.2

/-- A turn that does not serve blindly serves orders at their floor. -/
theorem Shaft.Serving.step {s s' : Shaft kFloors} {input : ShaftInput kFloors}
    (serving : s.Serving) (step : ShaftStep s input s')
    (sighted : ∀ q, s.node.due input.turn = some q → ¬ ServesBlindly q input.turn) :
    s'.Serving ∧ ∀ q, s.node.due input.turn = some q → ServesAtFloor q input.turn := by
  obtain ⟨moves, pos, turned⟩ := shaftStep_cases step
  refine ⟨⟨serving.located.step step, ?_⟩, fun q due => ?_⟩
  · rw [pos]
    refine ElevatorNode.turn_invariant turned (fun m => m.Moored input.later)
      (fun m requests moored => moored.frame rfl) ?_
    intro q d next due picked event
    exact (serves_of_due rfl (serving.due moves due) (sighted q due) picked event).1
  · refine servesAtFloor_of_serves ?_
    exact (serves_of_due rfl (serving.due moves due) (sighted q due) rfl
      (ElevatorNode.eventDue_nextEvent _ _)).2

/-- Orders are served only at their floor, exactly as far as no event acts blindly. In every run, each
event that opens the door or ends an order of the node at the stored floor finds the sensor reading
that floor and the motor halted, and leaves the door open, if and only if no event of the run acts
blindly. -/
theorem orders_served_at_floor {nodeId : Fin kElevs} {floor : Fin kFloors} {obstruction stop : Bool}
    {trace : List (Transition (Shaft kFloors) (ShaftInput kFloors))} {s : Shaft kFloors}
    (run : Run ShaftStep (Shaft.init nodeId floor obstruction stop) trace s) :
    (∀ t ∈ trace, ∀ q, t.pre.node.due t.action.turn = some q → ServesAtFloor q t.action.turn) ↔
      ∀ t ∈ trace, ∀ q, t.pre.node.due t.action.turn = some q →
        ¬ ServesBlindly q t.action.turn := by
  have start : (Shaft.init nodeId floor obstruction stop).Serving :=
    ⟨Shaft.located_init nodeId floor obstruction stop, Mode.moored_of_here <| by
      rw [Shaft.floor_init]
      simp [Shaft.init, sensorAt]⟩
  constructor
  · exact fun serves t member q due blind => blind.not_servesAtFloor (serves t member q due)
  · intro sighted
    refine run.forall_transitions (fun t => ∀ q, t.pre.node.due t.action.turn = some q →
      ¬ ServesBlindly q t.action.turn) _ Shaft.Serving ?_ sighted start
    intro s s' input step admitted serving
    exact serving.step step admitted

/-- A cab call at the floor of an idle car is served there. -/
theorem cab_call_served_here :
    ∃ (s : Shaft Config.kFloors) (q : ElevatorNode Config.kFloors),
      ShaftStep (Shaft.init 0 0 false false) { pos := 0, buttons := .only 0 .cab } s ∧
      (Shaft.init 0 0 false false).node.due
        (ShaftInput.turn { pos := 0, buttons := .only 0 .cab }) = some q ∧
      (ElevatorNode.nextEvent q.drive 0).2 = some .tableUpdate ∧
      ServesAtFloor q (ShaftInput.turn { pos := 0, buttons := .only 0 .cab }) := by
  let input : ShaftInput Config.kFloors := { pos := 0, buttons := .only 0 .cab }
  have passed : (((Shaft.init 0 0 false false).exec input).isSome &&
      ((Shaft.init 0 0 false false).node.due input.turn).any fun q =>
        decide ((ElevatorNode.nextEvent q.drive 0).2 = some .tableUpdate) &&
        decide ((ElevatorNode.nextEvent q.drive 0).1.elev.state.movingState = .idle) &&
        decide (sensorAt 0 = (ElevatorNode.nextEvent q.drive 0).1.elev.state.floor)) = true := by
    decide +kernel
  simp only [Bool.and_eq_true] at passed
  obtain ⟨done, passed⟩ := passed
  obtain ⟨s, step⟩ := Option.isSome_iff_exists.1 done
  obtain ⟨q, due, passed⟩ := (Option.any_eq_true _ _).1 passed
  simp only [Bool.and_eq_true, decide_eq_true_eq] at passed
  obtain ⟨⟨event, idle⟩, here⟩ := passed
  have run : Run ShaftStep (Shaft.init 0 0 false false) [⟨_, input, s⟩] s := .single step
  refine ⟨s, q, step, due, event, ?_⟩
  refine (orders_served_at_floor run).2 ?_ _ (List.mem_singleton.2 rfl) q due
  intro t member q' due'
  obtain rfl := List.mem_singleton.1 member
  obtain rfl := Option.some.inj (due.symm.trans due')
  rintro (⟨away, _⟩ | ⟨doorMode, _⟩)
  · exact away here
  · cases idle.symm.trans doorMode

/-- The car is stopped at its floor, serves a call there, and its door closes while it is still
stopped. -/
def doorLeftShut : List (ShaftInput Config.kFloors) :=
  [{ pos := 0, stop := true }, { pos := 0, buttons := .only 0 .cab }, { pos := 0 },
    { pos := 0, now := 5000 }]

/-- The next call is cleared behind the closed door. -/
theorem order_cleared_behind_closed_door :
    ∃ (trace : List (Transition (Shaft Config.kFloors) (ShaftInput Config.kFloors)))
      (s : Shaft Config.kFloors), Run ShaftStep (Shaft.init 0 0 false false) trace s ∧
      ∃ t ∈ trace, ∃ q, t.pre.node.due t.action.turn = some q ∧ ¬ ServesAtFloor q t.action.turn := by
  have passed : (doorLeftShut.foldlM Shaft.exec (Shaft.init 0 0 false false)).any (fun s =>
      let input : ShaftInput Config.kFloors := { pos := 0, now := 5000, buttons := .only 0 .cab }
      (s.exec input).isSome && (s.node.due input.turn).any fun q =>
        let due := ElevatorNode.nextEvent q.drive 5000
        let served := due.1.fsm 5000 0 .tableUpdate
        decide (due.2 = some .tableUpdate) && decide ((q.peers.orders 0 .cab).status = .confirmed) &&
          decide (served.1.elev.state.doorOpen = false) &&
          (ElevatorNode.clearServed q.peers served.1.elev.state.floor served.2).any fun p =>
            decide ((p.orders 0 .cab).status ≠ .confirmed)) = true := by
    decide +kernel
  obtain ⟨trace, s, run, -, passed⟩ := Run.of_check ShaftStep id passed
  simp only [Bool.and_eq_true] at passed
  obtain ⟨done, passed⟩ := passed
  obtain ⟨s', step⟩ := Option.isSome_iff_exists.1 done
  obtain ⟨q, due, passed⟩ := (Option.any_eq_true _ _).1 passed
  simp only [Bool.and_eq_true, decide_eq_true_eq] at passed
  obtain ⟨⟨⟨event, confirmed⟩, shut⟩, passed⟩ := passed
  obtain ⟨p, cleared, ended⟩ := (Option.any_eq_true _ _).1 passed
  refine ⟨_, s', run.snoc step, _, List.mem_append_right _ (List.mem_singleton.2 rfl), q, due, ?_⟩
  intro serves
  have left := serves .tableUpdate event
    (.inr ⟨p, cleared, 0, .cab, confirmed, of_decide_eq_true ended⟩)
  exact Bool.false_ne_true (shut.symm.trans left.2.2)

end CppElevator
