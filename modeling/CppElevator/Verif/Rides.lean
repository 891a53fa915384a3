import CppElevator.Ride
import CppElevator.Verif.Sweeps

/-!
# The modes of a ride

What the node of an undisturbed car does while orders are confirmed to it and taken from it at any time. Its
mode follows a scanning car whose calls change from outside: every event is a step of that car, and the
two timers run exactly while the door is open and while the car moves.
-/
namespace CppElevator

open Library

variable {kFloors : Nat}

namespace Mode

variable {m : Mode kFloors} {a : Scan kFloors BtnType}

/-- What the mode says in each phase of a car whose calls may change at any time. -/
def Going (m : Mode kFloors) (floor : Fin kFloors) : Phase → Prop
  | .waiting => m.movingState = .idle ∧ m.doorOpen = false ∧ m.prevRequests = BoolTable.zeros ∧
      m.requests ≠ BoolTable.zeros
  | .held noted => m.movingState = .doorOpen ∧ m.doorOpen = true ∧
      noted = decide (m.requests = m.prevRequests)
  | .moving => m.movingState = .moving ∧ m.doorOpen = false ∧ ∃ h, m.inertia.heading = some h ∧
      m.motorDir = h.motorDir ∧ ∃ next, h.Next floor next
  | .resting => m.movingState = .idle ∧ m.doorOpen = false ∧ m.prevRequests = BoolTable.zeros ∧
      m.requests = BoolTable.zeros

/-- The motor drives a moving car only, and the timers run while they are needed. -/
structure Timed (m : Mode kFloors) : Prop where
  /-- A car that does not move is not driven. -/
  halted : m.movingState ≠ .moving → m.motorDir = .stop
  /-- The door timer runs while the door is open. -/
  doorTimer : m.doorTimer = m.doorOpen
  /-- The floor timer runs while the car moves. -/
  floorTimer : m.floorTimer = decide (m.movingState = .moving)

/-- An undisturbed car does what a scanning car does whose calls may change at any time. -/
structure Rides (m : Mode kFloors) (a : Scan kFloors BtnType) : Prop extends m.At a where
  /-- The phases agree. -/
  going : m.Going a.floor a.phase
  /-- The timers run while they are needed. -/
  timed : m.Timed

/-- Carrying out a decision starts the timers that are needed. -/
theorem Timed.execute (running : m.stopped = false) (door : m.doorTimer = m.doorOpen)
    (pair : DirMovPair) (halts : pair.movingState ≠ .moving → pair.motorDir = .stop) :
    (m.execute pair).Timed := by
  rw [execute_of_running running]
  exact ⟨halts, door, rfl⟩

/-- A decision that does not move the car halts the motor. -/
theorem halts_of_decides {heading : Option Heading} {calls : Finset (Fin kFloors × BtnType)}
    {floor : Fin kFloors} {pair : DirMovPair} (decision : Decides heading calls floor pair)
    (stays : pair.movingState ≠ .moving) : pair.motorDir = .stop := by
  cases decision with
  | opens | rests => rfl
  | starts | departs | turns => exact absurd rfl stays

/-- No step of a scanning car leaves it with calls it has not looked at. -/
theorem phase_of_step {a' : Scan kFloors BtnType} {arrival : Bool}
    (step : ScanStep hallAgainst a arrival a') : a'.phase ≠ .waiting := by
  intro waiting
  cases step with
  | passes moving => cases moving.symm.trans waiting
  | _ => cases waiting

/-- What an event leaves of a scanning car. -/
theorem Scans.rides {a' : Scan kFloors BtnType} {arrival : Bool} (scans : m.Scans a')
    (step : ScanStep hallAgainst a arrival a') (timed : m.Timed) : m.Rides a' := by
  refine { scans.toAt with going := ?_, timed := timed }
  have doing := scans.doing
  cases phase : a'.phase with
  | waiting => exact absurd phase (phase_of_step step)
  | held noted =>
    rw [phase] at doing
    exact doing
  | moving =>
    rw [phase] at doing
    obtain ⟨moving, closed, h, heading, driven, call, -, ahead⟩ := doing
    exact ⟨moving, closed, h, heading, driven, Heading.exists_next ahead⟩
  | resting =>
    rw [phase] at doing
    obtain ⟨idle, closed, -, empty, seen⟩ := doing
    exact ⟨idle, closed, seen.symm.trans empty, empty⟩

/-- A car at rest has no calls. -/
theorem Rides.calls_of_resting (rides : m.Rides a) (resting : a.phase = .resting) : a.calls = ∅ := by
  have going := rides.going
  rw [resting] at going
  rw [← rides.calls, going.2.2.2]
  ext
  simp [BoolTable.zeros]

/-- Looking at the calls of a car that moves, or has looked at them before, changes nothing. -/
theorem Rides.noted (rides : m.Rides a) (seen : m.requests = m.prevRequests ∨ a.phase = .moving) :
    m.noted.Rides a := by
  have floor := rides.arrived
  rcases seen with seen | moving
  · have same : m.noted = m := congrArg₂
      (fun prevFloor prevRequests => { m with prevFloor := prevFloor, prevRequests := prevRequests })
      floor.symm seen
    rwa [same]
  · have going := rides.going
    refine { rides.toAt.noted with going := ?_, timed := { rides.timed with } }
    rw [moving] at going ⊢
    exact going

/-- Orders are confirmed to the node, or taken from it. -/
theorem Rides.recalled (rides : m.Rides a) (requests : BoolTable kFloors) : ∃ a', a.Recalled a' ∧
    a'.calls = requests.calls ∧ ({ m with requests := requests } : Mode kFloors).Rides a' := by
  have unchanged (same : requests.calls = a.calls) : requests = m.requests :=
    BoolTable.eq_of_calls_eq (same.trans rides.calls.symm)
  have at_ : ({ m with requests := requests } : Mode kFloors).At { a with calls := requests.calls } :=
    { rides.toAt with calls := rfl }
  have timed : ({ m with requests := requests } : Mode kFloors).Timed := { rides.timed with }
  have going := rides.going
  cases phase : a.phase with
  | moving =>
    rw [phase] at going
    refine ⟨{ a with calls := requests.calls }, ⟨rfl, rfl, ?_, fun _ => rfl⟩, rfl,
      { at_ with going := ?_, timed := timed }⟩
    · rw [phase]
      exact .moving
    · dsimp only
      rw [phase]
      exact going
  | held noted =>
    rw [phase] at going
    refine ⟨{ a with calls := requests.calls, phase := .held (decide (requests = m.prevRequests)) },
      ⟨rfl, rfl, ?_, fun same => ?_⟩, rfl,
      { at_ with going := ⟨going.1, going.2.1, rfl⟩, timed := timed }⟩
    · rw [phase]
      exact .held _ _
    · rw [phase, going.2.2, unchanged same]
  | waiting =>
    rw [phase] at going
    obtain ⟨idle, closed, seen, called⟩ := going
    by_cases empty : requests = BoolTable.zeros
    · refine ⟨{ a with calls := requests.calls, phase := .resting }, ⟨rfl, rfl, ?_, fun same => ?_⟩,
        rfl, { at_ with going := ⟨idle, closed, seen, empty⟩, timed := timed }⟩
      · rw [phase]
        exact .emptied
      · exact absurd ((unchanged same).symm.trans empty) called
    · refine ⟨{ a with calls := requests.calls }, ⟨rfl, rfl, ?_, fun _ => rfl⟩, rfl,
        { at_ with going := ?_, timed := timed }⟩
      · rw [phase]
        exact .kept
      · dsimp only
        rw [phase]
        exact ⟨idle, closed, seen, empty⟩
  | resting =>
    rw [phase] at going
    obtain ⟨idle, closed, seen, none⟩ := going
    by_cases empty : requests = BoolTable.zeros
    · refine ⟨{ a with calls := requests.calls }, ⟨rfl, rfl, ?_, fun _ => rfl⟩, rfl,
        { at_ with going := ?_, timed := timed }⟩
      · rw [phase]
        exact .still
      · dsimp only
        rw [phase]
        exact ⟨idle, closed, seen, empty⟩
    · refine ⟨{ a with calls := requests.calls, phase := .waiting }, ⟨rfl, rfl, ?_, fun same => ?_⟩,
        rfl, { at_ with going := ⟨idle, closed, seen, empty⟩, timed := timed }⟩
      · rw [phase]
        exact .called
      · exact absurd ((unchanged same).trans none) empty

/-- Orders change, and the sensor reads no other floor. -/
theorem Rides.sample (rides : m.Rides a) {floorSensor : Int}
    (stays : floorSensor = m.floor ∨ floorSensor = Config.kBetweenFloors) (requests : BoolTable kFloors) :
    ∃ a', a.Recalled a' ∧ a'.calls = requests.calls ∧ (m.sample floorSensor false requests).Rides a' := by
  obtain ⟨a', recalled, calls, rides'⟩ := rides.recalled requests
  refine ⟨a', recalled, calls, ?_⟩
  have floor : (if floorSensor < 0 ∨ (kFloors : Int) ≤ floorSensor then m.floor else floorSensor) =
      m.floor := by
    rcases stays with same | between
    · rw [same, ite_self]
    · exact if_pos (.inl (by rw [between]; decide))
  unfold Mode.sample
  rw [floor]
  exact { rides' with free := rfl, timed := { rides'.timed with } }

/-- A car that is not moving is in none of the phases in which it moves. -/
theorem Rides.phase_moving (rides : m.Rides a) : a.phase = .moving ↔ m.movingState = .moving := by
  have going := rides.going
  constructor
  · intro moving
    rw [moving] at going
    exact going.1
  · intro moving
    cases phase : a.phase with
    | moving => rfl
    | waiting | held | resting =>
      rw [phase] at going
      cases moving.symm.trans going.1

end Mode

namespace Drive

variable {d : Drive kFloors} {m : Mode kFloors} {a : Scan kFloors BtnType}

/-- The mode once the orders that an event at a floor serves are cleared. -/
def cleared (result : Drive kFloors × ButtonFlags) (floor : Fin kFloors) : Mode kFloors :=
  { result.1.mode with requests := result.1.mode.requests.cleared floor result.2 }

/-- An event is a step of the scanning car. -/
def Follows (a : Scan kFloors BtnType) (arrival : Bool) (floor : Fin kFloors)
    (result : Drive kFloors × ButtonFlags) : Prop :=
  ∃ a', ScanStep hallAgainst a arrival a' ∧ (cleared result floor).Rides a'

/-- A decision to open the door serves calls. -/
theorem follows_opens {result : Drive kFloors × ButtonFlags} (at_ : d.mode.At a)
    (stands : a.phase = .waiting ∨ ∃ noted, a.phase = .held noted)
    (opens : d.controller.chooseDirection d.mode.floor = ⟨.stop, .doorOpen⟩)
    (holding : result.1.mode.Holding a) (kept : result.1.mode.requests = d.mode.requests)
    (timed : result.1.mode.Timed)
    (buttons : result.2 = d.controller.clearCurrentFloor d.mode.floor) :
    Follows a false a.floor result := by
  have fewer : (result.1.mode.requests.cleared a.floor result.2).calls ⊂
      result.1.mode.requests.calls := by
    rw [kept, buttons, at_.floor]
    exact Controller.calls_served_ssubset (at_.floor ▸ opens)
  obtain ⟨a', step, scans⟩ := holding.serves stands fewer
  exact ⟨a', step, scans.rides step { timed with }⟩

/-- A decision behind a closed door is carried out. -/
theorem follows_leaves {result : Drive kFloors × ButtonFlags} (leaving : m.Leaving a)
    (decides : a.phase.decides = true) {pair : DirMovPair}
    (decision : Decides m.inertia.heading m.requests.calls a.floor pair)
    (closes : pair.movingState ≠ .doorOpen) (door : m.doorTimer = m.doorOpen)
    (mode : result.1.mode = m.execute pair) (buttons : result.2 = kNoClear) :
    Follows a false a.floor result := by
  obtain ⟨a', step, scans⟩ := leaving.follows decides decision closes
  refine ⟨a', step, ?_⟩
  unfold cleared
  rw [buttons, BoolTable.cleared_kNoClear, mode]
  exact scans.rides step (.execute leaving.running door pair fun stays => Mode.halts_of_decides decision stays)

/-- An idle car looks at its calls: it opens the door, leaves or rests. -/
theorem follows_waiting (rides : m.Rides a) (waiting : a.phase = .waiting) (looked : d.mode = m.noted)
    (now : Nat) : Follows a false a.floor (d.fsmTableUpdate now) := by
  have going := rides.going
  rw [waiting] at going
  obtain ⟨idle, closed, -, -⟩ := going
  have at_ : d.mode.At a := looked ▸ rides.toAt.noted
  have idle' : d.mode.movingState = .idle := by rw [looked]; exact idle
  have seen : d.mode.requests = d.mode.prevRequests := by rw [looked]; rfl
  have door : d.mode.doorTimer = false := by
    rw [looked]
    exact rides.timed.doorTimer.trans closed
  rcases d.fsmTableUpdate_cases now with
    ⟨doorMode, -⟩ | ⟨busy, -⟩ | ⟨-, opens, mode⟩ | ⟨-, closes, mode, buttons⟩
  · cases idle'.symm.trans doorMode
  · exact absurd idle' busy
  · have holding : (d.fsmTableUpdate now).1.mode.Holding a :=
      mode ▸ Mode.At.holding (m := d.mode.holdDoor) { at_ with } rfl seen
    apply follows_opens at_ (.inl waiting) opens holding
    · exact (congrArg Mode.requests mode).trans (Mode.execute_requests _ _)
    · rw [mode]
      exact Mode.Timed.execute (m := d.mode.holdDoor) at_.running rfl ⟨.stop, .doorOpen⟩
        fun _ => rfl
    · exact Drive.fsmTableUpdate_opens_buttons now idle' opens
  · rw [at_.free, if_neg Bool.false_ne_true] at mode
    have decision := d.controller.decides_chooseDirection a.floor
    rw [← at_.floor] at decision
    exact follows_leaves (m := { d.mode with doorOpen := false }) { at_ with closed := rfl, seen := seen }
      (by rw [waiting]; rfl) decision closes door mode buttons

/-- A car at its open door looks at the calls left: it serves more of them or waits. -/
theorem follows_held (rides : m.Rides a) (held : a.phase = .held false) (looked : d.mode = m.noted)
    (now : Nat) : Follows a false a.floor (d.fsmTableUpdate now) := by
  have going := rides.going
  rw [held] at going
  obtain ⟨doorMode, open_, -⟩ := going
  have at_ : d.mode.At a := looked ▸ rides.toAt.noted
  have doorMode' : d.mode.movingState = .doorOpen := by rw [looked]; exact doorMode
  have holding : d.mode.Holding a :=
    { at_ with
      doorMode := doorMode'
      open_ := by rw [looked]; exact open_
      seen := by rw [looked]; rfl }
  have timed : d.mode.Timed := by
    rw [looked]
    exact { rides.timed with }
  have notes {result : Drive kFloors × ButtonFlags} (holding' : result.1.mode.Holding a)
      (timed' : result.1.mode.Timed) : Follows a false a.floor result := by
    obtain ⟨a', step, scans⟩ := holding'.notes result.2 held
    exact ⟨a', step, scans.rides step { timed' with }⟩
  rcases d.fsmTableUpdate_cases now with
    ⟨-, -, mode, -⟩ | ⟨-, mode, -⟩ | ⟨idle, -⟩ | ⟨idle, -⟩
  · apply notes
    · rw [mode]
      exact { holding with }
    · rw [mode]
      exact { timed with doorTimer := holding.open_.symm }
  · exact notes (mode ▸ holding) (mode ▸ timed)
  · cases idle.symm.trans doorMode'
  · cases idle.symm.trans doorMode'

/-- The door of a car that has looked at its calls times out: it serves a call, leaves or rests. -/
theorem follows_noted (rides : m.Rides a) (held : a.phase = .held true) (looked : d.mode = m.noted)
    (now : Nat) : Follows a false a.floor (d.fsmDoorTimeout now) := by
  have going := rides.going
  rw [held] at going
  obtain ⟨doorMode, open_, -⟩ := going
  have at_ : d.mode.At a := looked ▸ rides.toAt.noted
  have doorMode' : d.mode.movingState = .doorOpen := by rw [looked]; exact doorMode
  have open' : d.mode.doorOpen = true := by rw [looked]; exact open_
  have seen : d.mode.requests = d.mode.prevRequests := by rw [looked]; rfl
  rcases d.fsmDoorTimeout_cases now with
    ⟨blocked, -⟩ | ⟨-, busy, -⟩ | ⟨-, -, opens, mode, buttons⟩ | ⟨-, -, closes, mode, buttons⟩
  · exact absurd (at_.free.symm.trans blocked) Bool.false_ne_true
  · exact absurd doorMode' busy
  · have holding : (d.fsmDoorTimeout now).1.mode.Holding a :=
      mode ▸ Mode.At.holding (m := { d.mode with doorTimer := true }) { at_ with } open' seen
    apply follows_opens at_ (.inr ⟨true, held⟩) opens holding
    · exact (congrArg Mode.requests mode).trans (Mode.execute_requests _ _)
    · rw [mode]
      exact Mode.Timed.execute (m := { d.mode with doorTimer := true }) at_.running open'.symm
        ⟨.stop, .doorOpen⟩ fun _ => rfl
    · exact buttons
  · have decision := d.controller.decides_chooseDirection a.floor
    rw [← at_.floor] at decision
    exact follows_leaves (m := { d.mode with doorTimer := false, doorOpen := false })
      { at_ with closed := rfl, seen := seen } (by rw [held]; rfl) decision closes rfl mode buttons

/-- A moving car reaches the next floor: it passes, or stops and opens the door. -/
theorem follows_moving (rides : m.Rides a) (moving : a.phase = .moving) {h : Heading}
    {next : Fin kFloors} (taken : m.inertia.heading = some h) (adjacent : h.Next a.floor next)
    (arrived : d.mode = { m with floor := next.val, prevFloor := next.val }) (now : Nat) :
    Follows a true next (d.fsmFloorArrival now) := by
  have going := rides.going
  rw [moving] at going
  obtain ⟨moves, closed, h', heading, driven, -⟩ := going
  obtain rfl := Option.some.inj (taken.symm.trans heading)
  have heading' : d.mode.inertia.heading = some h := by rw [arrived]; exact heading
  have along : a.heading = some h := rides.heading.symm.trans heading
  have at_ : d.mode.At { a with floor := next } :=
    { floor := by rw [arrived]
      heading := heading'.trans along.symm
      calls := by rw [arrived]; exact rides.calls
      arrived := by rw [arrived]
      running := by rw [arrived]; exact rides.running
      free := by rw [arrived]; exact rides.free }
  have arriving : d.mode.movingState = .moving := by rw [arrived]; exact moves
  have shut : d.mode.doorTimer = false ∧ d.mode.doorOpen = false := by
    rw [arrived]
    exact ⟨rides.timed.doorTimer.trans closed, closed⟩
  rcases d.fsmFloorArrival_cases now with ⟨-, -, result, buttons⟩ | ⟨passes, result, buttons⟩
  · have at' : (d.fsmFloorArrival now).1.mode.At { a with floor := next } := result ▸ { at_ with }
    have kept : (d.fsmFloorArrival now).1.mode.requests = d.mode.requests := by
      rw [result]
      rfl
    have left : ∀ c ∈ ((d.fsmFloorArrival now).1.mode.requests.cleared next
        (d.fsmFloorArrival now).2).calls, c.1 = next → c.2 = hallAgainst h := by
      intro c left here
      rw [kept, buttons, at_.floor] at left
      obtain ⟨h'', eq, against⟩ := Controller.against_of_left left here
      rwa [Option.some.inj (heading'.symm.trans eq)]
    obtain ⟨a', step, scans⟩ := at'.stops moving along adjacent (congrArg Mode.movingState result)
      (congrArg Mode.doorOpen result) left
    refine ⟨a', step, scans.rides step ?_⟩
    rw [result]
    exact ⟨fun _ => rfl, rfl, rfl⟩
  · have passes := passes.resolve_left (not_not.2 arriving)
    rw [at_.floor] at passes
    obtain ⟨h'', eq, ⟨call, called, ahead⟩, against⟩ := Controller.of_shouldStop_false passes
    obtain rfl := Option.some.inj (heading'.symm.trans eq)
    -- an end floor is never passed, so that the motor is left on
    have driven' : d.mode.arrive.motorDir = h.motorDir := by
      have above := adjacent.inside ahead
      have below := next.isLt
      have inside : ¬(d.mode.floor = 0 ∨ d.mode.floor = kFloors) := by
        rw [at_.floor]
        dsimp only
        omega
      rw [Mode.arrive, if_neg inside, arrived]
      exact driven
    have at' : d.mode.arrive.At { a with floor := next } := { at_ with }
    obtain ⟨a', step, scans⟩ := at'.passes moving along adjacent arriving shut.2 driven' against called
      ahead
    refine ⟨a', step, ?_⟩
    unfold cleared
    rw [buttons, BoolTable.cleared_kNoClear, result]
    refine scans.rides step ⟨fun stays => absurd arriving stays, ?_, (decide_eq_true arriving).symm⟩
    exact shut.1.trans shut.2.symm

end Drive

end CppElevator
