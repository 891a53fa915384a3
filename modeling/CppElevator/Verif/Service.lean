import CppElevator.Verif.LoneNode
import CppElevator.Verif.RideTurns

/-!
# Service

A car that nothing disturbs serves all its orders in time. Every turn of its node is a step of a scanning
car, or finds it waiting for the next floor or for its door, and it never waits longer than the car may
travel or the door is held. So once no more orders come, the time until the car rests is bounded. A node
that is alone gets what it is asked for in one turn, so there it is enough that nobody calls any more.
-/
namespace CppElevator

open Library Config

variable {kFloors : Nat}

namespace Ride

variable {s s' : Ride kFloors} {input : NodeInput kFloors} {a : Scan kFloors BtnType} {travel pace : Nat}

/-- The longest time for which a car has to wait: until it comes to the next floor, or its door may
close. -/
def longestWait (travel : Nat) : Nat := max kDoorOpenTimeMs travel

/-- Since an instant the car has done nothing but wait, and not for too long. -/
structure Paced (travel mark : Nat) (s : Ride kFloors) : Prop where
  /-- The instant has passed. -/
  past : mark ≤ s.clock
  /-- Not for too long. -/
  clock : s.clock ≤ mark + longestWait travel
  /-- By then a moving car had set off. -/
  moving : s.node.drive.mode.movingState = .moving → s.since ≤ mark
  /-- By then an open door had been opened. -/
  door : s.node.drive.mode.doorOpen = true → s.node.doorDeadline ≤ mark + kDoorOpenTimeMs

/-- Every turn may be the first of those in which the car waits. -/
theorem Paced.afresh {mark : Nat} (paced : s.Paced travel mark) (follows : s.Follows a)
    (undisturbed : Undisturbed travel pace ⟨s, input, s'⟩) (step : RideStep s input s') :
    s'.Paced travel s'.clock := by
  obtain ⟨turned, clock, since⟩ := step_cases step
  have forward : s.clock ≤ input.now := undisturbed.forward
  have past := paced.past
  refine ⟨le_rfl, Nat.le_add_right _ _, fun _ => ?_, fun opened => ?_⟩
  · rw [since, clock]
    split_ifs with underway
    · have moves : s.node.drive.mode.movingState = .moving := by
        by_contra stands
        exact underway.1 (follows.mode.timed.halted stands)
      have before := paced.moving moves
      omega
    · exact le_rfl
  · rw [clock]
    by_cases before : s.node.drive.mode.doorOpen = true
    · have old := paced.door before
      rcases ElevatorNode.doorDeadline_turn turned with same | ⟨now, reading, set⟩
      · dsimp only at same
        omega
      · obtain rfl := Option.some.inj reading
        exact set.le
    · exact (ElevatorNode.doorDeadline_of_opens turned (Bool.of_not_eq_true before) opened).le

/-- A car that waits has not waited for too long. -/
theorem Paced.waits {mark : Nat} {a₁ a₃ : Scan kFloors BtnType} (paced : s.Paced travel mark)
    (follows : s.Follows a) (undisturbed : Undisturbed travel pace ⟨s, input, s'⟩)
    (step : RideStep s input s') (waits : Waits travel s input s') (follows' : s'.Follows a₃)
    (before : a.Recalled a₁) (after : a₁.Recalled a₃) (looks : a₁.phase ≠ .waiting)
    (busy : a₁.phase ≠ .resting) : s'.Paced travel mark := by
  obtain ⟨-, clock, -⟩ := step_cases step
  have forward : s.clock ≤ input.now := undisturbed.forward
  have past := paced.past
  have longest : kDoorOpenTimeMs ≤ longestWait travel ∧ travel ≤ longestWait travel :=
    ⟨le_max_left _ _, le_max_right _ _⟩
  have going := follows.mode.going
  have going' := follows'.mode.going
  -- the car is on its way before and after the turn, or its door is open
  have either : (s.node.drive.mode.movingState = .moving ∧ s'.node.drive.mode.doorOpen = false) ∨
      s.node.drive.mode.doorOpen = true ∧ s'.node.drive.mode.movingState ≠ .moving := by
    have first := before.phase
    have second := after.phase
    generalize a.phase = phase at first going
    generalize a₁.phase = phase₁ at first second looks busy
    generalize a₃.phase = phase₃ at second going'
    cases first with
    | moving =>
      cases second
      exact .inl ⟨going.1, going'.2.1⟩
    | held =>
      cases second
      exact .inr ⟨going.2.1, by rw [going'.1]; exact MovingState.noConfusion⟩
    | kept | called => exact absurd rfl looks
    | emptied | still => exact absurd rfl busy
  rw [← clock] at forward
  rcases either with ⟨moves, shut⟩ | ⟨opened, stands⟩
  · obtain ⟨soon, same⟩ := waits.moving moves
    have since := paced.moving moves
    refine ⟨past.trans forward, by omega, fun _ => same.trans_le since, fun opened => ?_⟩
    exact absurd (shut.symm.trans opened) Bool.false_ne_true
  · obtain ⟨soon, same⟩ := waits.door opened
    have held := paced.door opened
    exact ⟨past.trans forward, by omega, fun moves => absurd moves stands, fun _ => same.trans_le held⟩

/-- The car comes to rest by an instant if nothing new is asked of it. -/
def RestsBy (travel pace limit : Nat) (s : Ride kFloors) : Prop :=
  ∃ a, s.Follows a ∧ (a.phase = .resting ∨ ∃ leg mark, a.OnLeg hallAgainst leg ∧ s.Paced travel mark ∧
    mark + (longestWait travel + pace) * a.stepsLeft leg ≤ limit)

/-- Every turn that finds nothing new keeps that. -/
theorem RestsBy.step {limit : Nat} (rests : s.RestsBy travel pace limit)
    (undisturbed : Undisturbed travel pace ⟨s, input, s'⟩) (within : travel ≤ kFaultTimeoutMs)
    (nothing : NothingNew ⟨s, input, s'⟩) (step : RideStep s input s') :
    s'.RestsBy travel pace limit := by
  obtain ⟨a, follows, state⟩ := rests
  obtain ⟨a₁, a₂, a₃, turned⟩ := follows.turn undisturbed within step
  obtain ⟨fewer, fewer'⟩ := turned.fewer nothing
  refine ⟨a₃, turned.follows, ?_⟩
  have still (resting : a₂.phase = .resting) : a₃.phase = .resting :=
    turned.after.rests fewer' resting (turned.rests resting)
  by_cases resting : a₁.phase = .resting
  · left
    rcases turned.moves with ⟨same, -, -⟩ | ⟨arrival, scanned⟩
    · exact still (by rw [same]; exact resting)
    · exact absurd resting scanned.busy
  by_cases rested : a.phase = .resting
  · have empty := follows.mode.calls_of_resting rested
    exact absurd (turned.before.rests fewer rested empty) resting
  obtain ⟨leg, mark, on, paced, soon⟩ := state.resolve_left rested
  obtain ⟨on₁, steps₁⟩ := turned.before.progress fewer rested on
  rcases turned.moves with ⟨rfl, looks, waits⟩ | ⟨arrival, scanned⟩
  · obtain ⟨on₃, steps₃⟩ := turned.after.progress fewer' resting on₁
    refine .inr ⟨leg, mark, on₃, paced.waits follows undisturbed step waits turned.follows turned.before
      turned.after looks resting, ?_⟩
    have less := Nat.mul_le_mul_left (longestWait travel + pace) (steps₃.trans steps₁)
    omega
  · obtain ⟨leg', on₂, -, steps₂⟩ := scanned.progress hallAgainst_injective on₁
    by_cases resting' : a₂.phase = .resting
    · exact .inl (still resting')
    obtain ⟨on₃, steps₃⟩ := turned.after.progress fewer' resting' on₂
    refine .inr ⟨leg', s'.clock, on₃, paced.afresh follows undisturbed step, ?_⟩
    have clock := (step_cases step).2.1
    have prompt : input.now ≤ s.clock + pace := undisturbed.prompt
    have waited := paced.clock
    have fewerSteps : a₃.stepsLeft leg' + 1 ≤ a.stepsLeft leg := by omega
    have less := Nat.mul_le_mul_left (longestWait travel + pace) fewerSteps
    rw [Nat.mul_succ] at less
    omega

/-- A node that has just been initialised rests. -/
theorem Launched.follows (launched : s.Launched) : ∃ a, s.Follows a ∧ s.Paced travel s.clock := by
  obtain ⟨nodeId, initial, node, inside, released, free⟩ := launched
  have outside : ¬(initial.floorSensor < 0 ∨ (kFloors : Int) ≤ initial.floorSensor) := by
    have range := inside
    unfold Signals.AtFloor at range
    omega
  have mode : s.node.drive.mode = {
      floor := initial.floorSensor, prevFloor := initial.floorSensor, stopped := false,
      doorOpen := false, obstruction := false, fault := false, motorDir := .stop, movingState := .idle,
      inertia := .none, doorTimer := false, floorTimer := false, requests := BoolTable.zeros,
      prevRequests := BoolTable.zeros, opened := false } := by
    rw [node]
    unfold ElevatorNode.init Drive.init Elevator.init ElevatorState.setFloor
    rw [if_neg outside, released, free]
    rfl
  have stands : ¬s.node.drive.mode.movingState = .moving := by
    rw [mode]
    exact MovingState.noConfusion
  have shut : ¬s.node.drive.mode.doorOpen = true := by
    rw [mode]
    exact Bool.false_ne_true
  refine ⟨⟨⟨initial.floorSensor.toNat, toNat_lt inside⟩, none, ∅, .resting⟩,
    ⟨?_, fun moves => absurd moves stands⟩, le_rfl, Nat.le_add_right _ _,
    fun moves => absurd moves stands, fun opened => absurd opened shut⟩
  rw [mode]
  exact {
    floor := (Int.toNat_of_nonneg inside.1).symm
    heading := rfl
    calls := by
      ext
      simp [BoolTable.zeros]
    arrived := rfl
    running := rfl
    free := rfl
    going := ⟨rfl, rfl, rfl, rfl⟩
    timed := ⟨fun _ => rfl, rfl, rfl⟩ }

/-- After every run of an undisturbed car its node follows a scanning car. -/
theorem follows_of_run (within : travel ≤ kFaultTimeoutMs) {start : Ride kFloors}
    (launched : start.Launched) {trace : List (Transition (Ride kFloors) (NodeInput kFloors))}
    (run : Run RideStep start trace s) (undisturbed : ∀ t ∈ trace, Undisturbed travel pace t) :
    ∃ a, s.Follows a ∧ s.Paced travel s.clock := by
  apply run.invariant_of_admitted (Undisturbed travel pace)
    (fun s : Ride kFloors => ∃ a, s.Follows a ∧ s.Paced travel s.clock) ?_ undisturbed
  · exact launched.follows
  · rintro s s' input step undisturbed ⟨a, follows, paced⟩
    obtain ⟨a₁, a₂, a₃, turned⟩ := follows.turn undisturbed within step
    exact ⟨a₃, turned.follows, paced.afresh follows undisturbed step⟩

/-- The node has got every order that is confirmed to it. -/
def Known (s : Ride kFloors) : Prop :=
  s.node.peers.orders.toBoolTable s.node.peers.nodeId.val ≤ s.node.drive.controller.requests

/-- A turn whose event finds nothing new leaves the node with all its orders. -/
theorem known_of_turn (undisturbed : Undisturbed travel pace ⟨s, input, s'⟩)
    (nothing : ∀ q, s.node.due input = some q →
      q.peers.orders.toBoolTable q.peers.nodeId.val ≤ q.drive.controller.requests)
    (step : RideStep s input s') : s'.Known := by
  obtain ⟨q, requests, due, done, -⟩ := due_cases undisturbed step
  have known := nothing q due
  unfold Known
  obtain ⟨prevFloor, prevRequests, kept⟩ := ElevatorNode.nextEvent_looked q.drive input.now
  generalize found : ElevatorNode.nextEvent q.drive input.now = result at kept
  obtain ⟨d, event⟩ := result
  dsimp only at kept
  cases event with
  | none =>
    rw [ElevatorNode.eq_of_handleEvent done found, kept]
    exact known
  | some event =>
    have published := ElevatorNode.event_of_handleEvent done found
    obtain ⟨peers, cleared, same⟩ := Option.map_eq_some_iff.1 published
    have nodeId : peers.nodeId = q.peers.nodeId := by
      unfold ElevatorNode.clearServed at cleared
      split_ifs at cleared
      · rw [← Option.some.inj cleared]
      · rw [← Option.some.inj cleared]
        rfl
    rw [← same]
    change peers.orders.toBoolTable peers.nodeId.val ≤ peers.orders.toBoolTable q.peers.nodeId.val
    rw [nodeId]

/-- A car that comes to rest by an instant does so by any later one. -/
theorem RestsBy.mono {limit later : Nat} (rests : s.RestsBy travel pace limit) (le : limit ≤ later) :
    s.RestsBy travel pace later := by
  obtain ⟨a, follows, state⟩ := rests
  refine ⟨a, follows, state.imp_right fun ⟨leg, mark, on, paced, soon⟩ => ?_⟩
  exact ⟨leg, mark, on, paced, soon.trans le⟩

/-- Wherever the car is, the way there and back again and its calls bound the time until it rests. -/
theorem restsBy_of_follows (follows : s.Follows a) (paced : s.Paced travel s.clock) :
    s.RestsBy travel pace (s.clock + (longestWait travel + pace) *
      (12 * (kFloors - 1) + 4 * s.node.drive.controller.requests.calls.card + 3)) := by
  have steps : a.stepsLeft .first ≤
      12 * (kFloors - 1) + 4 * s.node.drive.controller.requests.calls.card + 3 := by
    have floors := a.floorsLeft_le .first
    have calls : a.calls.card = s.node.drive.controller.requests.calls.card :=
      congrArg Finset.card follows.mode.calls.symm
    have stage : a.phase.stage ≤ 3 := by
      cases a.phase with
      | held noted => exact Phase.stage_held_le noted
      | waiting | moving | resting => decide
    unfold Scan.stepsLeft
    omega
  refine ⟨a, follows, .inr ⟨.first, s.clock, trivial, paced, ?_⟩⟩
  exact Nat.add_le_add_left (Nat.mul_le_mul_left _ steps) _

/-- Once the instant has passed, the car rests. -/
theorem RestsBy.rested {limit : Nat} (rests : s.RestsBy travel pace limit) (late : limit < s.clock) :
    s.node.drive.controller.requests = BoolTable.zeros ∧ s.node.drive.elev.state.movingState = .idle ∧
      s.node.drive.elev.state.doorOpen = false ∧ s.node.drive.elev.state.motorDir = .stop := by
  obtain ⟨a, follows, state⟩ := rests
  have resting : a.phase = .resting := by
    by_contra busy
    obtain ⟨leg, mark, -, paced, soon⟩ := state.resolve_left busy
    have waited := paced.clock
    have left := Nat.mul_le_mul_left (longestWait travel + pace) (Scan.stepsLeft_pos busy leg)
    omega
  have going := follows.mode.going
  rw [resting] at going
  obtain ⟨idle, closed, -, empty⟩ := going
  have halted := follows.mode.timed.halted (by rw [idle]; exact MovingState.noConfusion)
  exact ⟨empty, idle, closed, halted⟩

/-- Without requests no order is confirmed to a node that has got them all. -/
theorem Known.orders_eq (known : s.Known) (empty : s.node.drive.controller.requests = BoolTable.zeros) :
    s.node.peers.orders.toBoolTable s.node.peers.nodeId.val = BoolTable.zeros := by
  unfold Known at known
  rw [empty] at known
  exact le_antisymm known fun f b => Bool.false_le _

/-- A node that is alone and not asked for anything gets what is confirmed to it in one turn. -/
theorem known_of_unasked {i : Fin kElevs} (alone : s.node.Alone i)
    (undisturbed : Undisturbed travel pace ⟨s, input, s'⟩) (unasked : Unasked ⟨s, input, s'⟩)
    (step : RideStep s input s') : s'.Known :=
  known_of_turn undisturbed
    (fun _ due => (alone.requests_of_due unasked.silent unasked.released due).2) step

/-- From then on it finds nothing new. -/
theorem nothing_of_unasked {i : Fin kElevs} (alone : s.node.Alone i)
    (unasked : Unasked ⟨s, input, s'⟩) (known : s.Known) : NothingNew ⟨s, input, s'⟩ := by
  intro q due
  obtain ⟨requests, fewer⟩ := alone.requests_of_due unasked.silent unasked.released due
  exact ⟨requests.trans_le known, fewer⟩

/-- After every run without packets a node is alone. -/
theorem alone_of_run (fits : CostsFit kFloors) {start : Ride kFloors} (launched : start.Launched)
    {trace : List (Transition (Ride kFloors) (NodeInput kFloors))} (run : Run RideStep start trace s)
    (silent : ∀ t ∈ trace, t.action.Silent) : ∃ i, s.node.Alone i := by
  obtain ⟨i, initial, node, inside, -⟩ := launched
  refine ⟨i, run.invariant_of_admitted (fun t => t.action.Silent) (fun l => l.node.Alone i)
    (fun step silent alone => alone.turn fits silent (step_cases step).1) silent ?_⟩
  rw [node]
  exact ElevatorNode.alone_init i inside

/-- A turn at which nothing happens but that the car, if it is driven, comes to the next floor. -/
def unattended (s : Ride kFloors) (pace : Nat) : NodeInput kFloors where
  now := s.clock + pace
  signals := { floorSensor := s.floor + s.dir.offset }

/-- Such a turn disturbs nobody. -/
theorem Follows.undisturbed (follows : s.Follows a) (s' : Ride kFloors) :
    Undisturbed travel pace ⟨s, s.unattended pace, s'⟩ where
  forward := Nat.le_add_right _ _
  prompt := le_rfl
  released := rfl
  free := rfl
  sensor := .inr rfl
  arrives _ := by
    rintro ⟨driven, still⟩
    have moving : s.node.drive.mode.movingState = .moving := by
      by_contra stands
      exact driven (follows.mode.timed.halted stands)
    have going := follows.mode.going
    rw [follows.mode.phase_moving.2 moving] at going
    obtain ⟨-, -, h, -, heading, next, adjacent⟩ := going
    have floor : s.floor = a.floor.val := follows.mode.floor
    have dir : s.dir = h.motorDir := heading
    have sensor : s.floor + s.dir.offset = next.val := by
      rw [floor, dir]
      exact offset_of_next adjacent
    change s.floor + s.dir.offset = s.floor ∨ s.floor + s.dir.offset = kBetweenFloors at still
    have apart := adjacent.reach
    rw [sensor, floor] at still
    rcases still with same | between
    · rw [Fin.ext (Int.ofNat.inj same)] at apart
      omega
    · unfold kBetweenFloors at between
      omega

/-- The node is alone, and its car does what a scanning car does. -/
structure Calm (i : Fin kElevs) (s : Ride kFloors) : Prop where
  /-- The node. -/
  alone : s.node.Alone i
  /-- The car. -/
  follows : ∃ a, s.Follows a

/-- A calm car can be left unattended for as long as one likes. -/
theorem Calm.window {i : Fin kElevs} (calm : s.Calm i) (fits : CostsFit kFloors)
    (within : travel ≤ kFaultTimeoutMs) (pace turns : Nat) :
    ∃ trace s', Run RideStep s trace s' ∧ (∀ t ∈ trace, Undisturbed travel pace t ∧ Unasked t) ∧
      s'.Calm i ∧ s'.clock = s.clock + pace * turns := by
  induction turns with
  | zero => exact ⟨[], s, .nil s, fun _ member => absurd member List.not_mem_nil, calm, rfl⟩
  | succ turns ih =>
    obtain ⟨trace, l, run, quiet, ⟨alone, a, follows⟩, clock⟩ := ih
    have silent : (l.unattended pace).Silent := ⟨rfl, rfl⟩
    obtain ⟨n, turned⟩ := ElevatorNode.turn_possible fits alone.ready silent
    obtain ⟨s', step⟩ : ∃ s', RideStep l (l.unattended pace) s' :=
      ⟨_, Option.map_eq_some_iff.2 ⟨n, turned, rfl⟩⟩
    obtain ⟨turned', clock', -⟩ := step_cases step
    have undisturbed : Undisturbed travel pace ⟨l, l.unattended pace, s'⟩ := follows.undisturbed s'
    obtain ⟨a₁, a₂, a₃, scans⟩ := follows.turn undisturbed within step
    refine ⟨_, s', run.snoc step, fun t member => ?_,
      ⟨alone.turn fits silent turned', a₃, scans.follows⟩, ?_⟩
    · rcases List.mem_append.1 member with before | last
      · exact quiet t before
      · obtain rfl := List.mem_singleton.1 last
        exact ⟨undisturbed, silent, fun f b => rfl⟩
    · rw [clock', Nat.mul_succ]
      change l.clock + pace = _
      omega

/-- A calm car whose node has got its orders finds nothing new while it is not asked for anything. -/
theorem Calm.nothing {i : Fin kElevs} (calm : s.Calm i) (known : s.Known) (fits : CostsFit kFloors)
    {trace : List (Transition (Ride kFloors) (NodeInput kFloors))} (run : Run RideStep s trace s')
    (quiet : ∀ t ∈ trace, Undisturbed travel pace t ∧ Unasked t) : ∀ t ∈ trace, NothingNew t := by
  apply run.forall_transitions (fun t => Undisturbed travel pace t ∧ Unasked t) NothingNew
    (fun l => l.node.Alone i ∧ l.Known) ?_ quiet ⟨calm.alone, known⟩
  rintro l l' input step ⟨undisturbed, unasked⟩ ⟨alone, known⟩
  exact ⟨⟨alone.turn fits unasked.silent (step_cases step).1,
    known_of_unasked alone undisturbed unasked step⟩, nothing_of_unasked alone unasked known⟩

/-- A building at whose bottom a node has just been initialised. -/
def atBottom : Ride Config.kFloors where
  node := .init 0 { floorSensor := 0 }
  clock := 0
  since := 0

/-- It starts at a floor. -/
theorem launched_atBottom : atBottom.Launched := ⟨0, { floorSensor := 0 }, rfl, by decide, rfl, rfl⟩

/-- A turn at which a button is pressed. -/
def calling (floor : Fin Config.kFloors) (btn : BtnType) : NodeInput Config.kFloors where
  now := 40
  signals := { floorSensor := 0, buttons := .only floor btn }

/-- The press does not disturb the car. -/
theorem undisturbed_calling (floor : Fin Config.kFloors) (btn : BtnType)
    (s : Ride Config.kFloors) : Undisturbed 2000 100 ⟨atBottom, calling floor btn, s⟩ where
  forward := (by decide : 0 ≤ 40)
  prompt := (by decide : 40 ≤ 0 + 100)
  released := rfl
  free := rfl
  sensor := .inr rfl
  arrives _ underway := underway.1 rfl

/-- In every run of a node launched at a floor, whatever other nodes send and whatever buttons are
pressed, as long as nothing disturbs its car and the next floor is always reached before the motor is
taken to fail: once no order is confirmed to the node any more that it has not got already, its car serves
all that it has. After so many turns no order is left, and the car stands idle with its door closed. The time
this takes is bounded by the way there and back again, by the number of orders, and by the longest time a
car waits at all. -/
theorem car_serves_in_time (within : travel ≤ kFaultTimeoutMs) {start : Ride kFloors}
    (launched : start.Launched) {trace : List (Transition (Ride kFloors) (NodeInput kFloors))}
    (run : Run RideStep start trace s) (undisturbed : ∀ t ∈ trace, Undisturbed travel pace t)
    {trace' : List (Transition (Ride kFloors) (NodeInput kFloors))} (quiet : Run RideStep s trace' s')
    (nothing : ∀ t ∈ trace', Undisturbed travel pace t ∧ NothingNew t)
    (long : s.clock + (longestWait travel + pace) *
      (12 * (kFloors - 1) + 4 * s.node.drive.controller.requests.calls.card + 3) < s'.clock) :
    s'.node.peers.orders.toBoolTable s'.node.peers.nodeId.val = BoolTable.zeros ∧
      s'.node.drive.controller.requests = BoolTable.zeros ∧
      s'.node.drive.elev.state.movingState = .idle ∧ s'.node.drive.elev.state.doorOpen = false ∧
      s'.node.drive.elev.state.motorDir = .stop := by
  obtain ⟨a, follows, paced⟩ := follows_of_run within launched run undisturbed
  have rests : s'.RestsBy travel pace (s.clock + (longestWait travel + pace) *
      (12 * (kFloors - 1) + 4 * s.node.drive.controller.requests.calls.card + 3)) := by
    apply quiet.invariant_of_admitted (fun t => Undisturbed travel pace t ∧ NothingNew t)
      (RestsBy travel pace _) ?_ nothing
    · exact restsBy_of_follows follows paced
    · rintro l l' input step ⟨calm, none⟩ rests
      exact rests.step calm within none step
  obtain ⟨empty, rested⟩ := rests.rested long
  refine ⟨?_, empty, rested⟩
  cases quiet with
  | nil => omega
  | snoc before step =>
    obtain ⟨calm, none⟩ := nothing _ (List.mem_append_right _ (List.mem_singleton.2 rfl))
    have known := known_of_turn calm (fun q due => (none q due).2) step
    exact known.orders_eq empty

/-- A cab call from the bottom to the top of the building, after which nobody calls. -/
theorem car_serves_in_time_called : ∃ s trace' s', RideStep atBottom (calling 3 .cab) s ∧
    s.node.drive.controller.requests = .only 3 .cab ∧ Run RideStep s trace' s' ∧
    s'.clock = 133440 ∧
    s'.node.peers.orders.toBoolTable s'.node.peers.nodeId.val = BoolTable.zeros ∧
      s'.node.drive.controller.requests = BoolTable.zeros ∧
      s'.node.drive.elev.state.movingState = .idle ∧ s'.node.drive.elev.state.doorOpen = false ∧
      s'.node.drive.elev.state.motorDir = .stop := by
  have evaluated : (atBottom.exec (calling 3 .cab)).any (fun s =>
      decide (s.node.drive.controller.requests = .only 3 .cab ∧ s.clock = 40 ∧
        s.node.peers.orders.toBoolTable s.node.peers.nodeId.val = .only 3 .cab)) = true := by
    decide +kernel
  obtain ⟨s, step, checked⟩ := (Option.any_eq_true _ _).1 evaluated
  obtain ⟨requests, clock, orders⟩ := of_decide_eq_true checked
  have within : 2000 ≤ kFaultTimeoutMs := by decide
  have first : ∀ t ∈ [(⟨atBottom, calling 3 .cab, s⟩ : Transition _ _)], Undisturbed 2000 100 t :=
    fun t member => List.mem_singleton.1 member ▸ undisturbed_calling 3 .cab s
  obtain ⟨a, follows, -⟩ := follows_of_run within launched_atBottom (Run.single step) first
  have alone : s.node.Alone 0 :=
    (ElevatorNode.alone_init 0 (by decide)).turn costsFit_config ⟨rfl, rfl⟩ (step_cases step).1
  have calm : s.Calm 0 := ⟨alone, a, follows⟩
  obtain ⟨trace', s', quiet, unasked, -, late⟩ := calm.window costsFit_config within 100 1334
  have new := calm.nothing (by unfold Known; rw [orders, requests]) costsFit_config quiet unasked
  have nothing : ∀ t ∈ trace', Undisturbed 2000 100 t ∧ NothingNew t :=
    fun t member => ⟨(unasked t member).1, new t member⟩
  rw [clock] at late
  have long : s.clock + (longestWait 2000 + 100) * (12 * (Config.kFloors - 1) +
      4 * s.node.drive.controller.requests.calls.card + 3) < s'.clock := by
    rw [late, clock, requests]
    decide
  exact ⟨s, trace', s', step, requests, quiet, late,
    car_serves_in_time within launched_atBottom (Run.single step) first quiet nothing long⟩

/-- A lone elevator serves every call in time: in every run of a node launched at a floor to which no packet
ever comes, whatever buttons are pressed at whatever time, as long as nothing disturbs its car and the next
floor is always reached before the motor is taken to fail. Once no button is newly pressed any more, no
hall or cab call is left after so many turns, and the car stands idle with its door closed. -/
theorem lone_car_serves_every_call (fits : CostsFit kFloors) (within : travel ≤ kFaultTimeoutMs)
    {start : Ride kFloors} (launched : start.Launched)
    {trace : List (Transition (Ride kFloors) (NodeInput kFloors))} (run : Run RideStep start trace s)
    (undisturbed : ∀ t ∈ trace, Undisturbed travel pace t ∧ t.action.Silent)
    {trace' : List (Transition (Ride kFloors) (NodeInput kFloors))} (quiet : Run RideStep s trace' s')
    (unasked : ∀ t ∈ trace', Undisturbed travel pace t ∧ Unasked t)
    (long : s.clock + pace + (longestWait travel + pace) *
      (12 * (kFloors - 1) + 12 * kFloors + 3) < s'.clock) :
    (∀ f b, ¬(s'.node.peers.orders f b).Called) ∧
      s'.node.drive.controller.requests = BoolTable.zeros ∧
      s'.node.drive.elev.state.movingState = .idle ∧ s'.node.drive.elev.state.doorOpen = false ∧
      s'.node.drive.elev.state.motorDir = .stop := by
  obtain ⟨a, follows, paced⟩ :=
    follows_of_run within launched run fun t member => (undisturbed t member).1
  obtain ⟨i, alone⟩ := alone_of_run fits launched run fun t member => (undisturbed t member).2
  -- one turn later the node has got all its orders
  obtain ⟨alone', reached⟩ : s'.node.Alone i ∧ (s' = s ∨ s'.Known ∧ s'.RestsBy travel pace
      (s.clock + pace + (longestWait travel + pace) * (12 * (kFloors - 1) + 12 * kFloors + 3))) := by
    apply quiet.invariant_of_admitted (fun t => Undisturbed travel pace t ∧ Unasked t)
      (fun l => l.node.Alone i ∧ (l = s ∨ l.Known ∧ l.RestsBy travel pace _)) ?_ unasked
      ⟨alone, .inl rfl⟩
    rintro l l' input step ⟨calm, unasked⟩ ⟨alone, state⟩
    refine ⟨alone.turn fits unasked.silent (step_cases step).1,
      .inr ⟨known_of_unasked alone calm unasked step, ?_⟩⟩
    rcases state with rfl | ⟨known, rests⟩
    · obtain ⟨a₁, a₂, a₃, turned⟩ := follows.turn calm within step
      apply (restsBy_of_follows turned.follows (paced.afresh follows calm step)).mono
      have prompt : input.now ≤ l.clock + pace := calm.prompt
      rw [← (step_cases step).2.1] at prompt
      have steps : 12 * (kFloors - 1) + 4 * l'.node.drive.controller.requests.calls.card + 3 ≤
          12 * (kFloors - 1) + 12 * kFloors + 3 := by
        have few := l'.node.drive.controller.requests.card_calls_le
        omega
      exact Nat.add_le_add prompt (Nat.mul_le_mul_left _ steps)
    · exact rests.step calm within (nothing_of_unasked alone unasked known) step
  rcases reached with rfl | ⟨known, rests⟩
  · omega
  obtain ⟨empty, rested⟩ := rests.rested long
  refine ⟨fun f b called => ?_, empty, rested⟩
  have settled := alone'.lone.orders f b
  have confirmed := called.resolve_left settled.settled
  have none := congrFun (congrFun (known.orders_eq empty) f) b
  simp [OrderTable.toBoolTable, confirmed, settled.own confirmed, BoolTable.zeros] at none

/-- A hall call at the top of the building, after which nobody calls. -/
theorem lone_car_serves_every_call_top : ∃ s trace' s', RideStep atBottom (calling 3 .hallDown) s ∧
    (s.node.peers.orders 3 .hallDown).Called ∧ Run RideStep s trace' s' ∧ s'.clock = 270040 ∧
    (∀ f b, ¬(s'.node.peers.orders f b).Called) ∧
      s'.node.drive.controller.requests = BoolTable.zeros ∧
      s'.node.drive.elev.state.movingState = .idle ∧ s'.node.drive.elev.state.doorOpen = false ∧
      s'.node.drive.elev.state.motorDir = .stop := by
  have evaluated : (atBottom.exec (calling 3 .hallDown)).any (fun s =>
      decide ((s.node.peers.orders 3 .hallDown).Called ∧ s.clock = 40)) = true := by decide +kernel
  obtain ⟨s, step, checked⟩ := (Option.any_eq_true _ _).1 evaluated
  obtain ⟨called, clock⟩ := of_decide_eq_true checked
  have within : 2000 ≤ kFaultTimeoutMs := by decide
  have first : ∀ t ∈ [(⟨atBottom, calling 3 .hallDown, s⟩ : Transition _ _)],
      Undisturbed 2000 100 t ∧ t.action.Silent :=
    fun t member => List.mem_singleton.1 member ▸ ⟨undisturbed_calling 3 .hallDown s, rfl, rfl⟩
  obtain ⟨a, follows, -⟩ := follows_of_run within launched_atBottom (Run.single step)
    fun t member => (first t member).1
  obtain ⟨i, alone⟩ := alone_of_run costsFit_config launched_atBottom (Run.single step)
    fun t member => (first t member).2
  have calm : s.Calm i := ⟨alone, a, follows⟩
  obtain ⟨trace', s', quiet, unasked, -, late⟩ := calm.window costsFit_config within 100 2700
  rw [clock] at late
  have long : s.clock + 100 + (longestWait 2000 + 100) *
      (12 * (Config.kFloors - 1) + 12 * Config.kFloors + 3) < s'.clock := by
    rw [late, clock]
    decide
  exact ⟨s, trace', s', step, called, quiet, late, lone_car_serves_every_call costsFit_config within
    launched_atBottom (Run.single step) first quiet unasked long⟩

end Ride

end CppElevator
