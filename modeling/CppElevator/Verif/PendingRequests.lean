import CppElevator.Verif.Interlock
import CppElevator.Verif.NodeEvents

/-!
# Pending requests

A change of the request table is reported once. An elevator that is idle has acted on every
change reported to it, unless a change was reported while an obstruction or the emergency stop
kept it from acting and nothing was left running that would look at the table again. The
invariant says what the mode promises about the requests last reported; it holds for any
readings of the hardware.
-/
namespace CppElevator

open Library

variable {kFloors : Nat}

/-- A decision that does not open the door sets a direction, or there are no requests. -/
theorem Controller.chooseDirection_away {c : Controller kFloors} {floor : Int}
    (closes : (c.chooseDirection floor).movingState ≠ .doorOpen) :
    ((c.chooseDirection floor).movingState = .moving ∧
      ∀ inertia : Inertia, inertia.turned (c.chooseDirection floor).motorDir ≠ .none) ∨
    ((c.chooseDirection floor).movingState = .idle ∧ c.requests = BoolTable.zeros) := by
  rcases c.chooseDirection_cases floor with ⟨pair, _⟩ | ⟨pair, _⟩ | ⟨pair, _⟩ | ⟨pair, empty⟩
  · exact .inl ⟨by rw [pair], fun inertia => by simp [pair, Inertia.turned]⟩
  · exact .inl ⟨by rw [pair], fun inertia => by simp [pair, Inertia.turned]⟩
  · exact absurd (by rw [pair]) closes
  · exact .inr ⟨by rw [pair], empty⟩

namespace Mode

/-- A car that moves has a direction to resume, and the error mode is never entered. -/
structure Steady (m : Mode kFloors) : Prop where
  /-- No error mode. -/
  noErr : m.movingState ≠ .err
  /-- Direction of a movement. -/
  directed : m.movingState = .moving → m.inertia ≠ .none

/-- What the mode promises about the requests last reported. -/
structure Attentive (m : Mode kFloors) : Prop extends m.Steady where
  /-- An idle elevator has been told of no request. -/
  calm : m.stopped = false → m.movingState = .idle → m.prevRequests = BoolTable.zeros
  /-- Nor has a stopped one that a reset would leave idle. -/
  halted : m.stopped = true → m.doorOpen = false → m.inertia = .none →
    m.prevRequests = BoolTable.zeros

/-- A car that moves, or waits in the door mode and not behind a closed door while it is stopped,
promises nothing about the requests. -/
theorem attentive_of_busy {m : Mode kFloors}
    (busy : (m.movingState = .moving ∧ m.inertia ≠ .none) ∨ m.movingState = .doorOpen)
    (up : m.stopped = false ∨ m.doorOpen = true) : m.Attentive := by
  refine ⟨⟨fun err => ?_, fun moving => ?_⟩, fun _ idle => ?_, fun stopped closed none => ?_⟩
  · simp [err] at busy
  · simpa [moving] using busy
  · simp [idle] at busy
  · simp [stopped, closed] at up

/-- An elevator that closes its door has acted on the requests reported to it, unless it is
stopped and has no direction to resume. -/
theorem Steady.shut {m : Mode kFloors} (steady : m.Steady) {c : Controller kFloors} {floor : Int}
    (reported : m.prevRequests = c.requests)
    (closes : (c.chooseDirection floor).movingState ≠ .doorOpen)
    (kept : m.stopped = true → m.inertia = .none → (c.chooseDirection floor).movingState ≠ .moving) :
    ({ m with doorOpen := false }.execute (c.chooseDirection floor)).Attentive := by
  have away := c.chooseDirection_away closes
  unfold Mode.execute
  split_ifs with stopped
  · refine ⟨⟨steady.noErr, steady.directed⟩,
      fun running => absurd (running.symm.trans stopped) Bool.false_ne_true, fun _ _ none => ?_⟩
    rcases away with ⟨moves, _⟩ | ⟨_, empty⟩
    · exact absurd moves (kept stopped none)
    · exact reported.trans empty
  · refine ⟨⟨fun err => ?_, fun moving => ?_⟩, fun _ idle => ?_, fun stop => absurd stop stopped⟩
    · rcases away with ⟨moves, _⟩ | ⟨rests, _⟩
      · cases err.symm.trans moves
      · cases err.symm.trans rests
    · rcases away with ⟨_, turns⟩ | ⟨rests, _⟩
      · exact turns _
      · cases moving.symm.trans rests
    · rcases away with ⟨moves, _⟩ | ⟨_, empty⟩
      · cases idle.symm.trans moves
      · exact reported.trans empty

end Mode

/-- The event consumes requests that nothing will look at again. A table update finds the running
elevator idle and obstructed, so that it cannot leave. Or the elevator is stopped, has no
direction to resume, and the event leaves it behind a closed door. -/
def Drive.Drops (d : Drive kFloors) (next : Option FsmEvent) : Prop :=
  let state := d.elev.state
  let leaves := (d.controller.chooseDirection state.floor).movingState = .moving
  (state.stopped = false ∧ next = some .tableUpdate ∧ state.movingState = .idle ∧ leaves ∧
    state.obstruction = true) ∨
  (state.stopped = true ∧ d.controller.inertia = .none ∧
    ((next = some .tableUpdate ∧ state.movingState = .idle ∧ leaves ∧
        ¬ (state.obstruction = true ∧ state.doorOpen = true)) ∨
      (next = some .tableUpdate ∧ state.movingState = .doorOpen ∧ state.doorOpen = false ∧
        d.controller.requests ≠ BoolTable.zeros) ∨
      (next = some .doorTimeout ∧ state.movingState = .doorOpen ∧ state.obstruction = false ∧
        leaves)))

/-- The event due in a node consumes requests that nothing will look at again. -/
def DropsRequests (q : ElevatorNode kFloors) (now : Nat) : Prop :=
  (ElevatorNode.nextEvent q.drive now).1.Drops (ElevatorNode.nextEvent q.drive now).2

namespace Drive.Handles

variable {d : Drive kFloors} {floorSensor : Int} {m : Mode kFloors}

/-- An emergency stop keeps the promise of an elevator whose door mode has its door open. -/
theorem attentive_emergencyStop (handled : d.Handles floorSensor .emergencyStop m)
    (attentive : d.mode.Attentive) (armed : d.mode.Armed) (running : d.mode.stopped = false) :
    m.Attentive := by
  have rested : d.mode.doorOpen = false → d.mode.inertia = .none →
      d.mode.prevRequests = BoolTable.zeros := by
    intro closed none
    cases mov : d.mode.movingState with
    | idle => exact attentive.calm running mov
    | moving => exact absurd none (attentive.directed mov)
    | doorOpen => exact absurd (closed.symm.trans (armed.doorMode_open running mov)) Bool.false_ne_true
    | err => exact absurd mov attentive.noErr
  cases handled with
  | stopBetween => exact ⟨⟨by simp, by simp⟩, by simp, fun _ => rested⟩
  | stopAtFloor => exact ⟨⟨by simp, by simp⟩, by simp, by simp⟩

/-- A reset keeps the promise: behind a closed door it resumes a direction, or there was none. -/
theorem attentive_emergencyStopReset (handled : d.Handles floorSensor .emergencyStopReset m)
    (attentive : d.mode.Attentive) (stopped : d.mode.stopped = true) : m.Attentive := by
  cases handled with
  | resetOpen => exact Mode.attentive_of_busy (.inr rfl) (.inl rfl)
  | resetClosed closed =>
    have rested := attentive.halted stopped closed
    cases dir : d.mode.inertia <;>
      simp only [resumption, Mode.execute, Bool.false_eq_true, ↓reduceIte]
    case none => exact ⟨⟨by simp, by simp⟩, fun _ _ => rested dir, by simp⟩
    all_goals exact Mode.attentive_of_busy (.inl ⟨rfl, by simp [Inertia.turned]⟩) (.inl rfl)

/-- An arrival reports no requests. -/
theorem attentive_floorArrival (handled : d.Handles floorSensor .floorArrival m)
    (attentive : d.mode.Attentive) : m.Attentive := by
  cases handled with
  | arrivalStops => exact Mode.attentive_of_busy (.inr rfl) (.inr rfl)
  | arrivalPasses =>
    exact ⟨⟨attentive.noErr, attentive.directed⟩, attentive.calm, attentive.halted⟩

/-- A table update that drops no request keeps the promise about the requests it reports. -/
theorem attentive_tableUpdate (handled : d.Handles floorSensor .tableUpdate m)
    (steady : d.mode.Steady) (interlock : d.mode.Interlock)
    (reported : d.mode.prevRequests = d.mode.requests) (kept : ¬ d.Drops (some .tableUpdate)) :
    m.Attentive := by
  have rested : (d.mode.movingState = .idle →
      (d.controller.chooseDirection d.mode.floor).movingState ≠ .doorOpen) →
      d.mode.stopped = true → d.mode.doorOpen = false → d.mode.inertia = .none →
      d.mode.prevRequests = BoolTable.zeros := by
    intro closes stopped closed none
    cases mov : d.mode.movingState with
    | idle =>
      rcases d.controller.chooseDirection_away (closes mov) with ⟨leaves, _⟩ | ⟨_, empty⟩
      · exact absurd (.inr ⟨stopped, none, .inl ⟨rfl, mov, leaves, fun h =>
          absurd (closed.symm.trans h.2) Bool.false_ne_true⟩⟩) kept
      · exact reported.trans empty
    | moving => exact absurd mov (interlock.stopped_notMoving stopped)
    | doorOpen =>
      by_contra nonempty
      exact kept (.inr ⟨stopped, none, .inr (.inl ⟨rfl, mov, closed, fun empty =>
        nonempty (reported.trans empty)⟩)⟩)
    | err => exact absurd mov steady.noErr
  cases handled with
  | updateHolds doorMode _ =>
    have busy : d.mode.movingState ≠ .idle := by simp [doorMode]
    exact ⟨⟨steady.noErr, steady.directed⟩, fun _ idle => absurd idle busy,
      rested fun idle => absurd idle busy⟩
  | updateWaits busy =>
    exact ⟨steady, fun _ idle => absurd idle busy, rested fun idle => absurd idle busy⟩
  | updateOpens =>
    unfold Mode.execute
    split_ifs <;> exact Mode.attentive_of_busy (.inr rfl) (.inr rfl)
  | updateBlocked idle closes obstruction =>
    refine ⟨steady, fun running _ => ?_, rested fun _ => closes⟩
    rcases d.controller.chooseDirection_away closes with ⟨leaves, _⟩ | ⟨_, empty⟩
    · exact absurd (.inl ⟨running, rfl, idle, leaves, obstruction⟩) kept
    · exact reported.trans empty
  | updateLeaves idle closes free =>
    refine steady.shut reported closes fun stopped none leaves => ?_
    exact kept (.inr ⟨stopped, none, .inl ⟨rfl, idle, leaves, fun h =>
      absurd (free.symm.trans h.1) Bool.false_ne_true⟩⟩)

/-- A door timeout that drops no request keeps the promise about the requests reported before. -/
theorem attentive_doorTimeout (handled : d.Handles floorSensor .doorTimeout m)
    (attentive : d.mode.Attentive) (reported : d.mode.prevRequests = d.mode.requests)
    (kept : ¬ d.Drops (some .doorTimeout)) : m.Attentive := by
  have timed (running : Bool) : { d.mode with doorTimer := running }.Attentive :=
    ⟨⟨attentive.noErr, attentive.directed⟩, attentive.calm, attentive.halted⟩
  cases handled with
  | timeoutBlocked => exact timed true
  | timeoutWaits => exact timed false
  | timeoutHolds =>
    unfold Mode.execute
    split_ifs with running
    · exact timed true
    · exact Mode.attentive_of_busy (.inr rfl) (.inl (Bool.eq_false_iff.2 running))
  | timeoutLeaves free doorMode closes =>
    refine (timed false).toSteady.shut reported closes fun stopped none leaves => ?_
    exact kept (.inr ⟨stopped, none, .inr (.inr ⟨rfl, doorMode, free, leaves⟩)⟩)

/-- A floor timeout reports no requests. -/
theorem attentive_floorTimeout (handled : d.Handles floorSensor .floorTimeout m)
    (attentive : d.mode.Attentive) : m.Attentive := by
  cases handled
  exact ⟨⟨attentive.noErr, attentive.directed⟩, attentive.calm, attentive.halted⟩

end Drive.Handles

/-- The invariant behind the promise. -/
structure Mode.Watchful (m : Mode kFloors) : Prop extends m.Attentive where
  /-- Door and motor. -/
  interlock : m.Interlock
  /-- Timers. -/
  armed : m.Armed

/-- A turn takes over readings and orders without touching what the invariant speaks of. -/
theorem Mode.Watchful.frame {m m' : Mode kFloors} (inv : m.Watchful)
    (same : { m' with floor := m.floor, prevFloor := m.prevFloor, obstruction := m.obstruction,
                      requests := m.requests, opened := m.opened } = m) : m'.Watchful := by
  rw [← same] at inv
  exact ⟨⟨⟨inv.noErr, inv.directed⟩, inv.calm, inv.halted⟩, inv.interlock.frame rfl,
    inv.armed.frame rfl⟩

/-- The event that is due keeps the invariant unless it drops requests. -/
theorem watchful_of_due {d d' : Drive kFloors} {next : Option FsmEvent}
    (due : ElevatorNode.EventDue d d' next) (inv : d.mode.Watchful) (kept : ¬ d'.Drops next)
    (now : Nat) (floorSensor : Int) :
    (ElevatorNode.fsmDue d' now floorSensor next).mode.Watchful := by
  have handled (event : FsmEvent) := d'.handles_fsm now floorSensor event
  have watched (event : FsmEvent) (interlock : d'.mode.Interlock) (armed : d'.mode.Armed)
      (attentive : (d'.fsm now floorSensor event).1.mode.Attentive) :
      (d'.fsm now floorSensor event).1.mode.Watchful :=
    ⟨attentive, (handled event).interlock interlock, (handled event).armed armed⟩
  have noted (mode : d'.mode = d.mode.noted) (unchanged : d.mode.requests = d.mode.prevRequests) :
      d'.mode.Watchful := by
    rw [mode, Mode.noted, unchanged]
    exact inv.frame rfl
  have reported (mode : d'.mode = d.mode.noted) : d'.mode.prevRequests = d'.mode.requests := by
    rw [mode]
    rfl
  cases due with
  | emergencyStop button running =>
    exact watched _ inv.interlock inv.armed
      ((handled _).attentive_emergencyStop inv.toAttentive inv.armed running)
  | emergencyStopReset button stopped =>
    exact watched _ inv.interlock inv.armed
      ((handled _).attentive_emergencyStopReset inv.toAttentive stopped)
  | floorArrival mode new =>
    have seen : d'.mode.Watchful := inv.frame (by rw [mode, Mode.seen])
    exact watched _ seen.interlock seen.armed ((handled _).attentive_floorArrival seen.toAttentive)
  | tableUpdate mode same changed =>
    have interlock : d'.mode.Interlock := inv.interlock.frame (by rw [mode, Mode.noted])
    have armed : d'.mode.Armed := inv.armed.frame (by rw [mode, Mode.noted])
    have steady : d'.mode.Steady := by
      rw [mode]
      exact ⟨inv.noErr, inv.directed⟩
    exact watched _ interlock armed
      ((handled _).attentive_tableUpdate steady interlock (reported mode) kept)
  | doorTimeout mode same unchanged timer =>
    have tested := noted mode unchanged
    exact watched _ tested.interlock tested.armed
      ((handled _).attentive_doorTimeout tested.toAttentive (reported mode) kept)
  | floorTimeout mode same unchanged =>
    have tested := noted mode unchanged
    exact watched _ tested.interlock tested.armed
      ((handled _).attentive_floorTimeout tested.toAttentive)
  | none mode same unchanged => exact noted mode unchanged

/-- A turn that drops no request keeps the invariant. -/
theorem watchful_of_turn {s s' : ElevatorNode kFloors} {input : NodeInput kFloors}
    (turned : NodeStep s input s')
    (kept : ∀ q, s.due input = some q → ¬ DropsRequests q input.now)
    (inv : s.drive.mode.Watchful) : s'.drive.mode.Watchful := by
  refine ElevatorNode.turn_invariant turned _ (fun m requests inv => inv.frame rfl) ?_
  intro q d next due picked event
  have admitted := kept q due
  unfold DropsRequests at admitted
  rw [picked] at admitted
  obtain ⟨requests, mode, _⟩ := ElevatorNode.mode_of_due due
  have sampled : q.drive.mode.Watchful := by
    rw [mode]
    exact inv.frame rfl
  exact watchful_of_due event sampled admitted _ _

/-- A new node has no requests. -/
theorem watchful_init (id : Int) (signals : Signals kFloors) :
    (Drive.init id signals).mode.Watchful := by
  obtain ⟨interlock, armed⟩ := Drive.init_interlock_armed id signals
  have idle := (Drive.init_idle id signals).1
  exact ⟨⟨⟨by simp [idle], by simp [idle]⟩, fun _ _ => rfl, fun _ _ _ => rfl⟩, interlock, armed⟩

/-- A pending request does not stall, as long as no turn drops requests. At the end of every turn
of a node, if the elevator is running, unobstructed and idle while it has a request, then its
request table differs from the one last reported or the door timer is active. -/
theorem pending_request_reconsidered {nodeId : Fin kElevs} {signals : Signals kFloors}
    {trace : List (Transition (ElevatorNode kFloors) (NodeInput kFloors))}
    {s : ElevatorNode kFloors}
    (run : Run NodeStep (ElevatorNode.init nodeId signals) trace s)
    (kept : ∀ t ∈ trace, ∀ q, t.pre.due t.action = some q → ¬ DropsRequests q t.action.now) :
    ∀ t ∈ trace, t.post.drive.elev.state.stopped = false →
      t.post.drive.elev.state.obstruction = false →
      t.post.drive.elev.state.movingState = .idle →
      (∃ f b, t.post.drive.controller.requests f b = true) →
      t.post.drive.controller.requests ≠ t.post.drive.controller.prevRequests ∨
        t.post.drive.controller.doortimer.active = true := by
  refine run.forall_transitions (fun t => ∀ q, t.pre.due t.action = some q →
    ¬ DropsRequests q t.action.now) _ (fun s => s.drive.mode.Watchful) ?_ kept
    (watchful_init nodeId.val signals)
  intro s s' input turned admitted inv
  have inv' := watchful_of_turn turned admitted inv
  refine ⟨inv', fun running _ idle request => .inl fun same => ?_⟩
  obtain ⟨f, b, set⟩ := request
  have empty : s'.drive.controller.prevRequests = BoolTable.zeros := inv'.calm running idle
  dsimp only at same set
  rw [same, empty] at set
  cases set

/-- A request that comes in with an arrival is still to be reported when the turn ends. -/
theorem request_beside_arrival_pending :
    let signals : Signals Config.kFloors := { floorSensor := 1, buttons := .only 2 .cab }
    ∃ s : ElevatorNode Config.kFloors,
      NodeStep (.init 0 { floorSensor := 0 }) { now := 0, signals := signals } s ∧
      s.drive.elev.state.movingState = .idle ∧ s.drive.controller.requests 2 .cab = true ∧
      (s.drive.controller.requests ≠ s.drive.controller.prevRequests ∨
        s.drive.controller.doortimer.active = true) := by
  intro signals
  let start : ElevatorNode Config.kFloors := .init 0 { floorSensor := 0 }
  let input : NodeInput Config.kFloors := { now := 0, signals := signals }
  have passed : ((start.turn input).any (fun s =>
        decide (s.drive.elev.state.stopped = false ∧ s.drive.elev.state.obstruction = false ∧
          s.drive.elev.state.movingState = .idle ∧ s.drive.controller.requests 2 .cab = true)) &&
      (start.due input).any fun q =>
        decide ((ElevatorNode.nextEvent q.drive 0).2 = some .floorArrival)) = true := by
    decide +kernel
  simp only [Bool.and_eq_true] at passed
  obtain ⟨s, turned, outcome⟩ := (Option.any_eq_true _ _).1 passed.1
  obtain ⟨q, due, arrival⟩ := (Option.any_eq_true _ _).1 passed.2
  obtain ⟨running, clear, idle, request⟩ := of_decide_eq_true outcome
  have run : Run NodeStep start [⟨start, input, s⟩] s := .single turned
  refine ⟨s, turned, idle, request, ?_⟩
  refine pending_request_reconsidered run ?_ _ (List.mem_singleton.2 rfl) running clear idle
    ⟨2, .cab, request⟩
  intro t member q' due'
  obtain rfl := List.mem_singleton.1 member
  obtain rfl := Option.some.inj (due.symm.trans due')
  unfold DropsRequests Drive.Drops
  rw [of_decide_eq_true arrival]
  simp

/-- A cab call comes in while the obstruction switch of an idle car is on, and the switch goes off:
the call is left with nothing due that looks at it again. -/
theorem pending_request_stalls :
    ∃ (trace : List (Transition (ElevatorNode Config.kFloors) (NodeInput Config.kFloors)))
      (s : ElevatorNode Config.kFloors),
      Run NodeStep (ElevatorNode.init 0 { floorSensor := 0 }) trace s ∧
      ∃ t ∈ trace, t.post.drive.elev.state.stopped = false ∧
        t.post.drive.elev.state.obstruction = false ∧
        t.post.drive.elev.state.movingState = .idle ∧
        (∃ f b, t.post.drive.controller.requests f b = true) ∧
        ¬ (t.post.drive.controller.requests ≠ t.post.drive.controller.prevRequests ∨
          t.post.drive.controller.doortimer.active = true) := by
  let called : NodeInput Config.kFloors :=
    { now := 0, signals := { floorSensor := 0, obstruction := true, buttons := .only 2 .cab } }
  let freed : NodeInput Config.kFloors := { now := 0, signals := { floorSensor := 0 } }
  have passed : ((ElevatorNode.init 0 { floorSensor := 0 }).turn called).any (fun s =>
      (s.turn freed).any fun s' => decide (s'.drive.elev.state.stopped = false ∧
        s'.drive.elev.state.obstruction = false ∧ s'.drive.elev.state.movingState = .idle ∧
        s'.drive.controller.requests 2 .cab = true ∧
        ¬ (s'.drive.controller.requests ≠ s'.drive.controller.prevRequests ∨
          s'.drive.controller.doortimer.active = true))) = true := by
    decide +kernel
  obtain ⟨s, first, rest⟩ := (Option.any_eq_true _ _).1 passed
  obtain ⟨s', second, outcome⟩ := (Option.any_eq_true _ _).1 rest
  obtain ⟨running, clear, idle, request, stalled⟩ := of_decide_eq_true outcome
  exact ⟨_, s', (Run.single first).snoc second, _, List.mem_append_right _ (List.mem_singleton.2 rfl),
    running, clear, idle, ⟨2, .cab, request⟩, stalled⟩

end CppElevator
