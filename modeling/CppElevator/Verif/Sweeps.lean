import CppElevator.Sweep
import CppElevator.Verif.Decisions
import CppElevator.Verif.NodeEvents
import CppElevator.Verif.Orders

/-!
# Sweeps serve every order

Every event of a sweep is a step of a scanning car, so that the sweep ends, reaches at most three
times as many floors as lie between the ends of the building, and stays among its floors.
-/
namespace CppElevator

open Library

variable {kFloors : Nat}

/-- Clearing served orders clears their buttons in the request table of the node. -/
theorem toBoolTable_clearOrders (p : Peers kFloors) (floor : Fin kFloors) (b2c : ButtonFlags) :
    (p.clearOrders floor b2c).orders.toBoolTable p.nodeId.val =
      (p.orders.toBoolTable p.nodeId.val).cleared floor b2c := by
  funext f b
  by_cases served : f = floor ∧ b2c b = true
  · have gone : (p.orders.toBoolTable p.nodeId.val).cleared floor b2c f b = false := by
      simp [BoolTable.cleared, served.1, served.2]
    rw [gone]
    simp only [OrderTable.toBoolTable, Peers.clearOrders, if_pos served]
    split_ifs with cab mine
    · have cleared : ((p.orders f b).onClear.onReset).status ≠ .confirmed := by
        unfold Order.onReset
        split_ifs
        · simp
        · exact (p.orders f b).onClear_status_ne
      simp [cleared]
    · simp [(p.orders f b).onClear_status_ne]
    · simp [mine]
  · have kept : (decide (f = floor) && b2c b) = false := by
      rw [← Bool.not_eq_true, Bool.and_eq_true, decide_eq_true_eq]
      exact served
    simp only [OrderTable.toBoolTable, Peers.clearOrders, if_neg served, BoolTable.cleared, kept,
      Bool.not_false, Bool.and_true]

namespace ElevatorNode

/-- The requests of a node are the orders confirmed to it. -/
def Owns (s : ElevatorNode kFloors) : Prop :=
  s.drive.controller.requests = s.peers.orders.toBoolTable s.peers.nodeId.val

/-- At a floor of the building the orders an event serves are cleared, which shows in the requests
alone. -/
theorem event_cleared {s : ElevatorNode kFloors} {floor : Fin kFloors} (owns : s.Owns)
    (stands : s.drive.mode.floor = floor.val) (b2c : ButtonFlags) :
    ∃ s', s.event b2c = some s' ∧ s'.Owns ∧
      s'.drive.mode = { s.drive.mode with requests := s.drive.mode.requests.cleared floor b2c } := by
  have inside : (0 : Int) ≤ s.drive.elev.state.floor ∧ s.drive.elev.state.floor < kFloors := by
    have := floor.isLt
    have at_ : s.drive.elev.state.floor = floor.val := stands
    omega
  obtain ⟨peers, cleared, nodeId, orders⟩ : ∃ peers,
      clearServed s.peers s.drive.elev.state.floor b2c = some peers ∧
      peers.nodeId = s.peers.nodeId ∧ peers.orders.toBoolTable s.peers.nodeId.val =
        s.drive.controller.requests.cleared floor b2c := by
    unfold clearServed
    by_cases nothing : b2c = ButtonFlags.zeros
    · refine ⟨s.peers, if_pos nothing, rfl, ?_⟩
      rw [nothing, owns]
      exact (BoolTable.cleared_kNoClear _ _).symm
    · have here : (⟨s.drive.elev.state.floor.toNat, toNat_lt inside⟩ : Fin kFloors) = floor := by
        have at_ : s.drive.elev.state.floor = floor.val := stands
        exact Fin.ext (by simp [at_])
      refine ⟨s.peers.clearOrders floor b2c, ?_, rfl, ?_⟩
      · rw [if_neg nothing, dif_pos inside, here]
      · rw [owns]
        exact toBoolTable_clearOrders s.peers floor b2c
  have floor_ : s.drive.elev.state.incrementVersion.floor = s.drive.elev.state.floor := rfl
  refine ⟨_, by rw [event, floor_, cleared]; rfl, ?_, ?_⟩
  · change peers.orders.toBoolTable s.peers.nodeId.val =
      peers.orders.toBoolTable peers.nodeId.val
    rw [nodeId]
  · rw [show s.drive.mode.requests.cleared floor b2c = peers.orders.toBoolTable s.peers.nodeId.val
      from orders.symm]
    rfl

end ElevatorNode

/-- A motor command for a direction moves the car one floor that way. -/
theorem offset_of_next {h : Heading} {floor next : Fin kFloors} (adjacent : h.Next floor next) :
    (floor.val : Int) + h.motorDir.offset = next.val := by
  cases h <;> simp only [Heading.Next, Heading.motorDir, MotorDir.offset] at * <;> omega

namespace Drive

/-- At a standing car the table is looked at, then the door. -/
theorem sweepEvent_standing {d : Drive kFloors} (standing : d.mode.movingState ≠ .moving)
    (arrived : d.mode.prevFloor = d.mode.floor) : ∃ d', d'.mode = d.mode.noted ∧ d.sweepEvent = (d',
      if d.mode.requests ≠ d.mode.prevRequests then some .tableUpdate
      else if d.mode.doorOpen then some .doorTimeout else none) := by
  have stays : d.travel = d := if_neg standing
  have noArrival : d.elev.hitNewFloor.1 = false := by
    have same : d.elev.prevFloor = d.elev.state.floor := arrived
    simp [Elevator.hitNewFloor, same]
  refine ⟨{ elev := d.elev.hitNewFloor.2, controller := d.controller.requestTableUpdated.2 }, rfl, ?_⟩
  simp only [sweepEvent, stays, noArrival, Bool.false_eq_true, ↓reduceIte]
  by_cases changed : d.mode.requests ≠ d.mode.prevRequests
  · have updated : d.controller.requestTableUpdated.1 = true := decide_eq_true changed
    rw [if_pos updated, if_pos changed]
  · have unchanged : ¬d.controller.requestTableUpdated.1 = true := mt of_decide_eq_true changed
    have door : d.elev.hitNewFloor.2.state.doorOpen = d.mode.doorOpen := rfl
    rw [if_neg unchanged, if_neg changed, door]
    split_ifs <;> rfl

/-- A moving car arrives at the next floor. -/
theorem sweepEvent_moving {d : Drive kFloors} {h : Heading} {floor next : Fin kFloors}
    (moving : d.mode.movingState = .moving) (motor : d.mode.motorDir = h.motorDir)
    (stands : d.mode.floor = floor.val) (arrived : d.mode.prevFloor = d.mode.floor)
    (adjacent : h.Next floor next) :
    ∃ d', d'.mode = { d.mode with floor := next.val, prevFloor := next.val } ∧
      d.sweepEvent = (d', some .floorArrival) := by
  have reached : d.elev.state.floor + d.elev.state.motorDir.offset = next.val := by
    rw [← offset_of_next adjacent]
    exact congrArg₂ (· + ·) stands (congrArg MotorDir.offset motor)
  have travels : d.travel = { d with elev := { d.elev with state := { d.elev.state with
      floor := (next.val : Int) } } } := by
    rw [← reached]
    exact if_pos moving
  have hit : d.travel.elev.hitNewFloor.1 = true := by
    have before : d.elev.prevFloor = floor.val := arrived.trans stands
    have apart : (next.val : Int) ≠ floor.val := by
      have := adjacent.reach
      intro same
      rw [Fin.ext (Int.ofNat.inj same)] at this
      omega
    have inside : (next.val : Int) ≠ Config.kBetweenFloors := by
      unfold Config.kBetweenFloors
      omega
    simp only [travels, Elevator.hitNewFloor, before, Bool.and_eq_true, decide_eq_true_eq]
    exact ⟨apart, inside⟩
  refine ⟨{ d.travel with elev := d.travel.elev.hitNewFloor.2 }, ?_, ?_⟩
  · rw [travels]
    rfl
  · simp only [sweepEvent, hit, ↓reduceIte]

end Drive

namespace Mode

/-- What the mode says in each phase of a scanning car. -/
def Doing (m : Mode kFloors) (floor : Fin kFloors) : Phase → Prop
  | .waiting => m.movingState = .idle ∧ m.doorOpen = false ∧ m.requests ≠ m.prevRequests
  | .held noted => m.movingState = .doorOpen ∧ m.doorOpen = true ∧
      noted = decide (m.requests = m.prevRequests)
  | .moving => m.movingState = .moving ∧ m.doorOpen = false ∧ ∃ h, m.inertia.heading = some h ∧
      m.motorDir = h.motorDir ∧ ∃ c ∈ m.requests.calls, h.Ahead floor c.1
  | .resting => m.movingState = .idle ∧ m.doorOpen = false ∧ m.motorDir = .stop ∧
      m.requests = BoolTable.zeros ∧ m.requests = m.prevRequests

/-- An undisturbed car stands where a scanning car does, with the same heading and calls. -/
structure At (m : Mode kFloors) (a : Scan kFloors BtnType) : Prop where
  /-- The floors agree. -/
  floor : m.floor = a.floor.val
  /-- The headings agree. -/
  heading : m.inertia.heading = a.heading
  /-- The calls agree. -/
  calls : m.requests.calls = a.calls
  /-- The arrival at the floor has been handled. -/
  arrived : m.prevFloor = m.floor
  /-- No emergency stop is in force. -/
  running : m.stopped = false
  /-- The door is not obstructed. -/
  free : m.obstruction = false

/-- An undisturbed car does what a scanning car does. -/
structure Scans (m : Mode kFloors) (a : Scan kFloors BtnType) : Prop extends m.At a where
  /-- The phases agree. -/
  doing : m.Doing a.floor a.phase

variable {m : Mode kFloors} {a : Scan kFloors BtnType}

/-- A running elevator carries out every decision. -/
theorem execute_of_running (running : m.stopped = false) (pair : DirMovPair) : m.execute pair =
    { m with motorDir := pair.motorDir, movingState := pair.movingState,
             floorTimer := decide (pair.movingState = .moving),
             inertia := m.inertia.turned pair.motorDir } := by
  rw [execute, running]
  rfl

/-- Carrying out a decision makes no call. -/
theorem execute_requests (m : Mode kFloors) (pair : DirMovPair) :
    (m.execute pair).requests = m.requests := by
  unfold execute
  split_ifs <;> rfl

/-- Looking at the table leaves the car where it is. -/
theorem At.noted (at_ : m.At a) : m.noted.At a := { at_ with arrived := rfl }

/-- The door is held open and the table has been looked at. -/
structure Holding (m : Mode kFloors) (a : Scan kFloors BtnType) : Prop extends m.At a where
  /-- The elevator is in the door mode. -/
  doorMode : m.movingState = .doorOpen
  /-- The door is open. -/
  open_ : m.doorOpen = true
  /-- The table has been looked at. -/
  seen : m.requests = m.prevRequests

/-- The door is closed for a decision and the table has been looked at. -/
structure Leaving (m : Mode kFloors) (a : Scan kFloors BtnType) : Prop extends m.At a where
  /-- The door is closed. -/
  closed : m.doorOpen = false
  /-- The table has been looked at. -/
  seen : m.requests = m.prevRequests

/-- A car with an open door that decides to open it holds it. -/
theorem At.holding (at_ : m.At a) (open_ : m.doorOpen = true)
    (seen : m.requests = m.prevRequests) : (m.execute ⟨.stop, .doorOpen⟩).Holding a := by
  rw [execute_of_running at_.running]
  exact { at_ with doorMode := rfl, open_ := open_, seen := seen }

/-- A decision other than to open the door is one a scanning car may take. -/
theorem Leaving.follows (leaving : m.Leaving a) {pair : DirMovPair}
    (decides : a.phase.decides = true)
    (decision : Decides m.inertia.heading m.requests.calls a.floor pair)
    (closes : pair.movingState ≠ .doorOpen) :
    ∃ a', ScanStep hallAgainst a false a' ∧ (m.execute pair).Scans a' := by
  have at_ := leaving.toAt
  have closed := leaving.closed
  rw [execute_of_running at_.running]
  cases decision with
  | @starts h c fresh called ahead =>
    refine ⟨_, .starts decides (at_.heading ▸ fresh) (at_.calls ▸ called) ahead, ?_⟩
    exact { at_ with
      heading := m.inertia.heading_turned h,
      doing := ⟨rfl, closed, h, m.inertia.heading_turned h, rfl, c, called, ahead⟩ }
  | @departs h c kept called ahead =>
    refine ⟨_, .departs decides (at_.heading ▸ kept) (at_.calls ▸ called) ahead, ?_⟩
    exact { at_ with
      heading := (m.inertia.heading_turned h).trans (kept.symm.trans at_.heading),
      doing := ⟨rfl, closed, h, m.inertia.heading_turned h, rfl, c, called, ahead⟩ }
  | @turns h c left called behind =>
    refine ⟨_, .turns decides (at_.heading ▸ left) (at_.calls ▸ called)
      (at_.calls ▸ behind), ?_⟩
    exact { at_ with
      heading := m.inertia.heading_turned h.flip,
      doing := ⟨rfl, closed, h.flip, m.inertia.heading_turned h.flip, rfl, c, called,
        behind c called⟩ }
  | opens => exact absurd rfl closes
  | rests empty =>
    refine ⟨_, .rests decides (at_.calls ▸ empty), ?_⟩
    have zeros : m.requests = BoolTable.zeros :=
      BoolTable.eq_of_calls_eq (empty.trans (by ext; simp [BoolTable.zeros]))
    exact { at_ with doing := ⟨rfl, closed, rfl, zeros, leaving.seen⟩ }

/-- A car that holds its door open serves calls. -/
theorem Holding.serves (holding : m.Holding a) {b2c : ButtonFlags}
    (stands : a.phase = .waiting ∨ ∃ noted, a.phase = .held noted)
    (fewer : (m.requests.cleared a.floor b2c).calls ⊂ m.requests.calls) :
    ∃ a', ScanStep hallAgainst a false a' ∧
      { m with requests := m.requests.cleared a.floor b2c }.Scans a' := by
  refine ⟨_, .serves stands (holding.calls ▸ fewer), ?_⟩
  have changed : m.requests.cleared a.floor b2c ≠ m.prevRequests := by
    intro same
    rw [same, ← holding.seen] at fewer
    exact fewer.ne rfl
  exact { holding with
    calls := rfl,
    doing := ⟨holding.doorMode, holding.open_, (decide_eq_false changed).symm⟩ }

/-- A car that holds its door open has looked at the calls left, or serves some. -/
theorem Holding.notes (holding : m.Holding a) (b2c : ButtonFlags) (held : a.phase = .held false) :
    ∃ a', ScanStep hallAgainst a false a' ∧
      { m with requests := m.requests.cleared a.floor b2c }.Scans a' := by
  have fewer := m.requests.calls_cleared_subset a.floor b2c
  by_cases left : (m.requests.cleared a.floor b2c).calls = m.requests.calls
  · rw [BoolTable.eq_of_calls_eq left]
    exact ⟨_, .notes held, { holding with
      doing := ⟨holding.doorMode, holding.open_, (decide_eq_true holding.seen).symm⟩ }⟩
  · exact holding.serves (.inr ⟨false, held⟩) (Finset.ssubset_iff_subset_ne.2 ⟨fewer, left⟩)

/-- A car that stops at the next floor leaves there only calls against its heading. -/
theorem At.stops {h : Heading} {next : Fin kFloors} {b2c : ButtonFlags}
    (at_ : m.At { a with floor := next }) (moving : a.phase = .moving) (taken : a.heading = some h)
    (adjacent : h.Next a.floor next) (doorMode : m.movingState = .doorOpen)
    (open_ : m.doorOpen = true)
    (left : ∀ c ∈ (m.requests.cleared next b2c).calls, c.1 = next → c.2 = hallAgainst h) :
    ∃ a', ScanStep hallAgainst a true a' ∧
      { m with requests := m.requests.cleared next b2c }.Scans a' := by
  have fewer : (m.requests.cleared next b2c).calls ⊆ a.calls := by
    rw [← at_.calls]
    exact m.requests.calls_cleared_subset next b2c
  refine ⟨_, @ScanStep.stops _ _ _ a h next _
    (decide (m.requests.cleared next b2c = m.prevRequests)) moving taken adjacent fewer left, ?_⟩
  exact { at_ with calls := rfl, doing := ⟨doorMode, open_, rfl⟩ }

/-- A car that passes the next floor has a call ahead. -/
theorem At.passes {h : Heading} {next : Fin kFloors} {call : Fin kFloors × BtnType}
    (at_ : m.At { a with floor := next }) (moving : a.phase = .moving) (taken : a.heading = some h)
    (adjacent : h.Next a.floor next) (moves : m.movingState = .moving)
    (closed : m.doorOpen = false) (driven : m.motorDir = h.motorDir)
    (against : ∀ c ∈ m.requests.calls, c.1 = next → c.2 = hallAgainst h)
    (called : call ∈ m.requests.calls) (ahead : h.Ahead next call.1) :
    ∃ a', ScanStep hallAgainst a true a' ∧ m.Scans a' := by
  refine ⟨_, .passes moving taken adjacent (at_.calls ▸ against) (at_.calls ▸ called) ahead, ?_⟩
  have heading : m.inertia.heading = some h := at_.heading.trans taken
  exact { at_ with
    doing := by
      rw [moving]
      exact ⟨moves, closed, h, heading, driven, call, called, ahead⟩ }

end Mode

/-- The node drives an undisturbed car that does what a scanning car does. -/
structure ElevatorNode.Scans (s : ElevatorNode kFloors) (a : Scan kFloors BtnType) : Prop where
  /-- The requests are the orders confirmed to this elevator. -/
  owns : s.Owns
  /-- The car does what a scanning car does. -/
  mode : s.drive.mode.Scans a

namespace ElevatorNode.Scans

variable {s : ElevatorNode kFloors} {a : Scan kFloors BtnType}

/-- A node steps as a scanning car does. -/
def Follows (s : ElevatorNode kFloors) (a : Scan kFloors BtnType) (now : Nat) (arrival : Bool) : Prop :=
  ∃ s' a', s.sweep now = some s' ∧ ScanStep hallAgainst a arrival a' ∧ s'.Scans a'

/-- The event that is due is handled and the orders it serves are cleared; the node follows where
the mode this leaves is matched. -/
theorem follows_of_due {d : Drive kFloors} {event : FsmEvent} {now : Nat} {floor : Fin kFloors}
    {result : Drive kFloors × ButtonFlags} {arrival : Bool} (owns : s.Owns)
    (due : s.drive.sweepEvent = (d, some event))
    (handled : d.fsm now d.elev.state.floor event = result)
    (stands : result.1.mode.floor = floor.val)
    (same : result.1.mode.requests = s.drive.mode.requests)
    (matched : ∃ a', ScanStep hallAgainst a arrival a' ∧
      { result.1.mode with requests := result.1.mode.requests.cleared floor result.2 }.Scans a') :
    Follows s a now arrival := by
  have owns' : ({ s with drive := result.1 } : ElevatorNode kFloors).Owns := same.trans owns
  obtain ⟨s', done, owned, mode⟩ := event_cleared owns' stands result.2
  obtain ⟨a', step, scans⟩ := matched
  refine ⟨s', a', ?_, step, owned, mode ▸ scans⟩
  simp only [sweep, due, handled]
  exact done

/-- A decision to open the door serves calls. -/
theorem follows_of_opens {d : Drive kFloors} {event : FsmEvent} {now : Nat}
    {result : Drive kFloors × ButtonFlags} (owns : s.Owns)
    (due : s.drive.sweepEvent = (d, some event))
    (handled : d.fsm now d.elev.state.floor event = result) (at_ : d.mode.At a)
    (same : d.mode.requests = s.drive.mode.requests)
    (stands : a.phase = .waiting ∨ ∃ noted, a.phase = .held noted)
    (opens : d.controller.chooseDirection d.mode.floor = ⟨.stop, .doorOpen⟩)
    (holding : result.1.mode.Holding a) (kept : result.1.mode.requests = d.mode.requests)
    (buttons : result.2 = d.controller.clearCurrentFloor d.mode.floor) : Follows s a now false := by
  refine follows_of_due owns due handled holding.floor (kept.trans same) ?_
  refine holding.serves stands ?_
  rw [kept, buttons, at_.floor]
  exact Controller.calls_served_ssubset (at_.floor ▸ opens)

/-- A decision behind a closed door is carried out. -/
theorem follows_of_leaves {d : Drive kFloors} {event : FsmEvent} {now : Nat} {m : Mode kFloors}
    {result : Drive kFloors × ButtonFlags} (owns : s.Owns)
    (due : s.drive.sweepEvent = (d, some event))
    (handled : d.fsm now d.elev.state.floor event = result)
    (same : m.requests = s.drive.mode.requests) (decides : a.phase.decides = true)
    (decision : Decides m.inertia.heading m.requests.calls a.floor
      (d.controller.chooseDirection d.mode.floor))
    (closes : (d.controller.chooseDirection d.mode.floor).movingState ≠ .doorOpen)
    (leaving : m.Leaving a)
    (mode : result.1.mode = m.execute (d.controller.chooseDirection d.mode.floor))
    (buttons : result.2 = kNoClear) : Follows s a now false := by
  obtain ⟨a', step, follows⟩ := leaving.follows decides decision closes
  rw [← mode] at follows
  have kept : result.1.mode.requests = s.drive.mode.requests := by
    rw [mode, Mode.execute_requests, same]
  refine follows_of_due owns due handled (follows.floor) kept ⟨a', step, ?_⟩
  rw [buttons, BoolTable.cleared_kNoClear]
  exact follows

/-- What a standing car finds when it looks for an event. -/
theorem standing (scans : s.Scans a) (moves : s.drive.mode.movingState ≠ .moving) :
    ∃ d, d.mode = s.drive.mode.noted ∧ d.mode.At a ∧ s.drive.sweepEvent = (d,
      if s.drive.mode.requests ≠ s.drive.mode.prevRequests then some .tableUpdate
      else if s.drive.mode.doorOpen then some .doorTimeout else none) := by
  obtain ⟨d, noted, due⟩ := Drive.sweepEvent_standing moves scans.mode.arrived
  exact ⟨d, noted, noted ▸ scans.mode.toAt.noted, due⟩

/-- An idle car looks at its calls: it opens the door, leaves or rests. -/
theorem follows_waiting (scans : s.Scans a) (waiting : a.phase = .waiting) (now : Nat) :
    s.drive.sweepEvent.2 = some .tableUpdate ∧ Follows s a now false := by
  have doing := scans.mode.doing
  rw [waiting] at doing
  obtain ⟨idle, closed, changed⟩ := doing
  obtain ⟨d, noted, at_, due⟩ := scans.standing (by rw [idle]; decide)
  rw [if_pos changed] at due
  refine ⟨by rw [due], ?_⟩
  have idle' : d.mode.movingState = .idle := by rw [noted]; exact idle
  have seen : d.mode.requests = d.mode.prevRequests := by rw [noted]; rfl
  have same : d.mode.requests = s.drive.mode.requests := by rw [noted]; rfl
  rcases d.fsmTableUpdate_cases now with
    ⟨doorMode, _⟩ | ⟨busy, _⟩ | ⟨_, opens, mode⟩ | ⟨_, closes, mode, buttons⟩
  · cases idle'.symm.trans doorMode
  · exact absurd idle' busy
  · refine follows_of_opens scans.owns due rfl at_ same (.inl waiting) opens ?_ ?_
      (Drive.fsmTableUpdate_opens_buttons now idle' opens)
    · exact mode ▸ Mode.At.holding (m := d.mode.holdDoor) { at_ with } rfl seen
    · exact (congrArg Mode.requests mode).trans (Mode.execute_requests _ _)
  · rw [at_.free, if_neg Bool.false_ne_true] at mode
    have decision := d.controller.decides_chooseDirection a.floor
    rw [← at_.floor] at decision
    exact follows_of_leaves (m := { d.mode with doorOpen := false }) scans.owns due rfl same
      (by rw [waiting]; rfl) decision closes { at_ with closed := rfl, seen := seen } mode buttons

/-- A car at its open door looks at the calls left: it serves more of them or waits. -/
theorem follows_held (scans : s.Scans a) (held : a.phase = .held false) (now : Nat) :
    s.drive.sweepEvent.2 = some .tableUpdate ∧ Follows s a now false := by
  have doing := scans.mode.doing
  rw [held] at doing
  obtain ⟨doorMode, open_, changed⟩ := doing
  obtain ⟨d, noted, at_, due⟩ := scans.standing (by rw [doorMode]; decide)
  rw [if_pos (of_decide_eq_false changed.symm)] at due
  refine ⟨by rw [due], ?_⟩
  have same : d.mode.requests = s.drive.mode.requests := by rw [noted]; rfl
  have holding : d.mode.Holding a :=
    { at_ with
      doorMode := by rw [noted]; exact doorMode
      open_ := by rw [noted]; exact open_
      seen := by rw [noted]; rfl }
  rcases d.fsmTableUpdate_cases now with
    ⟨_, _, mode, _⟩ | ⟨_, mode, _⟩ | ⟨idle, _⟩ | ⟨idle, _⟩
  · have holding' : (d.fsmTableUpdate now).1.mode.Holding a := mode ▸ { holding with }
    exact follows_of_due scans.owns due rfl holding'.floor
      ((congrArg Mode.requests mode).trans same) (holding'.notes _ held)
  · have holding' : (d.fsmTableUpdate now).1.mode.Holding a := mode ▸ holding
    exact follows_of_due scans.owns due rfl holding'.floor
      ((congrArg Mode.requests mode).trans same) (holding'.notes _ held)
  · cases idle.symm.trans holding.doorMode
  · cases idle.symm.trans holding.doorMode

/-- The door of a car that has looked at its calls times out: it serves a call, leaves or rests. -/
theorem follows_noted (scans : s.Scans a) (held : a.phase = .held true) (now : Nat) :
    s.drive.sweepEvent.2 = some .doorTimeout ∧ Follows s a now false := by
  have doing := scans.mode.doing
  rw [held] at doing
  obtain ⟨doorMode, open_, unchanged⟩ := doing
  obtain ⟨d, noted, at_, due⟩ := scans.standing (by rw [doorMode]; decide)
  rw [if_neg (not_not.2 (of_decide_eq_true unchanged.symm)), if_pos open_] at due
  refine ⟨by rw [due], ?_⟩
  have same : d.mode.requests = s.drive.mode.requests := by rw [noted]; rfl
  have seen : d.mode.requests = d.mode.prevRequests := by rw [noted]; rfl
  have doorMode' : d.mode.movingState = .doorOpen := by rw [noted]; exact doorMode
  have open' : d.mode.doorOpen = true := by rw [noted]; exact open_
  rcases d.fsmDoorTimeout_cases now with
    ⟨blocked, _⟩ | ⟨_, busy, _⟩ | ⟨_, _, opens, mode, buttons⟩ | ⟨_, _, closes, mode, buttons⟩
  · exact absurd (at_.free.symm.trans blocked) Bool.false_ne_true
  · exact absurd doorMode' busy
  · refine follows_of_opens scans.owns due rfl at_ same (.inr ⟨true, held⟩) opens ?_ ?_ buttons
    · exact mode ▸ Mode.At.holding (m := { d.mode with doorTimer := true }) { at_ with } open' seen
    · exact (congrArg Mode.requests mode).trans (Mode.execute_requests _ _)
  · have decision := d.controller.decides_chooseDirection a.floor
    rw [← at_.floor] at decision
    exact follows_of_leaves (m := { d.mode with doorTimer := false, doorOpen := false }) scans.owns
      due rfl same (by rw [held]; rfl) decision closes { at_ with closed := rfl, seen := seen } mode
      buttons

/-- A moving car reaches the next floor: it passes, or stops and opens the door. -/
theorem follows_moving (scans : s.Scans a) (moving : a.phase = .moving) (now : Nat) :
    s.drive.sweepEvent.2 = some .floorArrival ∧ Follows s a now true := by
  have doing := scans.mode.doing
  rw [moving] at doing
  obtain ⟨moves, closed, h, heading, motor, c, called, ahead⟩ := doing
  obtain ⟨next, adjacent⟩ := Heading.exists_next ahead
  obtain ⟨d, mode, due⟩ :=
    Drive.sweepEvent_moving moves motor scans.mode.floor scans.mode.arrived adjacent
  refine ⟨by rw [due], ?_⟩
  have heading' : d.mode.inertia.heading = some h := by rw [mode]; exact heading
  have same : d.mode.requests = s.drive.mode.requests := by rw [mode]
  have floor : d.mode.floor = next.val := by rw [mode]
  have calls : d.mode.requests.calls = a.calls := by rw [same, scans.mode.calls]
  have taken : a.heading = some h := scans.mode.heading.symm.trans heading
  have at_ : d.mode.At { a with floor := next } :=
    { floor := floor, heading := heading'.trans taken.symm, calls := calls,
      arrived := by rw [mode], running := by rw [mode]; exact scans.mode.running,
      free := by rw [mode]; exact scans.mode.free }
  rcases d.fsmFloorArrival_cases now with ⟨_, _, result, buttons⟩ | ⟨passes, result, buttons⟩
  · have at' : (d.fsmFloorArrival now).1.mode.At { a with floor := next } := result ▸ { at_ with }
    have kept : (d.fsmFloorArrival now).1.mode.requests = d.mode.requests := by
      rw [result]
      rfl
    refine follows_of_due scans.owns due rfl at'.floor (kept.trans same) ?_
    refine at'.stops moving taken adjacent (congrArg Mode.movingState result)
      (congrArg Mode.doorOpen result) fun c left here => ?_
    change c ∈ ((d.fsmFloorArrival now).1.mode.requests.cleared next
      (d.fsmFloorArrival now).2).calls at left
    rw [kept, buttons, at_.floor] at left
    obtain ⟨h', eq, against⟩ := Controller.against_of_left left here
    rwa [Option.some.inj (heading'.symm.trans eq)]
  · have arriving : d.mode.movingState = .moving := by rw [mode]; exact moves
    have passes := passes.resolve_left (not_not.2 arriving)
    rw [at_.floor] at passes
    obtain ⟨h', eq, ⟨call, called, ahead⟩, against⟩ := Controller.of_shouldStop_false passes
    obtain rfl := Option.some.inj (heading'.symm.trans eq)
    -- an end floor is never passed, so that the motor is left on
    have driven : d.mode.arrive.motorDir = h.motorDir := by
      have above := adjacent.inside ahead
      have below := next.isLt
      have inside : ¬(d.mode.floor = 0 ∨ d.mode.floor = kFloors) := by
        rw [at_.floor]
        dsimp only
        omega
      rw [Mode.arrive, if_neg inside, mode]
      exact motor
    have at' : d.mode.arrive.At { a with floor := next } := { at_ with }
    refine follows_of_due scans.owns due rfl (congrArg Mode.floor result |>.trans at_.floor)
      ((congrArg Mode.requests result).trans same) ?_
    change ∃ a', ScanStep hallAgainst a true a' ∧ ({ (d.fsmFloorArrival now).1.mode with
      requests := (d.fsmFloorArrival now).1.mode.requests.cleared next
        (d.fsmFloorArrival now).2 } : Mode kFloors).Scans a'
    rw [buttons, BoolTable.cleared_kNoClear, result]
    exact at'.passes moving taken adjacent arriving (by rw [mode]; exact closed) driven against
      called ahead

/-- Until the car rests there is an event to handle, and handling it is a step of a scanning
car. -/
theorem step (scans : s.Scans a) (busy : a.phase ≠ .resting) (now : Nat) : ∃ s' a',
    SweepStep s now s' ∧ ScanStep hallAgainst a (reachesFloor ⟨s, now, s'⟩) a' ∧ s'.Scans a' := by
  have label {event : FsmEvent} {arrival : Bool} (due : s.drive.sweepEvent.2 = some event)
      (arrives : arrival = decide (event = .floorArrival)) (follows : Follows s a now arrival) :
      ∃ s' a', SweepStep s now s' ∧
        ScanStep hallAgainst a (reachesFloor ⟨s, now, s'⟩) a' ∧ s'.Scans a' := by
    obtain ⟨s', a', swept, step, scans'⟩ := follows
    have same : reachesFloor ⟨s, now, s'⟩ = arrival := by
      simp only [reachesFloor, due, Option.some.injEq, arrives]
    exact ⟨s', a', swept, same ▸ step, scans'⟩
  cases phase : a.phase with
  | waiting =>
    obtain ⟨due, follows⟩ := scans.follows_waiting phase now
    exact label due rfl follows
  | held noted =>
    cases noted with
    | false =>
      obtain ⟨due, follows⟩ := scans.follows_held phase now
      exact label due rfl follows
    | true =>
      obtain ⟨due, follows⟩ := scans.follows_noted phase now
      exact label due rfl follows
  | moving =>
    obtain ⟨due, follows⟩ := scans.follows_moving phase now
    exact label due rfl follows
  | resting => exact absurd phase busy

/-- A resting car has ended its sweep. -/
theorem swept (scans : s.Scans a) (resting : a.phase = .resting) : Swept s := by
  have doing := scans.mode.doing
  rw [resting] at doing
  obtain ⟨idle, closed, halted, empty, seen⟩ := doing
  obtain ⟨d, _, _, due⟩ := scans.standing (by rw [idle]; decide)
  rw [if_neg (not_not.2 seen), if_neg (by rw [closed]; decide)] at due
  exact { served := scans.owns.symm.trans empty, empty := empty, idle := idle, closed := closed,
          halted := halted, quiet := by rw [due] }

/-- Every event of a sweep is a step of a scanning car. -/
theorem matched (scans : s.Scans a) {now : Nat} {s' : ElevatorNode kFloors}
    (step : SweepStep s now s') :
    ∃ a', ScanStep hallAgainst a (reachesFloor ⟨s, now, s'⟩) a' ∧ s'.Scans a' := by
  have busy : a.phase ≠ .resting := by
    intro resting
    obtain ⟨d, due⟩ : ∃ d, s.drive.sweepEvent = (d, none) :=
      ⟨_, Prod.ext rfl (scans.swept resting).quiet⟩
    simp only [SweepStep, sweep, due, reduceCtorEq] at step
  obtain ⟨s'', a', step', scanned, scans'⟩ := scans.step busy now
  obtain rfl := Option.some.inj (step.symm.trans step')
  exact ⟨a', scanned, scans'⟩

end ElevatorNode.Scans

/-- The scanning car at the start of a sweep. -/
def SweepStart.car {s : ElevatorNode kFloors} (start : SweepStart s) : Scan kFloors BtnType where
  floor := ⟨s.drive.elev.state.floor.toNat, toNat_lt start.atFloor⟩
  heading := s.drive.controller.inertia.heading
  calls := s.drive.controller.requests.calls
  phase := .waiting

/-- A sweep starts as a scanning car does. -/
theorem SweepStart.scans {s : ElevatorNode kFloors} (start : SweepStart s) : s.Scans start.car where
  owns := start.own
  mode :=
    { floor := (Int.toNat_of_nonneg start.atFloor.1).symm
      heading := rfl
      calls := rfl
      arrived := start.arrived
      running := start.running
      free := start.free
      doing := ⟨start.idle, start.closed, start.unseen⟩ }

/-- A sweep stays in the building, arrives at most three times as often as there are floors
between the ends, handles only so many events, and has one to handle until every order is served
and the car is idle behind a closed door. Whatever the clock reads, it gets there. -/
theorem sweep_serves_everything {s : ElevatorNode kFloors} (start : SweepStart s) :
    (∀ {trace : List (Transition (ElevatorNode kFloors) Nat)} {s' : ElevatorNode kFloors},
      Run SweepStep s trace s' →
        (0 ≤ s'.drive.elev.state.floor ∧ s'.drive.elev.state.floor < kFloors) ∧
        trace.countP reachesFloor ≤ 3 * (kFloors - 1) ∧ trace.length ≤ 24 * kFloors ∧
        (Swept s' ∨ ∀ now, ∃ s'', SweepStep s' now s'')) ∧
    ∀ clock : Nat → Nat, ∃ trace s', Run SweepStep s trace s' ∧
      trace.map Transition.action = (List.range trace.length).map clock ∧ Swept s' := by
  constructor
  · intro trace s' run
    obtain ⟨trace', a', scanned, labels, scans⟩ := run.refines ElevatorNode.Scans reachesFloor
      (fun step scans => scans.matched step) start.scans
    have arrivals : trace.countP reachesFloor = trace'.countP Transition.action := by
      have counts := congrArg (List.countP id) labels
      rw [List.countP_map, List.countP_map] at counts
      exact counts.symm
    have length : trace.length = trace'.length := by
      simpa using (congrArg List.length labels).symm
    refine ⟨?_, ?_, ?_, ?_⟩
    · have stands : s'.drive.elev.state.floor = a'.floor.val := scans.mode.floor
      have := a'.floor.isLt
      omega
    · rw [arrivals]
      exact scan_arrivals_le hallAgainst_injective scanned
    · have bound := scan_length_le hallAgainst_injective scanned
      have floors := start.car.floorsLeft_le .first
      have calls : start.car.calls.card ≤ 3 * kFloors :=
        BoolTable.card_calls_le s.drive.controller.requests
      have stage : start.car.phase.stage = 3 := rfl
      have high := start.car.floor.isLt
      unfold Scan.stepsLeft at bound
      omega
    · by_cases resting : a'.phase = .resting
      · exact .inl (scans.swept resting)
      · refine .inr fun now => ?_
        obtain ⟨s'', _, step, _⟩ := scans.step resting now
        exact ⟨s'', step⟩
  · intro clock
    refine Run.completes (fun s n => ∃ a leg, s.Scans a ∧ a.OnLeg hallAgainst leg ∧
      a.stepsLeft leg = n) Swept ?_ clock ⟨start.car, .first, start.scans, trivial, rfl⟩
    rintro s n ⟨a, leg, scans, on, rfl⟩
    by_cases resting : a.phase = .resting
    · exact .inl (scans.swept resting)
    · refine .inr fun now => ?_
      obtain ⟨s', a', step, scanned, scans'⟩ := scans.step resting now
      obtain ⟨leg', on', _, fewer⟩ := scanned.progress hallAgainst_injective on
      exact ⟨s', _, step, ⟨a', leg', scans', on', rfl⟩, fewer⟩

/-- A car at the third floor of the configured building that last moved up, with cab calls to both
ends and a call up from the second floor, which it passes on its way down. -/
def opposingCalls : ElevatorNode Config.kFloors :=
  let called : BoolTable Config.kFloors := fun f b =>
    f = 0 && b = .cab || f = 1 && b = .hallUp || f = 3 && b = .cab
  { peers := { nodeId := 0, orders := fun f b =>
      if called f b then { status := .confirmed, assignedId := 0, version := 2 } else {} }
    drive := {
      controller := { requests := called, inertia := .up }
      elev := {
        state := { id := 0, floor := 2, active := true, obstruction := false, inertia := .up }
        prevFloor := 2 } } }

/-- The calls are served on the way up, down and up again. -/
theorem sweep_serves_everything_opposing : ∃ trace s', Run SweepStep opposingCalls trace s' ∧
    trace.countP reachesFloor ≤ 9 ∧ Swept s' := by
  obtain ⟨bounds, complete⟩ := sweep_serves_everything (s := opposingCalls)
    { own := by decide, unseen := by decide, atFloor := by decide, arrived := rfl, idle := rfl,
      closed := rfl, running := rfl, free := rfl }
  obtain ⟨trace, s', run, _, swept⟩ := complete (fun i => 3000 * i)
  exact ⟨trace, s', run, (bounds run).2.1, swept⟩

end CppElevator
