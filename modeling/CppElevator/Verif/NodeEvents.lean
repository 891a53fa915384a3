import CppElevator.Library.Transition
import CppElevator.Node
import CppElevator.Verif.ControllerEvents

/-!
# What a turn of a node can do

A turn samples the hardware and the orders, looks for at most one event, lets the controller
handle it and publishes the result. The lemmas say what each part does to the mode, and under
which guard each event is due.
-/
namespace CppElevator

open Library

variable {kFloors : Nat}

namespace Mode

/-- The mode after sampling the hardware and taking over the confirmed orders. -/
def sample (m : Mode kFloors) (floorSensor : Int) (obstruction : Bool)
    (requests : BoolTable kFloors) : Mode kFloors :=
  { m with floor := if floorSensor < 0 ∨ (kFloors : Int) ≤ floorSensor then m.floor else floorSensor,
           obstruction := obstruction, requests := requests, opened := false }

/-- The mode after an arrival is looked for. -/
def seen (m : Mode kFloors) : Mode kFloors := { m with prevFloor := m.floor }

/-- The sensor has read no floor other than the last one. -/
def NoArrival (m : Mode kFloors) : Prop := m.floor = m.prevFloor ∨ m.floor = Config.kBetweenFloors

/-- The mode after a table update is looked for. -/
def noted (m : Mode kFloors) : Mode kFloors :=
  { m with prevFloor := m.floor, prevRequests := m.requests }

end Mode

namespace ElevatorNode

/-- Packets do not reach the drive. -/
theorem receive_drive (s : ElevatorNode kFloors) (packets : List (Nat × ReceivedPacket kFloors)) :
    (s.receive packets).drive = s.drive := by
  unfold receive
  induction packets generalizing s with
  | nil => rfl
  | cons packet packets ih =>
    rw [List.foldl_cons, ih]
    rfl

/-- A turn samples the hardware and the orders, then handles the event that is due. -/
theorem turn_cases {s s' : ElevatorNode kFloors} {input : NodeInput kFloors}
    (turned : s.turn input = some s') : ∃ q, s.due input = some q ∧
      q.handleEvent input.now input.stopSensor = some s' :=
  Option.bind_eq_some_iff.1 turned

/-- Sampling the hardware. -/
theorem mode_sample (d : Drive kFloors) (signals : Signals kFloors) :
    ({ d with elev := d.elev.step signals } : Drive kFloors).mode =
      d.mode.sample signals.floorSensor signals.obstruction d.mode.requests := by
  unfold Drive.mode Mode.sample Elevator.step ElevatorState.setFloor
  split_ifs <;> simp

/-- Taking over the orders shows in the request table alone. -/
theorem mode_syncPeers (s : ElevatorNode kFloors) : ∃ requests,
    s.syncPeers.drive.mode = { s.drive.mode with requests := requests } := ⟨_, rfl⟩

/-- The mode in which a turn looks for an event. -/
theorem mode_of_due {s q : ElevatorNode kFloors} {input : NodeInput kFloors}
    (due : s.due input = some q) : ∃ requests,
      q.drive.mode = s.drive.mode.sample input.signals.floorSensor input.signals.obstruction requests ∧
      q.drive.elev.stopPressed = pressed input.signals.stop s.drive.elev.stopButton := by
  obtain ⟨synced, sync, rfl⟩ := Option.map_eq_some_iff.1 due
  obtain ⟨peers, _, done⟩ := Option.bind_eq_some_iff.1 sync
  obtain rfl := Option.some.inj done
  rw [receive_drive]
  dsimp only
  generalize sampled : ElevatorNode.registerButtonSignals _ input.signals = r
  have mode : r.drive.mode = s.drive.mode.sample input.signals.floorSensor
      input.signals.obstruction s.drive.mode.requests := by
    rw [← sampled, ← receive_drive s input.earlier]
    exact mode_sample _ _
  have button : r.drive.elev.stopPressed =
      pressed input.signals.stop s.drive.elev.stopButton := by
    rw [← sampled, ← receive_drive s input.earlier]
    rfl
  obtain ⟨requests, synced⟩ := r.mode_syncPeers
  exact ⟨requests, by rw [synced, mode]; rfl, button⟩

/-- Publishing the result of an event shows in the request table alone. -/
theorem mode_of_event {s s' : ElevatorNode kFloors} {b2c : ButtonFlags}
    (done : s.event b2c = some s') :
    ∃ requests, s'.drive.mode = { s.drive.mode with requests := requests } := by
  obtain ⟨peers, _, rfl⟩ := Option.map_eq_some_iff.1 done
  exact ⟨_, rfl⟩

/-- The event that is due, the guard its test has passed, and the drive the tests leave. -/
inductive EventDue (d : Drive kFloors) : Drive kFloors → Option FsmEvent → Prop where
  /-- The stop button is pressed while the elevator runs. -/
  | emergencyStop (button : d.elev.stopPressed = true) (running : d.mode.stopped = false) :
      EventDue d d (some .emergencyStop)
  /-- The stop button is pressed while the elevator is stopped. -/
  | emergencyStopReset (button : d.elev.stopPressed = true) (stopped : d.mode.stopped = true) :
      EventDue d d (some .emergencyStopReset)
  /-- The sensor has read a floor other than the last one. -/
  | floorArrival {d' : Drive kFloors} (mode : d'.mode = d.mode.seen)
      (new : d.mode.floor ≠ d.mode.prevFloor) : EventDue d d' (some .floorArrival)
  /-- The request table has changed. -/
  | tableUpdate {d' : Drive kFloors} (mode : d'.mode = d.mode.noted) (same : d.mode.NoArrival)
      (changed : d.mode.requests ≠ d.mode.prevRequests) : EventDue d d' (some .tableUpdate)
  /-- The door timer has run out. -/
  | doorTimeout {d' : Drive kFloors} (mode : d'.mode = d.mode.noted) (same : d.mode.NoArrival)
      (unchanged : d.mode.requests = d.mode.prevRequests) (timer : d.mode.doorTimer = true) :
      EventDue d d' (some .doorTimeout)
  /-- The floor timer has run out. -/
  | floorTimeout {d' : Drive kFloors} (mode : d'.mode = d.mode.noted) (same : d.mode.NoArrival)
      (unchanged : d.mode.requests = d.mode.prevRequests) : EventDue d d' (some .floorTimeout)
  /-- Nothing has happened. -/
  | none {d' : Drive kFloors} (mode : d'.mode = d.mode.noted) (same : d.mode.NoArrival)
      (unchanged : d.mode.requests = d.mode.prevRequests) : EventDue d d' none

/-- `nextEvent` picks an event that is due. -/
theorem eventDue_nextEvent (d : Drive kFloors) (now : Nat) :
    EventDue d (nextEvent d now).1 (nextEvent d now).2 := by
  unfold nextEvent
  cases pressed : d.elev.stopPressed
  · have quiet : d.elev.emergencyStop = false ∧ d.elev.emergencyStopReset = false := by
      simp [Elevator.emergencyStop, Elevator.emergencyStopReset, pressed]
    simp only [quiet.1, quiet.2, Bool.false_eq_true, ↓reduceIte]
    cases hit : d.elev.hitNewFloor.1
    · have same : d.mode.NoArrival := by
        by_contra other
        obtain ⟨new, floor⟩ := not_or.1 other
        simp only [Elevator.hitNewFloor, Bool.and_eq_false_iff, decide_eq_false_iff_not] at hit
        exact hit.elim (fun h => h new) (fun h => h floor)
      simp only [Bool.false_eq_true, ↓reduceIte]
      by_cases updated : d.mode.requests = d.mode.prevRequests
      · have noUpdate : d.controller.requestTableUpdated.1 = false :=
          decide_eq_false (not_not.2 updated)
        simp only [noUpdate, Bool.false_eq_true, ↓reduceIte]
        split_ifs with door floor
        · exact .doorTimeout rfl same updated (Timer.active_of_expired door)
        · exact .floorTimeout rfl same updated
        · exact .none rfl same updated
      · have update : d.controller.requestTableUpdated.1 = true := decide_eq_true updated
        simp only [update, ↓reduceIte]
        exact .tableUpdate rfl same updated
    · simp only [↓reduceIte]
      simp only [Elevator.hitNewFloor, Bool.and_eq_true, decide_eq_true_eq] at hit
      exact .floorArrival rfl hit.1
  · cases stopped : d.elev.state.stopped
    · simpa [Elevator.emergencyStop, pressed, stopped] using EventDue.emergencyStop pressed stopped
    · simpa [Elevator.emergencyStop, Elevator.emergencyStopReset, pressed, stopped] using
        EventDue.emergencyStopReset pressed stopped

/-- The handler of the event that is due, if one is. -/
def fsmDue (d : Drive kFloors) (now : Nat) (floorSensor : Int) : Option FsmEvent → Drive kFloors
  | none => d
  | some event => (d.fsm now floorSensor event).1

/-- Handling an event leaves the mode its handler leaves, with the orders taken over anew. -/
theorem mode_of_handleEvent {q s' : ElevatorNode kFloors} {now : Nat} {floorSensor : Int}
    (done : q.handleEvent now floorSensor = some s') : ∃ requests, s'.drive.mode =
      { (fsmDue (nextEvent q.drive now).1 now floorSensor (nextEvent q.drive now).2).mode with
        requests := requests } := by
  unfold handleEvent at done
  dsimp only at done
  generalize nextEvent q.drive now = due at done ⊢
  obtain ⟨d, next⟩ := due
  cases next with
  | none =>
    obtain rfl := Option.some.inj done
    exact ⟨d.mode.requests, rfl⟩
  | some event => exact mode_of_event done

/-- Behind a mode invariant that does not depend on the orders, a turn is the sampling and the
handling of one event that is due. -/
theorem turn_invariant {s s' : ElevatorNode kFloors} {input : NodeInput kFloors}
    (turned : s.turn input = some s') (Inv : Mode kFloors → Prop)
    (ordersFree : ∀ m requests, Inv m → Inv { m with requests := requests })
    (handles : ∀ q d next, s.due input = some q →
      nextEvent q.drive input.now = (d, next) → EventDue q.drive d next →
      Inv (fsmDue d input.now input.stopSensor next).mode) : Inv s'.drive.mode := by
  obtain ⟨q, due, done⟩ := turn_cases turned
  obtain ⟨requests, mode⟩ := mode_of_handleEvent done
  rw [mode]
  exact ordersFree _ _ (handles q _ _ due rfl (eventDue_nextEvent _ _))

end ElevatorNode

end CppElevator
