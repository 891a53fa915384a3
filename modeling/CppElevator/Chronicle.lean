import CppElevator.Fleet

/-!
# A fleet with its history

What a run of a fleet with crashes has been through, as far as the view a node has of another
depends on it: how often each node was launched again, which incarnation sent each packet, and for
each pair of nodes whether the first has forgotten the second since its last crash and whether the
state it stores is that of a late packet. The history observes the run; it restricts no step.
-/
namespace CppElevator

open Library

variable {kFloors : Nat}

/-- A fleet and the history of the run that led to it. -/
structure Chronicle (kFloors : Nat) where
  /-- The fleet. -/
  fleet : Fleet kFloors
  /-- Crashes of each node. -/
  incarnation : Fin kElevs → Nat := fun _ => 0
  /-- Sender of every packet sent, and its incarnation at that time. -/
  origin : List (Fin kElevs × Nat) := []
  /-- Whether the watchdog the first node keeps for the second has fired since the second last
  crashed. A node that was itself launched since has forgotten as well, and so has every node as
  long as the second has not crashed. -/
  forgotten : Fin kElevs → Fin kElevs → Bool := fun _ _ => true
  /-- Whether the state the first node stores for the second was adopted from a late packet: one of
  an earlier incarnation, processed after the first had forgotten the second. -/
  late : Fin kElevs → Fin kElevs → Bool := fun _ _ => false

namespace Chronicle

/-- Whether the watchdog of node `i` for another is due in a step. -/
def fires (l : Chronicle kFloors) (i : Fin kElevs) (now : StepClock kFloors) (p : Fin kElevs) :
    Bool :=
  ((l.fleet.node i).peers.watchdogTimers p).expired (now (.watchdogExpired p))

/-- Whether processing a packet makes node `i` store the state in it. -/
def adopts (l : Chronicle kFloors) (i p : Fin kElevs) (packet : NetworkPacket kFloors) : Bool :=
  packet.valid && decide (p ≠ i) &&
    decide (((l.fleet.node i).peers.allStates p).version < packet.state.version)

/-- The history after a step to another fleet. -/
def note (l : Chronicle kFloors) (action : FleetRestartAction kFloors) (fleet : Fleet kFloors) :
    Chronicle kFloors :=
  match action with
  | .run (.sync i now _) =>
    { l with fleet := fleet,
             forgotten := fun q p => decide (q = i) && l.fires i now p || l.forgotten q p,
             late := fun q p => !(decide (q = i) && l.fires i now p) && l.late q p }
  | .run (.handle _ _ _) => { l with fleet := fleet }
  | .run (.transmit i) => { l with fleet := fleet, origin := l.origin ++ [(i, l.incarnation i)] }
  | .run (.receive i position _) =>
    match l.origin[position]?, l.fleet.sent[position]? with
    | some (sender, incarnation), some packet =>
      { l with fleet := fleet,
               late := fun q p =>
                 if q = i ∧ p = sender ∧ l.adopts i sender packet = true then
                   decide (incarnation < l.incarnation p) && l.forgotten q p
                 else l.late q p }
    | _, _ => { l with fleet := fleet }
  | .restart i _ _ =>
    { l with fleet := fleet,
             incarnation := fun p => if p = i then l.incarnation p + 1 else l.incarnation p,
             forgotten := fun q p => decide (q = i) || !decide (p = i) && l.forgotten q p,
             late := fun q p => !decide (q = i) && !decide (p = i) && l.late q p }

/-- The history is about the fleet the step leads to. -/
@[simp]
theorem note_fleet (l : Chronicle kFloors) (action : FleetRestartAction kFloors)
    (fleet : Fleet kFloors) : (l.note action fleet).fleet = fleet := by
  unfold note
  split
  · rfl
  · rfl
  · rfl
  · split <;> rfl
  · rfl

/-- Carry out a step and note it. -/
def exec (l : Chronicle kFloors) (action : FleetRestartAction kFloors) : Option (Chronicle kFloors) :=
  (l.fleet.execRestart action).map (l.note action)

/-- The packet of the current incarnation of node `p` that node `q` processes in a step. -/
def delivered (q p : Fin kElevs) (l : Chronicle kFloors) :
    FleetRestartAction kFloors → Option (NetworkPacket kFloors)
  | .run (.receive i position _) =>
    if i = q ∧ l.origin[position]? = some (p, l.incarnation p) then
      l.fleet.sent[position]?.filter NetworkPacket.valid
    else none
  | _ => none

/-- The current incarnation of a node has sent a state. -/
def SentBy (l : Chronicle kFloors) (p : Fin kElevs) (state : ElevatorState kFloors) : Prop :=
  ∃ (position : Nat) (packet : NetworkPacket kFloors),
    l.origin[position]? = some (p, l.incarnation p) ∧
      l.fleet.sent[position]? = some packet ∧ packet.state = state

end Chronicle

/-- The steps of a fleet with its history. -/
def ChronicleStep (l : Chronicle kFloors) (action : FleetRestartAction kFloors)
    (l' : Chronicle kFloors) : Prop :=
  l.exec action = some l'

/-- Every run of a fleet has a history. -/
theorem chronicle_of_run {start s : Fleet kFloors}
    {trace : List (Transition (Fleet kFloors) (FleetRestartAction kFloors))}
    (run : Run FleetRestartStep start trace s) :
    ∃ trace' l, Run ChronicleStep { fleet := start } trace' l ∧ l.fleet = s ∧
      trace'.map Transition.action = trace.map Transition.action := by
  induction run with
  | nil => exact ⟨[], _, .nil _, rfl, rfl⟩
  | snoc _ step ih =>
    rename_i last next _ action _
    obtain ⟨trace', l, run, rfl, actions⟩ := ih
    have noted : ChronicleStep l action (l.note action next) :=
      Option.map_eq_some_iff.2 ⟨next, step, rfl⟩
    exact ⟨_, _, run.snoc noted, l.note_fleet action next, by simp [actions]⟩

end CppElevator
