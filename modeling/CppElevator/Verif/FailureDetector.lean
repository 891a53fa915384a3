import CppElevator.Verif.SoloRefinement

/-!
# Whom a node takes for alive

The state a node stores for another elevator and the watchdog it keeps for it are one register: a
packet sets both, the first locked section after the deadline clears both, and nothing else touches
either. A node therefore takes another elevator for active exactly if it has processed a packet of it,
since its own launch and within the watchdog time.
-/
namespace CppElevator

open Library

variable {kFloors : Nat}

namespace ElevatorNode

open Peers

variable {s s' : ElevatorNode kFloors} {e : Fin kElevs}

/-- The locked section of a step looks at the watchdog of another elevator. -/
theorem regard_sync {now : StepClock kFloors} {signals : Signals kFloors}
    (done : s.sync now signals = some s') (apart : e ≠ s.peers.nodeId) :
    s'.peers.regard e = watch (now (.watchdogExpired e)) (s.peers.regard e) := by
  rw [sync_eq] at done
  obtain ⟨peers, stepped, rfl⟩ := Option.map_eq_some_iff.1 done
  have before : (s.synced signals).peers.regard e = s.peers.regard e :=
    Prod.ext (Function.update_of_ne apart _ _) rfl
  rw [← before]
  exact regard_step stepped e

/-- An event leaves it alone. -/
theorem regard_handleEvent {now : Nat} {floorSensor : Int} (done : s.handleEvent now floorSensor = some s')
    (apart : e ≠ s.peers.nodeId) : s'.peers.regard e = s.peers.regard e := by
  refine Prod.ext (allStates_handleEvent done apart) ?_
  unfold handleEvent at done
  dsimp only at done
  cases next : (nextEvent s.drive now).2 with
  | none =>
    rw [next] at done
    obtain rfl := Option.some.inj done
    rfl
  | some event =>
    rw [next] at done
    obtain ⟨peers, cleared, rfl⟩ := Option.map_eq_some_iff.1 done
    unfold clearServed at cleared
    split_ifs at cleared
    · rw [← Option.some.inj cleared]
      rfl
    · rw [← Option.some.inj cleared]
      rfl

/-- A launched node knows nothing about the others. -/
theorem regard_launch {i : Fin kElevs} {initial : Signals kFloors} {first : StepInput kFloors}
    (launched : launch i initial first = some s) (apart : e ≠ i) :
    s.peers.regard e = ({}, {}) := by
  obtain ⟨synced, sync, handled⟩ := ElevatorNode.launch_cases launched
  have node : synced.peers.nodeId = i := by
    rw [sync_eq] at sync
    obtain ⟨peers, stepped, rfl⟩ := Option.map_eq_some_iff.1 sync
    exact (Peers.advances_step stepped).nodeId
  have kept := regard_handleEvent handled (by rw [← node] at apart; exact apart)
  have looked := regard_sync sync apart
  exact kept.trans looked

end ElevatorNode

/-- What a node makes of another elevator that it has last heard of at an instant, or never. No
reading of the clock is later than `now`. -/
structure Tracks (heard : Option Nat) (now : Nat) (regard : ElevatorState kFloors × Timer) : Prop where
  /-- The watchdog runs as long as the elevator is active in the view. -/
  guarded : regard.1.active = regard.2.active
  /-- An elevator given up is at version 0. -/
  forgotten : regard.1.active = false → regard.1.version = 0
  /-- An elevator not heard of is not active. -/
  unheard : heard = none → regard.2.active = false
  /-- The watchdog of an elevator heard of is set for that time, and runs until then. -/
  deadline : ∀ past, heard = some past → regard.2.endTime = past + Config.kWatchdogTimeMs ∧
    (regard.2.active = true ∨ regard.2.endTime ≤ now)

namespace Tracks

open Peers Config

variable {heard : Option Nat} {now : Nat} {regard : ElevatorState kFloors × Timer}

/-- A node that has just been launched. -/
theorem fresh (now : Nat) : Tracks (none : Option Nat) now (({}, {}) : ElevatorState kFloors × Timer) := by
  refine ⟨rfl, fun _ => rfl, fun _ => rfl, fun past heard => ?_⟩
  cases heard

/-- The watchdog is looked at. -/
theorem watch (tracks : Tracks heard now regard) {reading : Nat} (past : reading ≤ now) :
    Tracks heard now (Peers.watch reading regard) := by
  unfold Peers.watch
  split_ifs with expired
  · simp only [Timer.expired, Bool.and_eq_true, decide_eq_true_eq] at expired
    refine ⟨rfl, fun _ => rfl, fun _ => rfl, fun instant same => ?_⟩
    have due : regard.2.endTime ≤ now := Nat.le_trans expired.2 past
    exact ⟨(tracks.deadline instant same).1, .inr due⟩
  · exact tracks

/-- An honest packet is processed. -/
theorem receive (tracks : Tracks heard now regard) (instant : Nat) {packet : ReceivedPacket kFloors}
    (honest : Honest packet.toNetworkPacket) : Tracks (some instant) now
      (regard.1.onUpdate packet.state, .start instant kWatchdogTimeMs) := by
  have active : (regard.1.onUpdate packet.state).active = true := by
    obtain ⟨active, version⟩ := honest packet.checked
    unfold ElevatorState.onUpdate
    split_ifs with stale
    · by_contra dead
      have zero := tracks.forgotten (by simpa using dead)
      omega
    · exact active
  refine ⟨active, fun dead => ?_, fun none => ?_, fun past same => ?_⟩
  · exact absurd (active.symm.trans dead) Bool.true_eq_false_eq_False
  · cases none
  · obtain rfl := Option.some.inj same
    exact ⟨rfl, .inl rfl⟩

/-- Looked at, an elevator is active exactly if it was heard of within the watchdog time. -/
theorem active_iff (tracks : Tracks heard now regard) :
    (Peers.watch now regard).1.active = true ↔
      ∃ past, heard = some past ∧ now < past + kWatchdogTimeMs := by
  unfold Peers.watch
  cases heard with
  | none =>
    have idle := tracks.unheard rfl
    have running : regard.2.expired now = false := by simp [Timer.expired, idle]
    simp [running, tracks.guarded, idle]
  | some past =>
    obtain ⟨set, runs⟩ := tracks.deadline past rfl
    cases active : regard.2.active with
    | false =>
      have due : regard.2.endTime ≤ now := by simpa [active] using runs
      have running : regard.2.expired now = false := by simp [Timer.expired, active]
      simp only [running, tracks.guarded, active, Bool.false_eq_true, ↓reduceIte, false_iff]
      rintro ⟨other, same, later⟩
      obtain rfl := Option.some.inj same
      omega
    | true =>
      by_cases due : regard.2.endTime ≤ now
      · have expired : regard.2.expired now = true := by simp [Timer.expired, active, due]
        simp only [expired, ↓reduceIte, ElevatorState.onWatchdogTimeout, Bool.false_eq_true,
          false_iff]
        rintro ⟨other, same, later⟩
        obtain rfl := Option.some.inj same
        omega
      · have running : regard.2.expired now = false := by simp [Timer.expired, due]
        simp only [running, tracks.guarded, active, Bool.false_eq_true, ↓reduceIte, true_iff]
        exact ⟨past, rfl, by omega⟩

end Tracks

/-- Packets as launched nodes build them. -/
theorem peersRule_honest : PeersRule (fun _ : Peers kFloors => True) Peers.Honest where
  fresh _ := trivial
  press _ := trivial
  publish _ _ := trivial
  step _ _ _ := trivial
  clear _ := trivial
  receive _ _ _ := trivial
  transmit _ serves _ := serves.presents.ownState.2

namespace Fleet

open Config Peers

/-- The instant at which a step makes node `q` hear of node `p`, if it does: it processes a packet
of it. -/
def hears (q p : Fin kElevs) (s : Fleet kFloors) : FleetAction kFloors → Option Nat
  | .receive i position now =>
    if i = q ∧ ((s.sent[position]?.bind recievePacket).any fun packet =>
      decide (packet.sender = p)) = true then some now else none
  | _ => none

/-- When node `q` has last heard of node `p` since its own launch, after a step. -/
def noteHeard (q p : Fin kElevs) (s : Fleet kFloors) (heard : Option Nat) :
    FleetRestartAction kFloors → Option Nat
  | .restart i _ _ => if i = q then none else heard
  | .run action => (hears q p s action).or heard

/-- When node `q` has last heard of node `p` since its own launch. -/
def lastHeard (q p : Fin kElevs)
    (trace : List (Transition (Fleet kFloors) (FleetRestartAction kFloors))) : Option Nat :=
  trace.foldl (fun heard t => noteHeard q p t.pre heard t.action) none

/-- What a step of node `q` reads from the clock for the watchdog of node `p`. -/
def lockedReading (q p : Fin kElevs) : FleetRestartAction kFloors → Option Nat
  | .run (.sync i now _) => if i = q then some (now (.watchdogExpired p)) else none
  | .run (.receive i _ now) => if i = q then some now else none
  | _ => none

variable {q p : Fin kElevs} {s s' : Fleet kFloors}

/-- A launched node has heard of nobody. -/
theorem noteHeard_launch {action : FleetRestartAction kFloors} (launches : Relaunches q action)
    (heard : Option Nat) : noteHeard q p s heard action = none := by
  cases action with
  | run action => exact absurd launches id
  | restart i initial first => exact if_pos launches

/-- What a step tells a node that is not launched comes after what it has heard before. -/
theorem noteHeard_eq {action : FleetRestartAction kFloors} (stays : ¬Relaunches q action)
    (heard : Option Nat) : noteHeard q p s heard action = (noteHeard q p s none action).or heard := by
  cases action with
  | run action => simp only [noteHeard, Option.or_none]
  | restart i initial first =>
    have apart : i ≠ q := stays
    simp only [noteHeard, if_neg apart, Option.none_or]

/-- Another node takes a step. -/
theorem regard_setNode_of_ne {i : Fin kElevs} (other : i ≠ q) (n : ElevatorNode kFloors) :
    ((s.setNode i n).node q).peers.regard p = (s.node q).peers.regard p := by
  rw [setNode_node_of_ne s n other.symm]

/-- What a step of the fleet does to it, unless it launches the node: a locked section looks at the
watchdog, an honest packet of the elevator is processed, or nothing changes. -/
theorem regard_cases {action : FleetRestartAction kFloors} (apart : p ≠ q)
    (serving : s.Serving (fun _ => True) Honest) (step : FleetRestartStep s action s')
    (stays : ¬Relaunches q action) :
    (∃ now signals, action = .run (.sync q now signals) ∧ (s'.node q).peers.regard p =
        watch (now (.watchdogExpired p)) ((s.node q).peers.regard p)) ∨
      (∃ position now packet, action = .run (.receive q position now) ∧
        s.sent[position]?.bind recievePacket = some packet ∧ packet.sender = p ∧
        Honest packet.toNetworkPacket ∧ (s'.node q).peers.regard p =
          (((s.node q).peers.allStates p).onUpdate packet.state, .start now kWatchdogTimeMs)) ∨
      (∀ heard, noteHeard q p s heard action = heard) ∧
        (s'.node q).peers.regard p = (s.node q).peers.regard p := by
  have foreign : p ≠ (s.node q).peers.nodeId := by
    rw [(serving.node q).nodeId]
    exact apart
  rcases action with action | ⟨i, initial, first⟩
  · cases action with
    | sync i now signals =>
      obtain ⟨n, done, rfl⟩ := Option.map_eq_some_iff.1 step
      by_cases here : i = q
      · subst here
        rw [setNode_node_self]
        exact .inl ⟨now, signals, rfl, ElevatorNode.regard_sync done foreign⟩
      · exact .inr (.inr ⟨fun _ => rfl, regard_setNode_of_ne here n⟩)
    | handle i now floorSensor =>
      obtain ⟨n, done, rfl⟩ := Option.map_eq_some_iff.1 step
      refine .inr (.inr ⟨fun _ => rfl, ?_⟩)
      by_cases here : i = q
      · subst here
        rw [setNode_node_self, ElevatorNode.regard_handleEvent done foreign]
      · rw [regard_setNode_of_ne here]
    | transmit i =>
      obtain rfl := Option.some.inj step
      exact .inr (.inr ⟨fun _ => rfl, rfl⟩)
    | receive i position now =>
      have deafly (deaf : hears q p s (.receive i position now) = none) (heard : Option Nat) :
          noteHeard q p s heard (.run (.receive i position now)) = heard := by
        rw [noteHeard, deaf, Option.none_or]
      rcases receive_cases step with ⟨packet, sent, rejected, rfl⟩ | ⟨received, sent, rfl⟩
      · exact .inr (.inr ⟨deafly (by simp [hears, sent, rejected]), rfl⟩)
      have arrived := recievePacket_toNetworkPacket received
      by_cases here : i = q
      · subst here
        rw [setNode_node_self]
        change _ ∨ _ ∨ _ ∧ ((s.node i).peers.rxPacketProcessing now received).regard p = _
        by_cases there : received.sender = p
        · subst there
          have honest := serving.sent _ (List.mem_of_getElem? sent)
          refine .inr (.inl ⟨position, now, received, rfl, ?_, rfl, honest, ?_⟩)
          · simp [sent, arrived]
          · change ((s.node i).peers.rxPacketProcessing now received).regard received.sender = _
            rw [regard, allStates_rxPacketProcessing foreign, watchdogTimers_rxPacketProcessing foreign,
              Function.update_self, Function.update_self]
        · refine .inr (.inr ⟨deafly (by simp [hears, sent, arrived, there]), ?_⟩)
          by_cases own : received.sender = (s.node i).peers.nodeId
          · rw [rxPacketProcessing_own own]
          · rw [regard, allStates_rxPacketProcessing own, watchdogTimers_rxPacketProcessing own,
              Function.update_of_ne (Ne.symm there), Function.update_of_ne (Ne.symm there)]
      · exact .inr (.inr ⟨deafly (by simp [hears, here]), regard_setNode_of_ne here _⟩)
  · obtain ⟨atFloor, done⟩ := Option.ite_none_right_eq_some.1 step
    obtain ⟨n, launched, rfl⟩ := Option.map_eq_some_iff.1 done
    exact .inr (.inr ⟨fun heard => if_neg stays, regard_setNode_of_ne stays n⟩)

/-- A step of the fleet, with what it tells the node noted. -/
theorem tracks_step {heard : Option Nat} {now : Nat} {action : FleetRestartAction kFloors}
    (apart : p ≠ q) (serving : s.Serving (fun _ => True) Honest)
    (step : FleetRestartStep s action s') (past : ∀ reading ∈ lockedReading q p action, reading ≤ now)
    (tracks : Tracks heard now ((s.node q).peers.regard p)) :
    Tracks (noteHeard q p s heard action) now ((s'.node q).peers.regard p) := by
  by_cases launches : Relaunches q action
  · rw [noteHeard_launch launches]
    match action, launches with
    | .restart _ initial first, rfl =>
      obtain ⟨atFloor, done⟩ := Option.ite_none_right_eq_some.1 step
      obtain ⟨n, launched, rfl⟩ := Option.map_eq_some_iff.1 done
      rw [setNode_node_self, ElevatorNode.regard_launch launched apart]
      exact .fresh now
  · rcases regard_cases apart serving step launches with ⟨instant, signals, rfl, looked⟩ |
      ⟨position, instant, packet, rfl, arrived, rfl, honest, set⟩ | ⟨deaf, kept⟩
    · rw [looked]
      exact tracks.watch (past _ (by simp [lockedReading]))
    · have hearing : hears q packet.sender s (.receive q position instant) = some instant := by
        simp [hears, arrived]
      rw [set, noteHeard, hearing]
      exact tracks.receive instant honest
    · rwa [kept, deaf heard]

/-- After every run, a node has what the packets it processed since its launch have told it. -/
theorem tracks_of_run {start : Fleet kFloors} (launched : start.Launched) (apart : p ≠ q)
    {trace : List (Transition (Fleet kFloors) (FleetRestartAction kFloors))}
    (run : Run FleetRestartStep start trace s) {now : Nat}
    (past : ∀ t ∈ trace, ∀ reading ∈ lockedReading q p t.action, reading ≤ now) :
    Tracks (lastHeard q p trace) now ((s.node q).peers.regard p) := by
  induction run with
  | nil =>
    obtain ⟨initial, first, -, node⟩ := launched.node q
    rw [ElevatorNode.regard_launch node apart]
    exact .fresh now
  | snoc before step ih =>
    have tracks := ih fun t member => past t (List.mem_append_left _ member)
    have noted := tracks_step apart (launched.serving peersRule_honest before) step
      (past _ (List.mem_append_right _ (List.mem_singleton.2 rfl))) tracks
    rwa [lastHeard, List.foldl_append]

/-- A locked section leaves another elevator active exactly if it was heard of within the watchdog
time. -/
theorem active_iff_of_sync {heard : Option Nat} {now : StepClock kFloors} {signals : Signals kFloors}
    (apart : p ≠ q) (serving : s.Serving (fun _ => True) Honest)
    (synced : FleetRestartStep s (.run (.sync q now signals)) s')
    (tracks : Tracks heard (now (.watchdogExpired p)) ((s.node q).peers.regard p)) :
    ((s'.node q).peers.allStates p).active = true ↔
      ∃ instant, heard = some instant ∧ now (.watchdogExpired p) < instant + kWatchdogTimeMs := by
  have foreign : p ≠ (s.node q).peers.nodeId := by
    rw [(serving.node q).nodeId]
    exact apart
  obtain ⟨n, done, rfl⟩ := Option.map_eq_some_iff.1 synced
  have looked := congrArg Prod.fst (ElevatorNode.regard_sync done foreign)
  rw [setNode_node_self, show n.peers.allStates p = _ from looked]
  exact tracks.active_iff

/-- In every run of a fleet launched at floors, crashes and launches included: a locked section of node
`q` ends with node `p` active in the view of `q` exactly if `q` has processed a packet of `p`, since
its own launch, less than the watchdog time before that section reads the clock for the watchdog of `p`. -/
theorem active_iff_heard {start : Fleet kFloors} (launched : start.Launched) (apart : p ≠ q)
    {trace : List (Transition (Fleet kFloors) (FleetRestartAction kFloors))}
    (run : Run FleetRestartStep start trace s) {now : StepClock kFloors} {signals : Signals kFloors}
    (synced : FleetRestartStep s (.run (.sync q now signals)) s')
    (past : ∀ t ∈ trace, ∀ reading ∈ lockedReading q p t.action, reading ≤ now (.watchdogExpired p)) :
    ((s'.node q).peers.allStates p).active = true ↔
      ∃ instant, lastHeard q p trace = some instant ∧
        now (.watchdogExpired p) < instant + kWatchdogTimeMs :=
  active_iff_of_sync apart (launched.serving peersRule_honest run) synced
    (tracks_of_run launched apart run past)

/-- A node that has heard of another at 60 still takes it for active at 640. -/
theorem active_iff_heard_once : ∃ trace s s', Run FleetRestartStep Fleet.atBottom trace s ∧
    FleetRestartStep s (.run (.sync 0 (.still 640) { floorSensor := 0 })) s' ∧
    ((s'.node 0).peers.allStates 1).active = true ∧
    ∃ instant, lastHeard 0 1 trace = some instant ∧ 640 < instant + kWatchdogTimeMs := by
  let actions : List (FleetRestartAction Config.kFloors) :=
    [.run (.sync 1 (.still 40) { floorSensor := 0 }), .run (.transmit 1), .run (.receive 0 0 60)]
  have evaluated : (actions.foldlM Fleet.execRestart Fleet.atBottom).any (fun s =>
      (s.execRestart (.run (.sync 0 (.still 640) { floorSensor := 0 }))).any fun s' =>
        ((s'.node 0).peers.allStates 1).active) = true := by decide
  obtain ⟨trace, s, run, labels, looks⟩ := Run.of_check FleetRestartStep id evaluated
  obtain ⟨s', synced, active⟩ := (Option.any_eq_true _ _).1 looks
  have past : ∀ t ∈ trace, ∀ reading ∈ lockedReading 0 1 t.action, reading ≤ 640 := by
    intro t member
    have listed : t.action ∈ actions := labels ▸ List.mem_map_of_mem member
    revert listed
    generalize t.action = action
    intro listed reading
    simp only [actions, List.mem_cons, List.not_mem_nil, or_false] at listed
    rcases listed with rfl | rfl | rfl
    · exact nofun
    · exact nofun
    · rintro ⟨⟩
      decide
  exact ⟨trace, s, s', run, synced, active,
    (active_iff_heard launched_atBottom (by decide) run synced past).1 active⟩

end Fleet

end CppElevator
