import CppElevator.Verif.Heartbeats
import CppElevator.Verif.Reassignments

/-!
# Silent nodes

A node that falls silent is given up by every node that goes on stepping, the watchdog time and one turn
of the control loop after it was last heard of. That is before its process can be running again, so what
is stored for a node that has been started again comes from the new process.
-/
namespace CppElevator

open Library Config Peers

variable {kFloors : Nat}

namespace TimedFleet

variable {s s' start : TimedFleet kFloors} {action : TimedAction kFloors} {p q : Fin kElevs}
  {trace : List (Transition (TimedFleet kFloors) (TimedAction kFloors))}

/-- The control loop of a node begins a turn when it is due, or waits on. -/
theorem nextTick_cases (q : Fin kElevs) (step : TimedStep s action s')
    (stays : ¬Fleet.Relaunches q action.toFleet) :
    (∃ now signals, action = .sync q now signals ∧ (s.loops q).nextTick ≤ now ∧
        (s'.loops q).nextTick = (s.loops q).nextTick + kSampleTimeMs) ∨
      (∀ now signals, action.toFleet ≠ .run (.sync q now signals)) ∧
        (s'.loops q).nextTick = (s.loops q).nextTick := by
  obtain ⟨due, -, -, loops, -⟩ := step_cases step
  have other (apart : q ≠ action.node) : (s'.loops q).nextTick = (s.loops q).nextTick := by
    rw [loops, Function.update_of_ne apart]
  cases action with
  | sync i now signals =>
    simp only [TimedFleet.due, Bool.and_eq_true, decide_eq_true_eq] at due
    by_cases here : q = i
    · subst here
      refine .inl ⟨now, signals, rfl, due.2, ?_⟩
      rw [loops]
      simp only [TimedAction.node, Function.update_self, loopsAfter, MainLoops.tick]
    · refine .inr ⟨fun now signals same => ?_, other here⟩
      obtain ⟨rfl, -⟩ := FleetAction.sync.inj (FleetRestartAction.run.inj same)
      exact here rfl
  | restart i => exact .inr ⟨fun now signals same => (by cases same), other (Ne.symm stays)⟩
  | transmit i woken now =>
    refine .inr ⟨fun now signals same => (by cases same), ?_⟩
    by_cases here : q = i
    · subst here
      rw [loops]
      simp only [TimedAction.node, Function.update_self, loopsAfter, MainLoops.afterSend]
    · exact other here
  | handle i | receive i =>
    refine .inr ⟨fun now signals same => (by cases same), ?_⟩
    by_cases here : q = i
    · subst here
      rw [loops]
      simp only [TimedAction.node, Function.update_self, loopsAfter]
    · exact other here

/-- A node has looked at its watchdogs less than a turn of its control loop before the next turn is due,
and a node that is active in its view then had not been silent for the watchdog time. -/
theorem looked_of_run (launched : start.Launched) (apart : p ≠ q) (run : Run TimedStep start trace s)
    (stays : ∀ t ∈ trace, ¬Fleet.Relaunches q t.action.toFleet) :
    ∃ look ≤ s.clock, (s.loops q).nextTick ≤ look + kSampleTimeMs ∧
      (((s.fleet.node q).peers.allStates p).active = true →
        ∃ heard, Fleet.lastHeard q p (trace.map fleetStep) = some heard ∧
          look < heard + kWatchdogTimeMs) := by
  induction run with
  | nil =>
    refine ⟨start.clock, le_rfl, (launched.loops q).1.trans (Nat.le_add_right _ _), fun active => ?_⟩
    obtain ⟨initial, first, -, node⟩ := launched.fleet.node q
    have unknown := congrArg Prod.fst (ElevatorNode.regard_launch node apart)
    rw [show (start.fleet.node q).peers.allStates p = _ from unknown] at active
    cases active
  | @snoc l l' trace action before step ih =>
    obtain ⟨look, past, ticks, given⟩ := ih fun t member => stays t (List.mem_append_left _ member)
    have kept : ¬Fleet.Relaunches q action.toFleet :=
      stays ⟨l, action, l'⟩ (List.mem_append_right _ (List.mem_singleton.2 rfl))
    obtain ⟨-, executed, clock, -⟩ := step_cases step
    have later := clock_le_time step
    have serving := launched.fleet.serving peersRule_honest (fleet_run before)
    have noted : Fleet.lastHeard q p (List.map fleetStep (trace ++ [⟨l, action, l'⟩])) =
        Fleet.noteHeard q p l.fleet (Fleet.lastHeard q p (trace.map fleetStep)) action.toFleet := by
      rw [List.map_append, Fleet.lastHeard, List.foldl_append]
      rfl
    rw [noted, clock]
    rcases nextTick_cases q step kept with ⟨now, signals, rfl, due, ticked⟩ | ⟨idle, waits⟩
    · have tracks := Fleet.tracks_of_run launched.fleet apart (fleet_run before)
        (readings_past before later)
      refine ⟨now, le_rfl, ?_, (Fleet.active_iff_of_sync apart serving executed tracks).1⟩
      rw [ticked]
      exact Nat.add_le_add_right due _
    · refine ⟨look, past.trans later, waits ▸ ticks, ?_⟩
      rcases Fleet.regard_cases apart serving executed kept with ⟨now, signals, syncs, -⟩ |
        ⟨position, now, packet, receives, arrived, rfl, -⟩ | ⟨deaf, same⟩
      · exact absurd syncs (idle now signals)
      · intro _
        have instant : action.time = now := by
          cases action <;> cases receives
          rfl
        have positive : 0 < kWatchdogTimeMs := by decide
        refine ⟨now, ?_, by omega⟩
        rw [receives]
        simp [Fleet.noteHeard, Fleet.hears, arrived]
      · rw [deaf]
        rw [show (l'.fleet.node q).peers.allStates p = _ from congrArg Prod.fst same]
        exact given

/-- A node whose control loop is not late has given up whom it has not heard of for long. -/
theorem given_up_of_silent (launched : start.Launched) (apart : p ≠ q)
    (run : Run TimedStep start trace s) (stays : ∀ t ∈ trace, ¬Fleet.Relaunches q t.action.toFleet)
    {late now : Nat} (awake : now ≤ (s.loops q).nextTick + late)
    (silent : ∀ t ∈ trace, ∀ instant, Hears q p t instant →
      instant + kWatchdogTimeMs + kSampleTimeMs + late ≤ now) :
    ((s.fleet.node q).peers.allStates p).active = false := by
  obtain ⟨look, -, ticks, given⟩ := looked_of_run launched apart run stays
  by_contra alive
  obtain ⟨heard, same, before⟩ := given (by simpa using alive)
  obtain ⟨t, member, hears⟩ := hears_of_lastHeard same
  have known := silent t member heard hears
  omega

/-- A node that has given up another and does not hear of it keeps it given up. -/
theorem inactive_of_deaf (serving : s.fleet.Serving (fun _ => True) Honest) (apart : p ≠ q)
    (step : TimedStep s action s') (deaf : ∀ instant, ¬Hears q p ⟨s, action, s'⟩ instant)
    (inactive : ((s.fleet.node q).peers.allStates p).active = false) :
    ((s'.fleet.node q).peers.allStates p).active = false := by
  have executed := (step_cases step).2.1
  by_cases launches : Fleet.Relaunches q action.toFleet
  · generalize action.toFleet = done at executed launches
    match done, launches with
    | .restart _ initial first, rfl =>
      obtain ⟨-, started⟩ := Option.ite_none_right_eq_some.1 executed
      obtain ⟨n, launched, same⟩ := Option.map_eq_some_iff.1 started
      have unknown := congrArg Prod.fst (ElevatorNode.regard_launch launched apart)
      rw [← same, Fleet.setNode_node_self, show n.peers.allStates p = _ from unknown]
  · rcases Fleet.regard_cases apart serving executed launches with ⟨now, signals, -, looked⟩ |
      ⟨position, now, packet, receives, arrived, rfl, -⟩ | ⟨-, same⟩
    · rw [show (s'.fleet.node q).peers.allStates p = _ from congrArg Prod.fst looked]
      unfold watch
      split_ifs
      · rfl
      · exact inactive
    · refine absurd ?_ (deaf now)
      unfold Hears
      rw [show action.toFleet = _ from receives]
      simp [Fleet.noteHeard, Fleet.hears, arrived]
    · rwa [show (s'.fleet.node q).peers.allStates p = _ from congrArg Prod.fst same]

/-- A step on the clock begins a turn of a node's control loop. -/
def Turns (q : Fin kElevs) : TimedAction kFloors → Prop
  | .sync i _ _ => i = q
  | _ => False

/-- It launches nobody and makes nobody hear of anybody. -/
theorem quiet_of_turns {t : Transition (TimedFleet kFloors) (TimedAction kFloors)} {i j : Fin kElevs}
    (turns : Turns q t.action) :
    ¬Fleet.Relaunches j t.action.toFleet ∧ ∀ instant, ¬Hears i j t instant := by
  obtain ⟨pre, action, post⟩ := t
  cases action with
  | sync => exact ⟨id, fun instant hears => (by cases hears)⟩
  | handle | transmit | receive | restart => exact absurd turns id

/-- After every run, the control loop of a node may catch up turn by turn. -/
theorem turns_possible (fits : CostsFit kFloors) (launched : start.Launched)
    (run : Run TimedStep start trace s) (q : Fin kElevs) (signals : Signals kFloors)
    (turns now : Nat) (present : s.clock ≤ now) (due : (s.loops q).nextTick + kSampleTimeMs * turns ≤ now) :
    ∃ taken s', Run TimedStep s taken s' ∧ (∀ t ∈ taken, Turns q t.action) ∧ s'.clock ≤ now ∧
      (s'.loops q).nextTick = (s.loops q).nextTick + kSampleTimeMs * turns ∧
      ∀ p, p ≠ q → s'.loops p = s.loops p := by
  induction turns generalizing trace s with
  | zero => exact ⟨[], s, .nil s, fun _ member => absurd member List.not_mem_nil, present, rfl,
      fun _ _ => rfl⟩
  | succ turns ih =>
    rw [Nat.mul_succ] at due
    obtain ⟨peers, stepped⟩ :=
      (launched.fleet.dispatching (fleet_run run) (i := q) (.inl rfl) signals).step_total fits
        (.still now)
    obtain ⟨l, step⟩ : ∃ l, TimedStep s (.sync q now signals) l := by
      have ready : s.due (.sync q now signals) = true :=
        Bool.and_eq_true_iff.2 ⟨decide_eq_true present, decide_eq_true (by omega)⟩
      simp only [TimedStep, TimedFleet.exec, ready, ↓reduceIte, TimedAction.toFleet, Fleet.execRestart,
        Fleet.exec, ElevatorNode.sync_eq, stepped, Option.map_some]
      exact ⟨_, rfl⟩
    obtain ⟨-, -, clock, loops, -⟩ := step_cases step
    have ticked : (l.loops q).nextTick = (s.loops q).nextTick + kSampleTimeMs := by
      rw [loops]
      simp only [TimedAction.node, Function.update_self, loopsAfter, MainLoops.tick]
    obtain ⟨taken, s', rest, all, past, ticks, others⟩ :=
      ih (run.snoc step) clock.le (by rw [ticked]; omega)
    refine ⟨_, s', (Run.single step).append rest, fun t member => ?_, past, ?_, fun p apart => ?_⟩
    · rcases List.mem_append.1 member with new | other
      · rw [List.mem_singleton.1 new]
        exact rfl
      · exact all t other
    · rw [ticks, ticked, Nat.mul_succ]
      omega
    · rw [others p apart, loops]
      exact Function.update_of_ne apart _ _

/-- In every run of a fleet on the clock: a node that has been silent for the watchdog time and one turn of
the control loop is given up by every node that was not launched again in the run and whose control loop is
not late now, whatever was lost and however late that loop was before, and it stays given up until it is
heard of again, also if the other node is launched again then. -/
theorem silent_node_given_up (launched : start.Launched) (apart : p ≠ q)
    (run : Run TimedStep start trace s) (stays : ∀ t ∈ trace, ¬Fleet.Relaunches q t.action.toFleet)
    {late now : Nat} (awake : now ≤ (s.loops q).nextTick + late)
    (silent : ∀ t ∈ trace, ∀ instant, Hears q p t instant →
      instant + kWatchdogTimeMs + kSampleTimeMs + late ≤ now)
    {trace' : List (Transition (TimedFleet kFloors) (TimedAction kFloors))}
    (later : Run TimedStep s trace' s') (deaf : ∀ t ∈ trace', ∀ instant, ¬Hears q p t instant) :
    ((s'.fleet.node q).peers.allStates p).active = false := by
  have serving := launched.fleet.serving peersRule_honest (fleet_run run)
  have reached : s'.fleet.Serving (fun _ => True) Honest ∧
      ((s'.fleet.node q).peers.allStates p).active = false := by
    apply later.invariant_of_admitted (fun t => ∀ instant, ¬Hears q p t instant)
      (fun l => l.fleet.Serving (fun _ => True) Honest ∧
        ((l.fleet.node q).peers.allStates p).active = false) ?_ deaf
    · exact ⟨serving, given_up_of_silent launched apart run stays awake silent⟩
    · rintro l l' action step unheard ⟨serving, inactive⟩
      exact ⟨serving.step peersRule_honest (step_cases step).2.1,
        inactive_of_deaf serving apart step unheard inactive⟩
  exact reached.2

/-- A run in which node 0 hears of node 1 once, at 10, and its control loop has caught up with 800. -/
theorem heard_once : ∃ trace s, Run TimedStep atBottom trace s ∧
    (∀ t ∈ trace, t.action = .transmit 1 0 0 ∨ t.action = .receive 0 0 10 ∨ Turns 0 t.action) ∧
    (∃ t ∈ trace, t.action = .receive 0 0 10) ∧ s.sends = [(1, 0)] ∧ s.clock ≤ 800 ∧
    (s.loops 0).nextTick = 800 ∧ (s.loops 1).lastStep = 0 := by
  let actions : List (TimedAction Config.kFloors) := [.transmit 1 0 0, .receive 0 0 10]
  have evaluated : (actions.foldlM exec atBottom).any (fun s =>
      decide ((s.sends = [(1, 0)] ∧ s.clock = 10) ∧
        (s.loops 0).nextTick = 0 ∧ (s.loops 1).lastStep = 0)) = true := by decide +kernel
  obtain ⟨trace, s, run, labels, checked⟩ := Run.of_check TimedStep id evaluated
  obtain ⟨⟨sends, clock⟩, nextTick, lastStep⟩ := of_decide_eq_true checked
  obtain ⟨taken, l, turns, all, past, ticks, others⟩ := turns_possible costsFit_config
    launched_atBottom run 0 { floorSensor := 0 } 20 800 (by rw [clock]; decide)
    (by rw [nextTick]; decide)
  have kept : l.sends = s.sends := turns.invariant_of_admitted (fun t => Turns 0 t.action)
    (fun l : TimedFleet Config.kFloors => l.sends = s.sends)
    (fun {k k' action} step turns same => by
      rw [(step_cases step).2.2.2.2]
      cases action with
      | sync => exact same
      | handle | transmit | receive | restart => exact absurd turns id) all rfl
  refine ⟨_, l, run.append turns, fun t member => ?_, ?_, kept.trans sends, past, ?_, ?_⟩
  · rcases List.mem_append.1 member with before | after
    · have listed : t.action ∈ actions := labels ▸ List.mem_map_of_mem before
      simp only [actions, List.mem_cons, List.not_mem_nil, or_false] at listed
      exact listed.imp_right .inl
    · exact .inr (.inr (all t after))
  · obtain ⟨t, member, receives⟩ : ∃ t ∈ trace, t.action = .receive 0 0 10 :=
      List.mem_map.1 (labels ▸ by simp [actions])
    exact ⟨t, List.mem_append_left _ member, receives⟩
  · rw [ticks, nextTick]
    decide
  · rw [others 1 (by decide), lastStep]

/-- A node hears of another once, and goes on stepping. -/
theorem silent_node_given_up_once : ∃ trace s, Run TimedStep atBottom trace s ∧
    (∃ t ∈ trace, Hears 0 1 t 10) ∧ ((s.fleet.node 0).peers.allStates 1).active = false := by
  obtain ⟨trace, s, run, listed, ⟨t, member, receives⟩, sends, -, nextTick, -⟩ := heard_once
  have stays : ∀ t ∈ trace, ¬Fleet.Relaunches 0 t.action.toFleet := by
    intro t member
    rcases listed t member with action | action | turns
    · exact action ▸ id
    · exact action ▸ id
    · exact (quiet_of_turns (i := 0) (j := 0) turns).1
  have silent : ∀ t ∈ trace, ∀ instant, Hears 0 1 t instant →
      instant + kWatchdogTimeMs + kSampleTimeMs + 0 ≤ 800 := by
    intro t member instant hears
    obtain ⟨position, packet, receives, -⟩ := receives_of_hears hears
    rcases listed t member with action | action | turns
    · cases action.symm.trans receives
    · cases action.symm.trans receives
      decide
    · exact absurd hears ((quiet_of_turns (i := 0) (j := 1) turns).2 instant)
  have recorded : s.sends[0]? = some (1, 0) := by rw [sends]; rfl
  have hears := (hears_of_receive launched_atBottom run member receives recorded).1
  exact ⟨trace, s, run, ⟨t, member, hears⟩, silent_node_given_up launched_atBottom (by decide) run
    stays nextTick.ge silent (.nil s) fun _ none => absurd none List.not_mem_nil⟩

/-- Node `q` processes no packet of node `p` later than `delay` after it was sent. -/
def Prompt (p q : Fin kElevs) (delay : Nat) :
    Transition (TimedFleet kFloors) (TimedAction kFloors) → Prop
  | ⟨pre, .receive i position now, _⟩ =>
    i = q → ∀ sent, pre.sends[position]? = some (p, sent) → now ≤ sent + delay
  | _ => True

/-- A packet that a node hears of another is recorded as sent by it. -/
theorem recorded_of_hears (logged : s.Logged) {position : Nat} {packet : ReceivedPacket kFloors}
    (arrived : s.fleet.sent[position]?.bind recievePacket = some packet) :
    s.fleet.sent[position]? = some packet.toNetworkPacket ∧
      ∃ sent, s.sends[position]? = some (packet.sender, sent) := by
  obtain ⟨carried, sent, accepted⟩ := Option.bind_eq_some_iff.1 arrived
  obtain rfl := eq_of_recievePacket accepted
  have inside : position < s.sends.length := by
    rw [logged.length]
    exact (List.getElem?_eq_some_iff.1 sent).1
  have there := List.getElem?_eq_getElem inside
  have named := logged.sender position _ _ _ there sent
  have same : (s.sends[position]).1 = packet.sender :=
    Fin.ext (Int.ofNat.inj (named.symm.trans packet.id_eq_sender))
  exact ⟨sent, (s.sends[position]).2, by rw [there, ← same]⟩

/-- When the process of a node is running again, every node whose control loop is not late has given it
up: the startup time outlasts the watchdog time. -/
theorem given_up_at_relaunch (launched : start.Launched) (apart : p ≠ q)
    (run : Run TimedStep start trace s) (stays : ∀ t ∈ trace, ¬Fleet.Relaunches q t.action.toFleet)
    {initial signals : Signals kFloors} {now started late delay : Nat}
    (prompt : ∀ t ∈ trace, Prompt p q delay t)
    (relaunch : TimedStep s (.restart p initial now signals started) s')
    (awake : now ≤ (s.loops q).nextTick + late)
    (fits : delay + kWatchdogTimeMs + kSampleTimeMs + late ≤ kStartupTimeMs) :
    (s.loops p).lastStep + kStartupTimeMs ≤ now ∧
      ((s.fleet.node q).peers.allStates p).active = false := by
  have waited : (s.loops p).lastStep + kStartupTimeMs ≤ now := by
    have due := (step_cases relaunch).1
    simp only [TimedFleet.due, Bool.and_eq_true, decide_eq_true_eq] at due
    exact due.2.1
  refine ⟨waited, given_up_of_silent launched apart run stays awake fun t member instant hears => ?_⟩
  obtain ⟨position, packet, receives, arrived, rfl⟩ := receives_of_hears hears
  obtain ⟨logged, kept⟩ := logged_before launched run t member
  obtain ⟨-, sent, recorded⟩ := recorded_of_hears logged arrived
  have inTime : instant ≤ sent + delay := by
    have known := prompt t member
    obtain ⟨pre, action, post⟩ := t
    obtain rfl := receives
    exact known rfl sent recorded
  have since := (Logged.of_run launched run).since _
    (List.mem_of_getElem? (kept position _ recorded))
  dsimp only at since
  omega

/-- What a node stores for another is nothing, or a state that the other has sent as a packet at position
`first` or later. -/
def SentSince (first : Nat) (p q : Fin kElevs) (s : TimedFleet kFloors) : Prop :=
  ((s.fleet.node q).peers.allStates p).active = false ∧
      ((s.fleet.node q).peers.allStates p).version = 0 ∨
    ∃ position packet, first ≤ position ∧ (∃ sent, s.sends[position]? = some (p, sent)) ∧
      s.fleet.sent[position]? = some packet ∧ packet.state = (s.fleet.node q).peers.allStates p

/-- A packet under way stays there. -/
theorem sent_persists (step : TimedStep s action s') {position : Nat} {packet : NetworkPacket kFloors}
    (sent : s.fleet.sent[position]? = some packet) : s'.fleet.sent[position]? = some packet := by
  rcases sends_cases step with ⟨i, woken, now, -, -, grown⟩ | ⟨-, same⟩
  · have inside := (List.getElem?_eq_some_iff.1 sent).1
    rwa [grown, List.getElem?_append_left inside]
  · rwa [same]

/-- Processing none but packets sent since then keeps it so. -/
theorem SentSince.step {first : Nat} (since : SentSince first p q s) (logged : s.Logged)
    (serving : s.fleet.Serving (fun _ => True) Honest) (apart : p ≠ q) (step : TimedStep s action s')
    (stays : ¬Fleet.Relaunches q action.toFleet)
    (recent : ∀ position now, action = .receive q position now →
      ∀ sent, s.sends[position]? = some (p, sent) → first ≤ position) : SentSince first p q s' := by
  have executed := (step_cases step).2.1
  have stay (same : (s'.fleet.node q).peers.allStates p = (s.fleet.node q).peers.allStates p) :
      SentSince first p q s' := by
    unfold SentSince
    rw [same]
    rcases since with unknown | ⟨position, packet, late, ⟨sent, recorded⟩, carried, state⟩
    · exact .inl unknown
    · exact .inr ⟨position, packet, late, ⟨sent, entry_persists step recorded⟩,
        sent_persists step carried, state⟩
  rcases Fleet.regard_cases apart serving executed stays with ⟨now, signals, -, looked⟩ |
    ⟨position, now, packet, receives, arrived, rfl, honest, set⟩ | ⟨-, same⟩
  · have view := congrArg Prod.fst looked
    unfold watch at view
    split_ifs at view
    · left
      rw [show (s'.fleet.node q).peers.allStates p = _ from view]
      exact ⟨rfl, rfl⟩
    · exact stay view
  · have view : (s'.fleet.node q).peers.allStates packet.sender =
        ((s.fleet.node q).peers.allStates packet.sender).onUpdate packet.state := congrArg Prod.fst set
    obtain ⟨carried, sent, recorded⟩ := recorded_of_hears logged arrived
    have received : action = .receive q position now := by
      cases action <;> cases receives
      rfl
    unfold ElevatorState.onUpdate at view
    split_ifs at view
    · exact stay view
    · exact .inr ⟨position, packet.toNetworkPacket, recent position now received sent recorded,
        ⟨sent, entry_persists step recorded⟩, sent_persists step carried, view.symm⟩
  · exact stay (congrArg Prod.fst same)

/-- In every run of a fleet on the clock whose packets are not delayed for long: when the process of a node
is running again, every node that was not launched again in the run and whose control loop is not late then
has given it up, and as long as that node is not launched again either, it stores no active state for the
first from then on but one that the new process has sent. -/
theorem relaunched_node_readopted (launched : start.Launched) (apart : p ≠ q)
    (run : Run TimedStep start trace s) (stays : ∀ t ∈ trace, ¬Fleet.Relaunches q t.action.toFleet)
    {initial signals : Signals kFloors} {now started late delay : Nat}
    (prompt : ∀ t ∈ trace, Prompt p q delay t) {l : TimedFleet kFloors}
    (relaunch : TimedStep s (.restart p initial now signals started) l)
    (awake : now ≤ (s.loops q).nextTick + late)
    (fits : delay + kWatchdogTimeMs + kSampleTimeMs + late ≤ kStartupTimeMs)
    {trace' : List (Transition (TimedFleet kFloors) (TimedAction kFloors))}
    (after : Run TimedStep l trace' s')
    (goesOn : ∀ t ∈ trace', ¬Fleet.Relaunches q t.action.toFleet ∧ Prompt p q delay t) :
    ((l.fleet.node q).peers.allStates p).active = false ∧
      (((s'.fleet.node q).peers.allStates p).active = true → ∃ position packet,
        s.sends.length ≤ position ∧ (∃ sent, s'.sends[position]? = some (p, sent)) ∧
          s'.fleet.sent[position]? = some packet ∧
            packet.state = (s'.fleet.node q).peers.allStates p) := by
  obtain ⟨waited, inactive⟩ :=
    given_up_at_relaunch launched apart run stays prompt relaunch awake fits
  have serving := launched.fleet.serving peersRule_honest (fleet_run run)
  have logged := Logged.of_run launched run
  have tracks := Fleet.tracks_of_run launched.fleet apart (fleet_run run) (readings_past run le_rfl)
  obtain ⟨-, executed, clock, -, sends⟩ := step_cases relaunch
  have kept : (l.fleet.node q).peers.allStates p = (s.fleet.node q).peers.allStates p := by
    obtain ⟨-, done⟩ := Option.ite_none_right_eq_some.1 executed
    obtain ⟨n, -, same⟩ := Option.map_eq_some_iff.1 done
    rw [← same, Fleet.setNode_node_of_ne _ _ (Ne.symm apart)]
  -- what the old process has sent is older than the delay by the time the new one is running
  have old (position sent : Nat) (inside : position < s.sends.length)
      (recorded : l.sends[position]? = some (p, sent)) : sent + delay < now := by
    rw [show l.sends = s.sends from sends] at recorded
    have since := logged.since _ (List.mem_of_getElem? recorded)
    have margin : 0 < kSampleTimeMs := by decide
    dsimp only at since
    omega
  have reached : (s'.Logged ∧ s'.fleet.Serving (fun _ => True) Honest) ∧
      SentSince s.sends.length p q s' ∧ now ≤ s'.clock ∧
        ∀ position < s.sends.length, s'.sends[position]? = l.sends[position]? := by
    apply after.invariant_of_admitted
      (fun t => ¬Fleet.Relaunches q t.action.toFleet ∧ Prompt p q delay t)
      (fun k : TimedFleet kFloors => (k.Logged ∧ k.fleet.Serving (fun _ => True) Honest) ∧
        SentSince s.sends.length p q k ∧ now ≤ k.clock ∧
          ∀ position < s.sends.length, k.sends[position]? = l.sends[position]?) ?_ goesOn
    · refine ⟨⟨logged.step relaunch, serving.step peersRule_honest executed⟩, .inl ?_, clock.ge,
        fun _ _ => rfl⟩
      rw [kept]
      exact ⟨inactive, tracks.forgotten inactive⟩
    · rintro k k' action step ⟨stays, prompt⟩ ⟨⟨logged, serving⟩, since, late, same⟩
      obtain ⟨-, executed, clock, -⟩ := step_cases step
      have later := clock_le_time step
      refine ⟨⟨logged.step step, serving.step peersRule_honest executed⟩, ?_, ?_, ?_⟩
      · apply since.step logged serving apart step stays
        rintro position instant rfl sent recorded
        by_contra before
        have inside := Nat.lt_of_not_le before
        have past := old position sent inside ((same position inside).symm.trans recorded)
        have quick := prompt rfl sent recorded
        have reading : k.clock ≤ instant := later
        omega
      · rw [clock]
        exact late.trans later
      · intro position inside
        have there : position < l.sends.length := by rwa [show l.sends = s.sends from sends]
        have entry := List.getElem?_eq_getElem there
        rw [entry]
        exact entry_persists step ((same position inside).trans entry)
  refine ⟨kept ▸ inactive, fun active => ?_⟩
  rcases reached.2.1 with ⟨unknown, -⟩ | known
  · rw [unknown] at active
    cases active
  · exact known

/-- Node 1 is started again at 1300. -/
theorem relaunched_node_readopted_late : ∃ trace s l, Run TimedStep atBottom trace s ∧
    (∃ t ∈ trace, t.action = .receive 0 0 10) ∧
    TimedStep s (.restart 1 { floorSensor := 0 } 1300 { floorSensor := 0 } 1300) l ∧
    ((l.fleet.node 0).peers.allStates 1).active = false := by
  obtain ⟨trace, s, run, listed, heard, sends, clock, nextTick, lastStep⟩ := heard_once
  have stays : ∀ t ∈ trace, ¬Fleet.Relaunches 0 t.action.toFleet := by
    intro t member
    rcases listed t member with action | action | turns
    · exact action ▸ id
    · exact action ▸ id
    · exact (quiet_of_turns (i := 0) (j := 0) turns).1
  have prompt : ∀ t ∈ trace, Prompt 1 0 20 t := by
    rintro ⟨pre, action, post⟩ member
    rcases listed _ member with rfl | rfl | turns
    · exact trivial
    · intro _ sent _
      exact Nat.le_add_left 10 (sent + 10)
    · cases action with
      | sync => exact trivial
      | handle | transmit | receive | restart => exact absurd turns id
  obtain ⟨l, relaunch⟩ :
      ∃ l, TimedStep s (.restart 1 { floorSensor := 0 } 1300 { floorSensor := 0 } 1300) l := by
    have ready :
        s.due (.restart 1 { floorSensor := 0 } 1300 { floorSensor := 0 } 1300) = true := by
      have past : s.clock ≤ 1300 := le_trans clock (by decide)
      have waited : (s.loops 1).lastStep + kStartupTimeMs ≤ 1300 := by
        rw [lastStep]
        decide
      exact Bool.and_eq_true_iff.2 ⟨decide_eq_true past,
        Bool.and_eq_true_iff.2 ⟨decide_eq_true waited, decide_eq_true le_rfl⟩⟩
    have atFloor : Signals.AtFloor ({ floorSensor := 0 } : Signals Config.kFloors) := by decide
    have starts : (ElevatorNode.launch 1 ({ floorSensor := 0 } : Signals Config.kFloors)
        { now := 1300, signals := { floorSensor := 0 } }).isSome = true := by decide
    obtain ⟨n, started⟩ := Option.isSome_iff_exists.1 starts
    unfold TimedStep TimedFleet.exec
    rw [if_pos ready]
    simp only [TimedAction.toFleet, Fleet.execRestart, if_pos atFloor, started, Option.map_some]
    exact ⟨_, rfl⟩
  have awake : 1300 ≤ (s.loops 0).nextTick + 500 := by rw [nextTick]
  exact ⟨trace, s, l, run, heard, relaunch, (relaunched_node_readopted launched_atBottom (by decide)
    run stays prompt relaunch awake (by decide) (.nil l)
    fun _ none => absurd none List.not_mem_nil).1⟩

end TimedFleet

end CppElevator
