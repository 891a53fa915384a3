import CppElevator.Library.Pacing
import CppElevator.MainLoops
import CppElevator.Verif.FailureDetector
import CppElevator.Verif.PacketValidity

/-!
# Heartbeats

The packets of a node are its heartbeats. The sending thread never sends them faster than its period
allows, and as long as it is never late by much, few of them are lost in a row and none is delayed by
much, no node that goes on stepping gives the sender up.
-/
namespace CppElevator

open Library Config Peers

variable {kFloors : Nat}

namespace Fleet

/-- The packets a step sends. -/
def sentBy (s : Fleet kFloors) : FleetRestartAction kFloors → List (NetworkPacket kFloors)
  | .run (.transmit i) => [(s.node i).peers.txPacketCopy]
  | _ => []

/-- A step adds them to those under way. -/
theorem sent_step {s s' : Fleet kFloors} {action : FleetRestartAction kFloors}
    (step : FleetRestartStep s action s') : s'.sent = s.sent ++ s.sentBy action := by
  cases action with
  | run action =>
    cases action with
    | sync i now signals =>
      obtain ⟨n, -, rfl⟩ := Option.map_eq_some_iff.1 step
      exact (List.append_nil _).symm
    | handle i now floorSensor =>
      obtain ⟨n, -, rfl⟩ := Option.map_eq_some_iff.1 step
      exact (List.append_nil _).symm
    | transmit i =>
      obtain rfl := Option.some.inj step
      rfl
    | receive i position now =>
      rcases receive_cases step with ⟨-, -, -, rfl⟩ | ⟨received, -, rfl⟩
      · exact (List.append_nil _).symm
      · exact (List.append_nil _).symm
  | restart i initial first =>
    obtain ⟨-, done⟩ := Option.ite_none_right_eq_some.1 step
    obtain ⟨n, -, rfl⟩ := Option.map_eq_some_iff.1 done
    exact (List.append_nil _).symm

end Fleet

namespace TimedFleet

variable {s s' start : TimedFleet kFloors} {action : TimedAction kFloors} {p q : Fin kElevs}
  {trace : List (Transition (TimedFleet kFloors) (TimedAction kFloors))}

/-- A step on the clock is a step of the fleet, taken when it is due. -/
theorem step_cases (step : TimedStep s action s') :
    s.due action = true ∧ FleetRestartStep s.fleet action.toFleet s'.fleet ∧
      s'.clock = action.time ∧
      s'.loops = Function.update s.loops action.node (loopsAfter (s.loops action.node) action) ∧
      s'.sends = sendsAfter s.sends action := by
  obtain ⟨due, done⟩ := Option.ite_none_right_eq_some.1 step
  obtain ⟨fleet, executed, rfl⟩ := Option.map_eq_some_iff.1 done
  exact ⟨due, executed, rfl, rfl, rfl⟩

/-- Time does not go back. -/
theorem clock_le_time (step : TimedStep s action s') : s.clock ≤ action.time :=
  of_decide_eq_true (Bool.and_eq_true_iff.1 (step_cases step).1).1

/-- The step of the fleet. -/
def fleetStep (t : Transition (TimedFleet kFloors) (TimedAction kFloors)) :
    Transition (Fleet kFloors) (FleetRestartAction kFloors) :=
  ⟨t.pre.fleet, t.action.toFleet, t.post.fleet⟩

/-- A run on the clock is a run of the fleet. -/
theorem fleet_run (run : Run TimedStep start trace s) :
    Run FleetRestartStep start.fleet (trace.map fleetStep) s.fleet :=
  run.image TimedFleet.fleet (fun t => t.action.toFleet) (fun _ => True)
    (fun step _ => ⟨trivial, (step_cases step).2.1⟩) trivial

/-- A run has taken its steps by the instant of the last one. -/
theorem time_le_clock (run : Run TimedStep start trace s) : ∀ t ∈ trace, t.action.time ≤ s.clock := by
  intro t member
  have steps := run.steps
  apply run.persists (fun l => t.action.time ≤ l.clock) ?_ member
  · exact (step_cases (steps t member)).2.2.1.ge
  · intro u taken reached
    have step := steps u taken
    rw [(step_cases step).2.2.1]
    exact reached.trans (clock_le_time step)

/-- What a step reads under a lock is its instant. -/
theorem time_of_lockedReading {reading : Nat}
    (reads : reading ∈ Fleet.lockedReading q p action.toFleet) : reading = action.time := by
  cases action with
  | sync i now signals =>
    simp only [TimedAction.toFleet, Fleet.lockedReading] at reads
    split_ifs at reads
    · exact (Option.some.inj reads).symm
    · cases reads
  | receive i position now =>
    simp only [TimedAction.toFleet, Fleet.lockedReading] at reads
    split_ifs at reads
    · exact (Option.some.inj reads).symm
    · cases reads
  | handle | transmit | restart => cases reads

/-- What the threads of a node have read lies in the past. -/
theorem readings_past (run : Run TimedStep start trace s) {now : Nat} (past : s.clock ≤ now) :
    ∀ t ∈ trace.map fleetStep, ∀ reading ∈ Fleet.lockedReading q p t.action, reading ≤ now := by
  intro t member reading reads
  obtain ⟨u, taken, rfl⟩ := List.mem_map.1 member
  have instant : reading = u.action.time := time_of_lockedReading reads
  rw [instant]
  exact (time_le_clock run u taken).trans past

/-- A node sends a packet, or the packets stay the same. -/
theorem sends_cases (step : TimedStep s action s') :
    (∃ i woken now, action = .transmit i woken now ∧ s'.sends = s.sends ++ [(i, woken)] ∧
        s'.fleet.sent = s.fleet.sent ++ [(s.fleet.node i).peers.txPacketCopy]) ∨
      s'.sends = s.sends ∧ s'.fleet.sent = s.fleet.sent := by
  obtain ⟨-, done, -, -, sends⟩ := step_cases step
  have sent := Fleet.sent_step done
  cases action with
  | transmit i woken now => exact .inl ⟨i, woken, now, rfl, sends, sent⟩
  | sync | handle | receive | restart => exact .inr ⟨sends, sent.trans (List.append_nil _)⟩

/-- What has been recorded of a packet stays recorded. -/
theorem entry_persists (step : TimedStep s action s') {position : Nat} {entry : Fin kElevs × Nat}
    (recorded : s.sends[position]? = some entry) : s'.sends[position]? = some entry := by
  rcases sends_cases step with ⟨i, woken, now, -, sends, -⟩ | ⟨sends, -⟩
  · have inside := (List.getElem?_eq_some_iff.1 recorded).1
    rwa [sends, List.getElem?_append_left inside]
  · rwa [sends]

/-- A node takes its last step now. -/
theorem lastStep_loopsAfter (l : MainLoops) (action : TimedAction kFloors) :
    (loopsAfter l action).lastStep = action.time := by
  cases action <;> rfl

/-- The sending thread waits for a later deadline after sending, and not for long. -/
theorem nextTx_afterSend (l : MainLoops) (now : Nat) :
    now ≤ (l.afterSend now).nextTx ∧ l.nextTx + kTxPeriodMs ≤ (l.afterSend now).nextTx ∧
      (l.afterSend now).nextTx ≤ max l.nextTx now + kTxPeriodMs := by
  unfold MainLoops.afterSend
  dsimp only
  split_ifs with behind <;> omega

/-- The packets under way and the record kept of them. -/
structure Logged (s : TimedFleet kFloors) : Prop where
  /-- All nodes serve, and all packets are valid. -/
  serving : s.fleet.Serving OrdersValid (·.valid = true)
  /-- Every packet is recorded. -/
  length : s.sends.length = s.fleet.sent.length
  /-- A packet names the node that is recorded. -/
  sender : ∀ (position : Nat) (i : Fin kElevs) (instant : Nat) (packet : NetworkPacket kFloors),
    s.sends[position]? = some (i, instant) → s.fleet.sent[position]? = some packet → packet.id = i.val
  /-- The node has sent it by its last step. -/
  since : ∀ entry ∈ s.sends, entry.2 ≤ (s.loops entry.1).lastStep
  /-- A node has taken its last step by the present. -/
  lastStep : ∀ i, (s.loops i).lastStep ≤ s.clock

namespace Logged

/-- A step is recorded. -/
theorem step (logged : s.Logged) (step : TimedStep s action s') : s'.Logged := by
  obtain ⟨-, done, clock, loops, -⟩ := step_cases step
  have later := clock_le_time step
  have serving := logged.serving.step OrdersValid.rule done
  have now (i : Fin kElevs) : (s.loops i).lastStep ≤ (s'.loops i).lastStep ∧
      (s'.loops i).lastStep ≤ s'.clock := by
    have known := logged.lastStep i
    rw [loops, clock]
    by_cases here : i = action.node
    · subst here
      rw [Function.update_self, lastStep_loopsAfter]
      omega
    · rw [Function.update_of_ne here]
      omega
  rcases sends_cases step with ⟨i, woken, sentAt, rfl, sends, sent⟩ | ⟨sends, sent⟩
  · refine ⟨serving, ?_, fun position j instant packet recorded named => ?_, fun entry member => ?_,
      fun j => (now j).2⟩
    · rw [sends, sent, List.length_append, List.length_append, logged.length]
      rfl
    · have inside := (List.getElem?_eq_some_iff.1 recorded).1
      rw [sends] at inside recorded
      rw [sent] at named
      rw [List.length_append, List.length_singleton] at inside
      rcases Nat.lt_or_ge position s.sends.length with old | new
      · rw [List.getElem?_append_left old] at recorded
        rw [List.getElem?_append_left (logged.length ▸ old)] at named
        exact logged.sender position j instant packet recorded named
      · have last : position = s.sends.length := by omega
        rw [last, List.getElem?_concat_length] at recorded
        rw [last, logged.length, List.getElem?_concat_length] at named
        obtain ⟨rfl, -⟩ := Prod.mk.inj (Option.some.inj recorded)
        rw [← Option.some.inj named]
        exact logged.serving.id_txPacketCopy i
    · rw [sends] at member
      rcases List.mem_append.1 member with old | new
      · exact (logged.since entry old).trans (now entry.1).1
      · rw [List.mem_singleton.1 new, loops]
        simp only [TimedAction.node, Function.update_self, lastStep_loopsAfter, TimedAction.time]
        exact le_rfl
  · refine ⟨serving, ?_, ?_, fun entry member => ?_, fun j => (now j).2⟩
    · rw [sends, sent, logged.length]
    · rw [sends, sent]
      exact logged.sender
    · rw [sends] at member
      exact (logged.since entry member).trans (now entry.1).1

/-- After every run. -/
theorem of_run (launched : start.Launched) (run : Run TimedStep start trace s) : s.Logged := by
  apply run.invariant Logged fun step logged => logged.step step
  have quiet := launched.fleet.sent
  refine ⟨launched.fleet.serving OrdersValid.rule (.nil _), ?_, ?_, ?_, fun i => (launched.loops i).2.2⟩
  · rw [launched.sends, quiet]
    rfl
  · intro position i instant packet recorded
    rw [launched.sends] at recorded
    cases recorded
  · rw [launched.sends]
    exact fun entry member => absurd member List.not_mem_nil

end Logged

/-- The packets of a node, oldest first: where each is among all packets, and when it was sent. -/
def beats (p : Fin kElevs) (s : TimedFleet kFloors) : List (Nat × Nat) :=
  s.sends.zipIdx.filterMap fun entry => if entry.1.1 = p then some (entry.2, entry.1.2) else none

/-- A packet of a node is one recorded as its own. -/
theorem mem_beats {position instant : Nat} :
    (position, instant) ∈ s.beats p ↔ s.sends[position]? = some (p, instant) := by
  simp only [beats, List.mem_filterMap, Option.ite_none_right_eq_some, Option.some.injEq,
    Prod.mk.injEq]
  constructor
  · rintro ⟨⟨⟨i, t⟩, k⟩, member, rfl, rfl, rfl⟩
    exact List.mem_zipIdx_iff_getElem?.1 member
  · intro recorded
    exact ⟨((p, instant), position), List.mem_zipIdx_iff_getElem?.2 recorded, rfl, rfl, rfl⟩

/-- The sending thread of a node sends a packet when it is due, or starts again, or waits on. -/
theorem beats_cases (p : Fin kElevs) (step : TimedStep s action s') :
    (∃ woken now, action = .transmit p woken now ∧ (s.loops p).nextTx ≤ woken ∧ woken ≤ now ∧
        s'.beats p = s.beats p ++ [(s.sends.length, woken)] ∧
        (s'.loops p).nextTx = ((s.loops p).afterSend now).nextTx) ∨
      (∃ initial now signals started, action = .restart p initial now signals started ∧
        (s.loops p).lastStep + kStartupTimeMs ≤ now ∧ now ≤ started ∧
        s'.beats p = s.beats p ∧ (s'.loops p).nextTx = started) ∨
      s'.beats p = s.beats p ∧ (s'.loops p).nextTx = (s.loops p).nextTx := by
  obtain ⟨due, -, -, loops, sends⟩ := step_cases step
  have same (quiet : s'.sends = s.sends) : s'.beats p = s.beats p := by
    unfold beats
    rw [quiet]
  have other (apart : p ≠ action.node) : (s'.loops p).nextTx = (s.loops p).nextTx := by
    rw [loops, Function.update_of_ne apart]
  cases action with
  | transmit i woken now =>
    simp only [TimedFleet.due, Bool.and_eq_true, decide_eq_true_eq] at due
    have grown : s'.beats p =
        s.beats p ++ if i = p then [(s.sends.length, woken)] else [] := by
      simp only [beats, sends, sendsAfter, List.zipIdx_append, List.filterMap_append, Nat.zero_add]
      split_ifs with here <;> simp [here]
    by_cases here : i = p
    · subst here
      rw [if_pos rfl] at grown
      refine .inl ⟨woken, now, rfl, due.2.1, due.2.2, grown, ?_⟩
      rw [loops]
      simp only [TimedAction.node, Function.update_self, loopsAfter]
    · rw [if_neg here, List.append_nil] at grown
      exact .inr (.inr ⟨grown, other (Ne.symm here)⟩)
  | restart i initial now signals started =>
    simp only [TimedFleet.due, Bool.and_eq_true, decide_eq_true_eq] at due
    by_cases here : i = p
    · subst here
      refine .inr (.inl ⟨initial, now, signals, started, rfl, due.2.1, due.2.2, same sends, ?_⟩)
      rw [loops]
      simp only [TimedAction.node, Function.update_self, loopsAfter]
    · exact .inr (.inr ⟨same sends, other (Ne.symm here)⟩)
  | sync i | handle i | receive i =>
    refine .inr (.inr ⟨same sends, ?_⟩)
    by_cases here : p = i
    · subst here
      rw [loops]
      simp only [TimedAction.node, Function.update_self, loopsAfter, MainLoops.tick]
    · exact other here

/-- A fleet launched with every car at the bottom floor, its loops just started. -/
def atBottom : TimedFleet Config.kFloors where
  fleet := Fleet.atBottom
  clock := 0
  loops _ := { nextTick := 0, nextTx := 0, lastStep := 0 }
  sends := []

/-- It has been launched. -/
theorem launched_atBottom : atBottom.Launched where
  fleet := Fleet.launched_atBottom
  sends := rfl
  loops _ := ⟨le_rfl, le_rfl, le_rfl⟩

/-- In every run of a fleet on the clock, crashes and launches included, a node never floods the network:
any two of its packets are at least the sending period apart for every packet it sends between them,
however late its sending thread is woken and however long sending takes. -/
theorem packets_spaced (launched : start.Launched) (run : Run TimedStep start trace s)
    (p : Fin kElevs) : Spaced kTxPeriodMs ((s.beats p).map Prod.snd) := by
  have reached : s.Logged ∧ Spaced kTxPeriodMs ((s.beats p).map Prod.snd ++ [(s.loops p).nextTx]) := by
    apply run.invariant fun l : TimedFleet kFloors =>
      l.Logged ∧ Spaced kTxPeriodMs ((l.beats p).map Prod.snd ++ [(l.loops p).nextTx])
    · rintro l l' action step ⟨logged, spaced⟩
      refine ⟨logged.step step, ?_⟩
      rcases beats_cases p step with ⟨woken, now, -, due, sent, beats, nextTx⟩ |
        ⟨-, now, -, started, -, waited, starts, beats, nextTx⟩ | ⟨beats, nextTx⟩
      · obtain ⟨ahead, later, -⟩ := nextTx_afterSend (l.loops p) now
        rw [beats, nextTx, List.map_append, List.map_singleton]
        exact spaced.next due (sent.trans ahead) later
      · rw [beats, nextTx]
        apply spaced.left.restart
        intro instant member
        obtain ⟨⟨position, _⟩, beat, rfl⟩ := List.mem_map.1 member
        have recorded := List.mem_of_getElem? (mem_beats.1 beat)
        have since := logged.since _ recorded
        have period : kTxPeriodMs ≤ kStartupTimeMs := by decide
        dsimp only at since
        omega
      · rwa [beats, nextTx]
    · have none : start.beats p = [] := by
        unfold beats
        rw [launched.sends]
        rfl
      rw [none]
      exact ⟨.of_run launched (.nil start), spaced_singleton _ _⟩
  exact reached.2.left

/-- A sending thread that is woken late does not catch up. -/
theorem packets_spaced_late : ∃ s : TimedFleet Config.kFloors, (s.beats 1).map Prod.snd = [130, 180, 230] ∧
    Spaced kTxPeriodMs ((s.beats 1).map Prod.snd) := by
  let actions : List (TimedAction Config.kFloors) :=
    [.transmit 1 130 130, .transmit 1 180 185, .transmit 1 230 230]
  have evaluated : (actions.foldlM exec atBottom).any (fun s =>
      decide ((s.beats 1).map Prod.snd = [130, 180, 230])) = true := by decide
  obtain ⟨trace, s, run, -, sent⟩ := Run.of_check TimedStep id evaluated
  exact ⟨s, of_decide_eq_true sent, packets_spaced launched_atBottom run 1⟩

/-- The sending thread of a node is never woken later than `late` after its deadline, sending takes it
`busy` at most, and its process is not started again. -/
def Punctual (p : Fin kElevs) (late busy : Nat) :
    Transition (TimedFleet kFloors) (TimedAction kFloors) → Prop
  | ⟨pre, .transmit i woken now, _⟩ =>
    i = p → woken ≤ (pre.loops p).nextTx + late ∧ now ≤ woken + busy
  | ⟨_, .restart i _ _ _ _, _⟩ => i ≠ p
  | _ => True

instance (p : Fin kElevs) (late busy : Nat) : DecidablePred (@Punctual kFloors p late busy)
  | ⟨pre, .transmit i woken now, _⟩ =>
    inferInstanceAs (Decidable (i = p → woken ≤ (pre.loops p).nextTx + late ∧ now ≤ woken + busy))
  | ⟨_, .restart i _ _ _ _, _⟩ => inferInstanceAs (Decidable (i ≠ p))
  | ⟨_, .sync _ _ _, _⟩ | ⟨_, .handle _ _ _, _⟩ | ⟨_, .receive _ _ _, _⟩ => isTrue trivial

/-- The packets of a punctual node come close together, up to the present if it is not late now. -/
theorem beats_of_punctual (launched : start.Launched) (run : Run TimedStep start trace s)
    {late busy : Nat} (punctual : ∀ t ∈ trace, Punctual p late busy t) :
    Beats (kTxPeriodMs + late + busy)
      (((start.loops p).nextTx + late) :: (s.beats p).map Prod.snd ++ [(s.loops p).nextTx + late]) := by
  apply run.invariant_of_admitted (Punctual p late busy) (fun l : TimedFleet kFloors =>
    Beats (kTxPeriodMs + late + busy)
      (((start.loops p).nextTx + late) :: (l.beats p).map Prod.snd ++ [(l.loops p).nextTx + late]))
    ?_ punctual
  · have none : start.beats p = [] := by
      unfold beats
      rw [launched.sends]
      rfl
    rw [none]
    unfold Beats
    simp
  · intro l l' action step admitted close
    rcases beats_cases p step with ⟨woken, now, rfl, due, sent, beats, nextTx⟩ |
      ⟨initial, now, signals, started, rfl, -⟩ | ⟨beats, nextTx⟩
    · obtain ⟨awake, quick⟩ := admitted rfl
      obtain ⟨-, -, soon⟩ := nextTx_afterSend (l.loops p) now
      rw [beats, nextTx, List.map_append, List.map_singleton, ← List.cons_append]
      apply (close.sooner awake).next
      omega
    · exact absurd rfl admitted
    · rwa [beats, nextTx]

/-- A step makes a node hear of another at an instant. -/
def Hears (q p : Fin kElevs) (t : Transition (TimedFleet kFloors) (TimedAction kFloors))
    (instant : Nat) : Prop :=
  Fleet.noteHeard q p t.pre.fleet none t.action.toFleet = some instant

/-- That is its own instant, and the step processes a packet of the other. -/
theorem receives_of_hears {t : Transition (TimedFleet kFloors) (TimedAction kFloors)} {instant : Nat}
    (hears : Hears q p t instant) : ∃ position packet, t.action = .receive q position instant ∧
      t.pre.fleet.sent[position]?.bind recievePacket = some packet ∧ packet.sender = p := by
  obtain ⟨pre, action, post⟩ := t
  unfold Hears at hears
  cases action with
  | receive i position now =>
    simp only [TimedAction.toFleet, Fleet.noteHeard, Option.or_none, Fleet.hears] at hears
    split_ifs at hears with named
    · obtain ⟨rfl, any⟩ := named
      obtain ⟨packet, arrived, sender⟩ := (Option.any_eq_true _ _).1 any
      rw [Option.some.inj hears]
      exact ⟨position, packet, rfl, arrived, of_decide_eq_true sender⟩
  | restart i =>
    simp [TimedAction.toFleet, Fleet.noteHeard] at hears
  | sync | handle | transmit => cases hears

/-- Some step made a node hear of what it heard last. -/
theorem hears_of_lastHeard {heard : Nat}
    (last : Fleet.lastHeard q p (trace.map fleetStep) = some heard) : ∃ t ∈ trace, Hears q p t heard := by
  induction trace using List.reverseRecOn with
  | nil => cases last
  | append_singleton trace t ih =>
    have earlier (before : Fleet.lastHeard q p (trace.map fleetStep) = some heard) :
        ∃ u ∈ trace ++ [t], Hears q p u heard := by
      obtain ⟨u, member, hears⟩ := ih before
      exact ⟨u, List.mem_append_left _ member, hears⟩
    rw [List.map_append, Fleet.lastHeard, List.foldl_append] at last
    change Fleet.noteHeard q p t.pre.fleet (Fleet.lastHeard q p (trace.map fleetStep))
      t.action.toFleet = some heard at last
    by_cases launches : Fleet.Relaunches q t.action.toFleet
    · rw [Fleet.noteHeard_launch launches] at last
      cases last
    · rw [Fleet.noteHeard_eq launches, Option.or_eq_some_iff] at last
      rcases last with now | ⟨-, before⟩
      · exact ⟨t, List.mem_append_right _ (List.mem_singleton.2 rfl), now⟩
      · exact earlier before

/-- What was heard last was heard by now, and no earlier than anything else. -/
theorem lastHeard_ge (run : Run TimedStep start trace s)
    (stays : ∀ t ∈ trace, ¬Fleet.Relaunches q t.action.toFleet) :
    (∀ heard, Fleet.lastHeard q p (trace.map fleetStep) = some heard → heard ≤ s.clock) ∧
      ∀ t ∈ trace, ∀ instant, Hears q p t instant →
        ∃ heard, Fleet.lastHeard q p (trace.map fleetStep) = some heard ∧ instant ≤ heard := by
  induction run with
  | nil => exact ⟨fun heard same => (by cases same), fun t member => absurd member List.not_mem_nil⟩
  | @snoc l l' trace action before step ih =>
    obtain ⟨past, known⟩ := ih fun t member => stays t (List.mem_append_left _ member)
    have later := clock_le_time step
    have clock := (step_cases step).2.2.1
    have noted : Fleet.lastHeard q p (List.map fleetStep (trace ++ [⟨l, action, l'⟩])) =
        (Fleet.noteHeard q p l.fleet none action.toFleet).or
          (Fleet.lastHeard q p (trace.map fleetStep)) := by
      have kept := stays _ (List.mem_append_right _ (List.mem_singleton.2 rfl))
      rw [List.map_append, Fleet.lastHeard, List.foldl_append]
      exact Fleet.noteHeard_eq kept _
    rw [noted]
    cases hears : Fleet.noteHeard q p l.fleet none action.toFleet with
    | none =>
      rw [Option.none_or]
      refine ⟨fun heard same => ?_, fun t member instant heard => ?_⟩
      · rw [clock]
        exact (past heard same).trans later
      · rcases List.mem_append.1 member with earlier | new
        · exact known t earlier instant heard
        · rw [List.mem_singleton.1 new, Hears, hears] at heard
          cases heard
    | some now =>
      rw [Option.some_or]
      obtain ⟨position, packet, receives, -⟩ := receives_of_hears (t := ⟨l, action, l'⟩) hears
      have instant : action.time = now := by
        rw [show action = _ from receives]
        rfl
      refine ⟨fun heard same => ?_, fun t member instant heard => ⟨now, rfl, ?_⟩⟩
      · rw [clock, ← Option.some.inj same, instant]
      · rcases List.mem_append.1 member with earlier | new
        · obtain ⟨last, same, before⟩ := known t earlier _ heard
          have present := past last same
          omega
        · rw [List.mem_singleton.1 new, Hears, hears] at heard
          exact (Option.some.inj heard).ge

/-- Every transition of a run starts from a state whose packets are recorded, and what is recorded there
stays recorded. -/
theorem logged_before (launched : start.Launched) (run : Run TimedStep start trace s) : ∀ t ∈ trace,
    t.pre.Logged ∧ ∀ (position : Nat) (entry : Fin kElevs × Nat),
      t.pre.sends[position]? = some entry → s.sends[position]? = some entry := by
  intro t member
  have steps := run.steps
  constructor
  · exact run.forall_transitions (fun _ => True) (fun t => t.pre.Logged) Logged
      (fun step _ logged => ⟨logged.step step, logged⟩) (fun _ _ => trivial)
      (.of_run launched (.nil start)) t member
  · intro position entry recorded
    exact run.persists (fun l => l.sends[position]? = some entry)
      (fun u taken known => entry_persists (steps u taken) known) member
      (entry_persists (steps t member) recorded)

/-- A node that processes a packet hears of the node that is recorded as its sender, and not before the
packet was sent. -/
theorem hears_of_receive (launched : start.Launched) (run : Run TimedStep start trace s)
    {t : Transition (TimedFleet kFloors) (TimedAction kFloors)} (member : t ∈ trace)
    {position now instant : Nat} (receives : t.action = .receive q position now)
    (recorded : s.sends[position]? = some (p, instant)) : Hears q p t now ∧ instant ≤ now := by
  obtain ⟨logged, kept⟩ := logged_before launched run t member
  have step := run.steps t member
  have later := clock_le_time step
  have executed := (step_cases step).2.1
  rw [receives] at executed later
  obtain ⟨packet, sent⟩ : ∃ packet, t.pre.fleet.sent[position]? = some packet := by
    rcases Fleet.receive_cases executed with ⟨packet, sent, -⟩ | ⟨received, sent, -⟩
    · exact ⟨packet, sent⟩
    · exact ⟨_, sent⟩
  have inside : position < t.pre.sends.length := by
    rw [logged.length]
    exact (List.getElem?_eq_some_iff.1 sent).1
  have before : t.pre.sends[position]? = some (p, instant) := by
    have there := List.getElem?_eq_getElem inside
    rw [there, Option.some.inj ((kept position _ there).symm.trans recorded)]
  constructor
  · have id := logged.sender position p instant packet before sent
    have valid : packet.valid = true := logged.serving.sent packet (List.mem_of_getElem? sent)
    have arrived : recievePacket packet = some ⟨packet, valid⟩ := dif_pos valid
    have sender : (⟨packet, valid⟩ : ReceivedPacket kFloors).sender = p :=
      Fin.ext (Int.ofNat.inj ((ReceivedPacket.id_eq_sender ⟨packet, valid⟩).symm.trans id))
    unfold Hears
    rw [receives]
    simp [TimedAction.toFleet, Fleet.noteHeard, Fleet.hears, sent, arrived, sender]
  · have since := logged.since _ (List.mem_of_getElem? before)
    have present := logged.lastStep p
    exact (since.trans present).trans later

/-- Of any `lost + 1` packets of node `p` in a row, all sent at least `delay` before `now`, node `q` has
processed one. -/
def Delivers (p q : Fin kElevs) (lost delay now : Nat) (s : TimedFleet kFloors)
    (trace : List (Transition (TimedFleet kFloors) (TimedAction kFloors))) : Prop :=
  ∀ first, first + (lost + 1) ≤ (s.beats p).length →
    (∀ beat ∈ ((s.beats p).drop first).take (lost + 1), beat.2 + delay ≤ now) →
    ∃ beat ∈ ((s.beats p).drop first).take (lost + 1), ∃ t ∈ trace, ∃ instant,
      t.action = .receive q beat.1 instant

end TimedFleet

end CppElevator
