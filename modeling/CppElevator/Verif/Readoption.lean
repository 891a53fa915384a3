import CppElevator.Chronicle
import CppElevator.Verif.FleetInvariants
import CppElevator.Verif.QuietSteps

/-!
# Readopting a launched peer

A node stores the state of a peer until its watchdog for the peer fires, which sets the stored
version back to zero so that any packet of the next incarnation is adopted. A packet of an earlier
incarnation is adopted in the same way; from then on its version shuts the lower versions of the
new incarnation out, while the watchdog is restarted by every one of them.
-/
namespace CppElevator

open Library

variable {kFloors : Nat}

namespace Peers

variable {p p' : Peers kFloors} {now : StepClock kFloors}

/-- A step looks at every watchdog once, and at nothing else of the view. -/
theorem regard_step (done : p.step now = some p') (e : Fin kElevs) :
    p'.regard e = watch (now (.watchdogExpired e)) (p.regard e) := by
  obtain ⟨watched, faulted, timed, watching, fault, timers, rfl⟩ := step_cases done
  have faults : faulted.regard e = watched.regard e := by
    refine invariant_of_foldlM (fun q => q.regard e = watched.regard e) ?_ fault rfl
    intro q q' i pass same
    refine (monitor_faults now).keeps (fun q => q.regard e = watched.regard e) pass same
      fun _ called => ?_
    rw [(forHall_spec called).1]
    exact same
  have timeouts : timed.regard e = faulted.regard e := by
    rw [(forHall_spec timers).1]
    rfl
  calc
    timed.regard e = watched.regard e := timeouts.trans faults
    _ = watch (now (.watchdogExpired e)) (p.regard e) := regard_monitorWatchdogTimers watching e

/-- It takes from the view what the watchdogs have given up. -/
theorem allStates_step (done : p.step now = some p') (e : Fin kElevs) :
    p'.allStates e = if (p.watchdogTimers e).expired (now (.watchdogExpired e)) then
      (p.allStates e).onWatchdogTimeout else p.allStates e := by
  have looked := congrArg Prod.fst (regard_step done e)
  rwa [watch, apply_ite Prod.fst] at looked

/-- A packet takes the place of the state stored for another sender, if its version is higher. -/
theorem view_rxPacketProcessing (p : Peers kFloors) (now : Nat) (packet : ReceivedPacket kFloors)
    (e : Fin kElevs) : (p.rxPacketProcessing now packet).allStates e =
      if e = packet.sender ∧ packet.sender ≠ p.nodeId ∧
          (p.allStates packet.sender).version < packet.state.version then packet.state
      else p.allStates e := by
  by_cases own : packet.sender = p.nodeId
  · rw [rxPacketProcessing_own own, if_neg fun adopted => adopted.2.1 own]
  · rw [allStates_rxPacketProcessing own]
    by_cases there : e = packet.sender
    · subst there
      rw [Function.update_self, ElevatorState.onUpdate]
      by_cases newer : (p.allStates packet.sender).version < packet.state.version
      · rw [if_neg (not_le.2 newer), if_pos ⟨rfl, own, newer⟩]
      · rw [if_pos (not_lt.1 newer), if_neg fun adopted => newer adopted.2.2]
    · rw [Function.update_of_ne there, if_neg fun adopted => there adopted.1]

end Peers

namespace ElevatorNode

variable {s s' : ElevatorNode kFloors} {now : Nat} {e : Fin kElevs}

/-- The first half of a step on the state stored for another elevator. -/
theorem allStates_sync {now : StepClock kFloors} {signals : Signals kFloors}
    (done : s.sync now signals = some s') (apart : e ≠ s.peers.nodeId) :
    s'.peers.allStates e = if (s.peers.watchdogTimers e).expired (now (.watchdogExpired e)) then
      (s.peers.allStates e).onWatchdogTimeout else s.peers.allStates e := by
  rw [sync_eq] at done
  obtain ⟨peers, stepped, rfl⟩ := Option.map_eq_some_iff.1 done
  have view := Peers.allStates_step stepped e
  have before : (s.synced signals).peers.allStates e = s.peers.allStates e :=
    Function.update_of_ne apart _ _
  rw [before] at view
  exact view

/-- The second half leaves it alone. -/
theorem allStates_handleEvent {floorSensor : Int} (done : s.handleEvent now floorSensor = some s')
    (apart : e ≠ s.peers.nodeId) : s'.peers.allStates e = s.peers.allStates e := by
  unfold handleEvent at done
  dsimp only at done
  cases next : (nextEvent s.drive now).2 with
  | none =>
    rw [next] at done
    obtain rfl := Option.some.inj done
    rfl
  | some event =>
    rw [next] at done
    obtain ⟨peers, cleared, rfl⟩ := Option.map_eq_some_iff.1 done
    have kept : peers.allStates = s.peers.allStates ∧ peers.nodeId = s.peers.nodeId := by
      unfold clearServed at cleared
      split_ifs at cleared
      · rw [← Option.some.inj cleared]
        exact ⟨rfl, rfl⟩
      · rw [← Option.some.inj cleared]
        exact ⟨rfl, rfl⟩
    change Function.update peers.allStates peers.nodeId _ e = _
    rw [kept.2, Function.update_of_ne apart, kept.1]

/-- A launched node stores nothing about the others. -/
theorem allStates_launch {i : Fin kElevs} {initial : Signals kFloors} {first : StepInput kFloors}
    (launched : launch i initial first = some s) (apart : e ≠ i) :
    s.peers.allStates e = {} := by
  obtain ⟨synced, sync, handled⟩ := ElevatorNode.launch_cases launched
  have node : synced.peers.nodeId = i := by
    rw [sync_eq] at sync
    obtain ⟨peers, stepped, rfl⟩ := Option.map_eq_some_iff.1 sync
    exact (Peers.advances_step stepped).nodeId
  have kept : s.peers.allStates e = synced.peers.allStates e :=
    allStates_handleEvent handled (by rw [← node] at apart; exact apart)
  rw [kept, allStates_sync sync apart]
  rfl

end ElevatorNode

/-- Every node serves, whatever else holds. -/
theorem peersRule_true : PeersRule (fun _ : Peers kFloors => True) (fun _ => True) :=
  ⟨fun _ => trivial, fun _ => trivial, fun _ _ => trivial, fun _ _ _ => trivial, fun _ => trivial,
    fun _ _ _ => trivial, fun _ _ => trivial⟩

namespace Chronicle

variable {l l' : Chronicle kFloors} {action : FleetRestartAction kFloors}

/-- The state node `q` stores for node `p`. -/
abbrev view (l : Chronicle kFloors) (q p : Fin kElevs) : ElevatorState kFloors :=
  (l.fleet.node q).peers.allStates p

/-- The packets and their origins grow together, by one when a node transmits. -/
theorem sent_of_step (step : ChronicleStep l action l') :
    (l'.origin = l.origin ∧ l'.fleet.sent = l.fleet.sent) ∨
      ∃ i, action = .run (.transmit i) ∧ l'.origin = l.origin ++ [(i, l.incarnation i)] ∧
        l'.fleet.sent = l.fleet.sent ++ [(l.fleet.node i).peers.txPacketCopy] := by
  obtain ⟨fleet, executed, rfl⟩ := Option.map_eq_some_iff.1 step
  cases action with
  | run action =>
    cases action with
    | sync i now signals =>
      obtain ⟨n, -, rfl⟩ := Option.map_eq_some_iff.1 executed
      exact .inl ⟨rfl, rfl⟩
    | handle i now floorSensor =>
      obtain ⟨n, -, rfl⟩ := Option.map_eq_some_iff.1 executed
      exact .inl ⟨rfl, rfl⟩
    | transmit i =>
      obtain rfl := Option.some.inj executed
      exact .inr ⟨i, rfl, rfl, rfl⟩
    | receive i position now =>
      left
      simp only [Fleet.execRestart, Fleet.exec] at executed
      cases sent : l.fleet.sent[position]? with
      | none => simp [sent] at executed
      | some packet =>
        simp only [sent] at executed
        unfold note
        rw [← Option.some.inj executed]
        dsimp only
        constructor
        · split <;> rfl
        · cases arrived : recievePacket packet <;> split <;> rfl
  | restart i initial first =>
    obtain ⟨-, done⟩ := Option.ite_none_right_eq_some.1 executed
    obtain ⟨n, -, rfl⟩ := Option.map_eq_some_iff.1 done
    exact .inl ⟨rfl, rfl⟩

/-- The incarnation of a node grows with its crashes alone. -/
theorem incarnation_of_step (step : ChronicleStep l action l') (p : Fin kElevs) :
    l'.incarnation p = l.incarnation p ∨ l'.incarnation p = l.incarnation p + 1 ∧
      (∀ q, q ≠ p → l'.forgotten q p = false) := by
  obtain ⟨fleet, executed, rfl⟩ := Option.map_eq_some_iff.1 step
  cases action with
  | run action =>
    left
    cases action with
    | receive i position now =>
      unfold note
      dsimp only
      split <;> rfl
    | _ => rfl
  | restart i initial first =>
    by_cases crashed : p = i
    · subst crashed
      exact .inr ⟨if_pos rfl, fun q apart => by simp [note, apart]⟩
    · exact .inl (if_neg crashed)

/-- What the current incarnation has sent, it has sent until it crashes. -/
theorem SentBy.step {p : Fin kElevs} {state : ElevatorState kFloors} (sent : l.SentBy p state)
    (step : ChronicleStep l action l') (alive : l'.incarnation p = l.incarnation p) :
    l'.SentBy p state := by
  obtain ⟨position, packet, origin, there, same⟩ := sent
  refine ⟨position, packet, ?_, ?_, same⟩
  · rw [alive]
    rcases sent_of_step step with ⟨origins, -⟩ | ⟨i, -, origins, -⟩
    · rwa [origins]
    · rw [origins, List.getElem?_append_left (List.getElem?_eq_some_iff.1 origin).1]
      exact origin
  · rcases sent_of_step step with ⟨-, packets⟩ | ⟨i, -, -, packets⟩
    · rwa [packets]
    · rw [packets, List.getElem?_append_left (List.getElem?_eq_some_iff.1 there).1]
      exact there

/-- What the history tells of the nodes and the packets. -/
structure Recounts (l : Chronicle kFloors) : Prop where
  /-- The nodes. -/
  serving : l.fleet.Serving (fun _ => True) (fun _ => True)
  /-- Every packet has an origin. -/
  length : l.origin.length = l.fleet.sent.length
  /-- The origin names the sender and an incarnation up to the current one. -/
  packets : ∀ (position : Nat) (p : Fin kElevs) (k : Nat) (packet : NetworkPacket kFloors),
    l.origin[position]? = some (p, k) → l.fleet.sent[position]? = some packet →
    packet.id = p.val ∧ 0 < packet.state.version ∧ k ≤ l.incarnation p

/-- A launched fleet has sent nothing. -/
theorem recounts_launched {start : Fleet kFloors} (launched : start.Launched) :
    Recounts { fleet := start } :=
  ⟨launched.serving peersRule_true (.nil start), by rw [launched.sent]; rfl,
    fun _ _ _ _ origin => by simp at origin⟩

/-- The history goes on to tell the truth. -/
theorem Recounts.step (recounts : l.Recounts) (step : ChronicleStep l action l') :
    l'.Recounts := by
  have serving : l'.fleet.Serving (fun _ => True) (fun _ => True) := by
    obtain ⟨fleet, executed, rfl⟩ := Option.map_eq_some_iff.1 step
    rw [note_fleet]
    exact recounts.serving.step peersRule_true executed
  refine ⟨serving, ?_, fun position p k packet origin sent => ?_⟩
  · rcases sent_of_step step with ⟨origins, packets⟩ | ⟨i, -, origins, packets⟩
    · rw [origins, packets]
      exact recounts.length
    · rw [origins, packets, List.length_append, List.length_append, recounts.length]
      rfl
  · have older : l.incarnation p ≤ l'.incarnation p := by
      rcases incarnation_of_step step p with same | ⟨next, -⟩ <;> omega
    have known (origin : l.origin[position]? = some (p, k))
        (sent : l.fleet.sent[position]? = some packet) :
        packet.id = p.val ∧ 0 < packet.state.version ∧ k ≤ l'.incarnation p := by
      obtain ⟨id, version, bound⟩ := recounts.packets position p k packet origin sent
      exact ⟨id, version, bound.trans older⟩
    rcases sent_of_step step with ⟨origins, packets⟩ | ⟨i, -, origins, packets⟩
    · rw [origins] at origin
      rw [packets] at sent
      exact known origin sent
    · rw [origins] at origin
      rw [packets] at sent
      by_cases earlier : position < l.origin.length
      · rw [List.getElem?_append_left earlier] at origin
        rw [recounts.length] at earlier
        rw [List.getElem?_append_left earlier] at sent
        exact known origin sent
      · -- the packet just sent carries the state its sender has published
        rw [List.getElem?_append_right (not_lt.1 earlier)] at origin
        rw [recounts.length] at earlier origin
        rw [List.getElem?_append_right (not_lt.1 earlier)] at sent
        rw [List.getElem?_singleton] at origin sent
        split_ifs at origin with last
        rw [if_pos last] at sent
        obtain ⟨rfl, rfl⟩ := Prod.mk.inj (Option.some.inj origin)
        obtain rfl := Option.some.inj sent
        obtain ⟨id, -, version⟩ := (recounts.serving.node i).serves.presents.ownState
        have named := congrArg (fun e : Fin kElevs => (e.val : Int)) (recounts.serving.node i).nodeId
        exact ⟨id.trans named, version, older⟩

/-- A node that has forgotten a peer stores nothing with a version, the state of a late packet, or
a state of the current incarnation. -/
def Keeps (q p : Fin kElevs) (l : Chronicle kFloors) : Prop :=
  l.forgotten q p = true →
    (l.view q p).version = 0 ∨ l.late q p = true ∨ l.SentBy p (l.view q p)

/-- What remains the same keeps what it kept. -/
theorem Keeps.same {q p : Fin kElevs} (keeps : l.Keeps q p) (step : ChronicleStep l action l')
    (forgotten : l'.forgotten q p = l.forgotten q p) (late : l'.late q p = l.late q p)
    (view : l'.view q p = l.view q p) (apart : p ≠ q) : l'.Keeps q p := by
  intro now
  rw [forgotten] at now
  have alive : l'.incarnation p = l.incarnation p := by
    rcases incarnation_of_step step p with same | ⟨-, again⟩
    · exact same
    · rw [← forgotten, again q apart.symm] at now
      cases now
  rcases keeps now with zero | stale | sent
  · exact .inl (by rw [view]; exact zero)
  · exact .inr (.inl (late.trans stale))
  · exact .inr (.inr (by rw [view]; exact sent.step step alive))

/-- The state a delivery leaves in the view. -/
theorem view_receive (recounts : l.Recounts) {i : Fin kElevs} {position now : Nat}
    (step : ChronicleStep l (.run (.receive i position now)) l') {sender : Fin kElevs} {k : Nat}
    {packet : NetworkPacket kFloors} (origin : l.origin[position]? = some (sender, k))
    (sent : l.fleet.sent[position]? = some packet) (q p : Fin kElevs) :
    l'.view q p = if q = i ∧ p = sender ∧ l.adopts i sender packet = true then packet.state
      else l.view q p := by
  obtain ⟨fleet, executed, rfl⟩ := Option.map_eq_some_iff.1 step
  unfold view
  rw [note_fleet]
  simp only [Fleet.execRestart, Fleet.exec, sent] at executed
  unfold adopts
  cases arrived : recievePacket packet with
  | none =>
    have invalid : packet.valid = false := by
      unfold recievePacket at arrived
      split_ifs at arrived with valid
      exact Bool.eq_false_iff.2 valid
    simp only [arrived] at executed
    rw [← Option.some.inj executed]
    simp [invalid]
  | some received =>
    obtain rfl := eq_of_recievePacket arrived
    have named : received.sender = sender := Fin.ext <| Int.ofNat.inj <|
      received.id_eq_sender.symm.trans (recounts.packets _ _ _ _ origin sent).1
    simp only [arrived] at executed
    rw [← Option.some.inj executed]
    by_cases here : q = i
    · subst here
      have node := (recounts.serving.node q).nodeId
      rw [Fleet.setNode_node_self]
      change ((l.fleet.node q).peers.rxPacketProcessing now received).allStates p = _
      rw [Peers.view_rxPacketProcessing, named, node]
      simp only [received.checked, Bool.true_and, Bool.and_eq_true, decide_eq_true_eq, true_and,
        ne_eq]
    · rw [Fleet.setNode_node_of_ne _ _ here]
      simp [here]

/-- A packet that was sent can be delivered. -/
theorem receive_total {position : Nat} {packet : NetworkPacket kFloors}
    (sent : l.fleet.sent[position]? = some packet) (i : Fin kElevs) (now : Nat) :
    ∃ l', ChronicleStep l (.run (.receive i position now)) l' := by
  unfold ChronicleStep exec
  simp only [Fleet.execRestart, Fleet.exec, sent, Option.map_some]
  exact ⟨_, rfl⟩

/-- A delivery sends nothing. -/
theorem sent_of_receive {i : Fin kElevs} {position now : Nat}
    (step : ChronicleStep l (.run (.receive i position now)) l') :
    l'.origin = l.origin ∧ l'.fleet.sent = l.fleet.sent := by
  rcases sent_of_step step with same | ⟨_, transmits, -⟩
  · exact same
  · cases transmits

/-- What is noted of a delivery. -/
theorem receive_cases (recounts : l.Recounts) {i : Fin kElevs} {position now : Nat}
    (step : ChronicleStep l (.run (.receive i position now)) l') :
    ∃ sender k packet, l.origin[position]? = some (sender, k) ∧
      l.fleet.sent[position]? = some packet ∧ l'.forgotten = l.forgotten ∧
      l'.incarnation = l.incarnation ∧
      ∀ q p, l'.late q p = if q = i ∧ p = sender ∧ l.adopts i sender packet = true then
        decide (k < l.incarnation p) && l.forgotten q p else l.late q p := by
  obtain ⟨fleet, executed, rfl⟩ := Option.map_eq_some_iff.1 step
  cases sent : l.fleet.sent[position]? with
  | none => simp [Fleet.execRestart, Fleet.exec, sent] at executed
  | some packet =>
    have inside : position < l.origin.length := by
      rw [recounts.length]
      exact (List.getElem?_eq_some_iff.1 sent).1
    obtain ⟨⟨sender, k⟩, origin⟩ : ∃ named, l.origin[position]? = some named :=
      ⟨_, List.getElem?_eq_getElem inside⟩
    refine ⟨sender, k, packet, origin, rfl, ?_, ?_, fun q p => ?_⟩ <;>
      simp only [note, origin, sent]

/-- A step of another node that changes nothing noted of the pair keeps what was kept. -/
theorem Keeps.elsewhere {q p i : Fin kElevs} {n : ElevatorNode kFloors} (keeps : l.Keeps q p)
    (step : ChronicleStep l action l') (noted : l.note action (l.fleet.setNode i n) = l')
    (other : q ≠ i) (forgotten : l'.forgotten q p = l.forgotten q p)
    (late : l'.late q p = l.late q p) (apart : p ≠ q) : l'.Keeps q p := by
  refine keeps.same step forgotten late ?_ apart
  unfold view
  rw [← noted, note_fleet, Fleet.setNode_node_of_ne _ _ other]

/-- A watchdog that fires empties the view; the first half of a step does nothing else to it. -/
theorem Keeps.sync {q p i : Fin kElevs} {now : StepClock kFloors} {signals : Signals kFloors}
    (keeps : l.Keeps q p) (foreign : p ≠ (l.fleet.node q).peers.nodeId)
    (step : ChronicleStep l (.run (.sync i now signals)) l') (apart : p ≠ q) : l'.Keeps q p := by
  obtain ⟨fleet, executed, noted⟩ := Option.map_eq_some_iff.1 step
  obtain ⟨n, done, rfl⟩ := Option.map_eq_some_iff.1 executed
  by_cases here : q = i
  · subst here
    have stored : l'.view q p = if l.fires q now p then (l.view q p).onWatchdogTimeout
        else l.view q p := by
      unfold view
      rw [← noted, note_fleet, Fleet.setNode_node_self]
      exact ElevatorNode.allStates_sync done foreign
    cases fired : l.fires q now p
    · rw [fired] at stored
      refine keeps.same step ?_ ?_ stored apart <;> rw [← noted] <;> simp [note, fired]
    · rw [fired] at stored
      exact fun _ => .inl (by rw [stored]; rfl)
  · refine keeps.elsewhere step noted here ?_ ?_ apart <;> rw [← noted] <;> simp [note, here]

/-- The second half of a step does nothing to the view. -/
theorem Keeps.handle {q p i : Fin kElevs} {now : Nat} {floorSensor : Int} (keeps : l.Keeps q p)
    (foreign : p ≠ (l.fleet.node q).peers.nodeId)
    (step : ChronicleStep l (.run (.handle i now floorSensor)) l') (apart : p ≠ q) :
    l'.Keeps q p := by
  obtain ⟨fleet, executed, noted⟩ := Option.map_eq_some_iff.1 step
  obtain ⟨n, done, rfl⟩ := Option.map_eq_some_iff.1 executed
  have unforgotten : l'.forgotten q p = l.forgotten q p := by rw [← noted]; rfl
  have unlate : l'.late q p = l.late q p := by rw [← noted]; rfl
  by_cases here : q = i
  · subst here
    refine keeps.same step unforgotten unlate ?_ apart
    unfold view
    rw [← noted, note_fleet, Fleet.setNode_node_self]
    exact ElevatorNode.allStates_handleEvent done foreign
  · exact keeps.elsewhere step noted here unforgotten unlate apart

/-- An adopted packet is late, or its state is one of the current incarnation. -/
theorem Keeps.receive {q p i : Fin kElevs} {position now : Nat} (keeps : l.Keeps q p)
    (recounts : l.Recounts) (step : ChronicleStep l (.run (.receive i position now)) l')
    (apart : p ≠ q) : l'.Keeps q p := by
  obtain ⟨sender, k, packet, origin, sent, forgotten, alive, late⟩ := receive_cases recounts step
  have stored := view_receive recounts step origin sent q p
  have noted := late q p
  by_cases adopted : q = i ∧ p = sender ∧ l.adopts i sender packet = true
  · rw [if_pos adopted] at stored noted
    obtain ⟨-, rfl, -⟩ := adopted
    intro now
    rw [forgotten] at now
    rcases (recounts.packets _ _ _ _ origin sent).2.2.lt_or_eq with earlier | current
    · exact .inr (.inl (by rw [noted, now, decide_eq_true earlier]; rfl))
    · rw [current] at origin
      have told : l.SentBy p packet.state := ⟨position, packet, origin, sent, rfl⟩
      rw [stored]
      exact .inr (.inr (told.step step (congrFun alive p)))
  · rw [if_neg adopted] at stored noted
    exact keeps.same step (congrFun (congrFun forgotten q) p) noted stored apart

/-- A launched node stores nothing with a version, and a crashed one is not forgotten yet. -/
theorem Keeps.restart {q p i : Fin kElevs} {initial : Signals kFloors} {first : StepInput kFloors}
    (keeps : l.Keeps q p) (step : ChronicleStep l (.restart i initial first) l')
    (apart : p ≠ q) : l'.Keeps q p := by
  obtain ⟨fleet, executed, noted⟩ := Option.map_eq_some_iff.1 step
  obtain ⟨-, done⟩ := Option.ite_none_right_eq_some.1 executed
  obtain ⟨n, launched, rfl⟩ := Option.map_eq_some_iff.1 done
  by_cases here : q = i
  · subst here
    refine fun _ => .inl ?_
    unfold view
    rw [← noted, note_fleet, Fleet.setNode_node_self, ElevatorNode.allStates_launch launched apart]
  · by_cases crashed : p = i
    · intro forgotten
      rw [← noted] at forgotten
      simp [note, here, crashed] at forgotten
    · refine keeps.elsewhere step noted here ?_ ?_ apart <;> rw [← noted] <;>
        simp [note, here, crashed]

/-- Every step keeps what a node that has forgotten a peer stores for it. -/
theorem Keeps.step {q p : Fin kElevs} (keeps : l.Keeps q p) (recounts : l.Recounts)
    (step : ChronicleStep l action l') (apart : p ≠ q) : l'.Keeps q p := by
  have foreign : p ≠ (l.fleet.node q).peers.nodeId := by rwa [(recounts.serving.node q).nodeId]
  cases action with
  | run action =>
    cases action with
    | sync i now signals => exact keeps.sync foreign step apart
    | handle i now floorSensor => exact keeps.handle foreign step apart
    | transmit i =>
      obtain ⟨fleet, executed, noted⟩ := Option.map_eq_some_iff.1 step
      obtain rfl := Option.some.inj executed
      refine keeps.same step ?_ ?_ ?_ apart <;> rw [← noted] <;> rfl
    | receive i position now => exact keeps.receive recounts step apart
  | restart i initial first => exact keeps.restart step apart

/-- Node `q` processes packets of the current incarnation of node `p` once it has forgotten `p`. -/
def AfterTimeout (q p : Fin kElevs)
    (t : Transition (Chronicle kFloors) (FleetRestartAction kFloors)) : Prop :=
  (delivered q p t.pre t.action).isSome = true → t.pre.forgotten q p = true

instance (q p : Fin kElevs) : DecidablePred (@AfterTimeout kFloors q p) := fun t =>
  inferInstanceAs (Decidable
    ((delivered q p t.pre t.action).isSome = true → t.pre.forgotten q p = true))

/-- A packet of the current incarnation of node `p` is shut out at node `q` by the version of a late
one. -/
def ShutOut (q p : Fin kElevs)
    (t : Transition (Chronicle kFloors) (FleetRestartAction kFloors)) : Prop :=
  ∃ packet ∈ delivered q p t.pre t.action,
    t.pre.late q p = true ∧ packet.state.version ≤ (t.pre.view q p).version

instance (q p : Fin kElevs) : DecidablePred (@ShutOut kFloors q p) := fun t =>
  inferInstanceAs (Decidable (∃ packet ∈ delivered q p t.pre t.action,
    t.pre.late q p = true ∧ packet.state.version ≤ (t.pre.view q p).version))

/-- Having processed a packet of the current incarnation of node `p`, node `q` stores a state that
this incarnation has sent. -/
def Readopted (q p : Fin kElevs)
    (t : Transition (Chronicle kFloors) (FleetRestartAction kFloors)) : Prop :=
  (delivered q p t.pre t.action).isSome = true → t.post.SentBy p (t.post.view q p)

/-- A packet that is not shut out is adopted, or finds a state of its own incarnation. -/
theorem Keeps.readopted {q p : Fin kElevs} (keeps : l.Keeps q p) (recounts : l.Recounts)
    (apart : p ≠ q) (step : ChronicleStep l action l') (after : AfterTimeout q p ⟨l, action, l'⟩)
    (free : ¬ShutOut q p ⟨l, action, l'⟩) : Readopted q p ⟨l, action, l'⟩ := by
  intro given
  have forgotten := after given
  obtain ⟨packet, handled⟩ := Option.isSome_iff_exists.1 given
  have newer : l.late q p = true → (l.view q p).version < packet.state.version := fun late => by
    by_contra shut
    exact free ⟨packet, handled, late, not_lt.1 shut⟩
  dsimp only at handled forgotten ⊢
  unfold delivered at handled
  split at handled
  · rename_i i position now
    split_ifs at handled with current
    obtain ⟨rfl, origin⟩ := current
    obtain ⟨sent, valid⟩ := Option.filter_eq_some_iff.1 handled
    have version := (recounts.packets _ _ _ _ origin sent).2.1
    have stored := view_receive recounts step origin sent i p
    obtain ⟨_, _, _, _, _, _, alive, _⟩ := receive_cases recounts step
    by_cases adopted : l.adopts i p packet = true
    · rw [if_pos ⟨rfl, rfl, adopted⟩] at stored
      have told : l.SentBy p packet.state := ⟨position, packet, origin, sent, rfl⟩
      rw [stored]
      exact told.step step (congrFun alive p)
    · rw [if_neg fun new => adopted new.2.2] at stored
      have older : ¬(l.view i p).version < packet.state.version := fun newer => adopted <| by
        unfold adopts
        rw [valid, decide_eq_true apart, decide_eq_true newer]
        rfl
      rw [stored]
      rcases keeps forgotten with zero | late | told
      · omega
      · exact absurd (newer late) older
      · exact told.step step (congrFun alive p)
  · cases handled

end Chronicle

open Chronicle

/-- In a run in which node `q` has always forgotten a crashed node `p` before it processes a packet
of the next incarnation, and no such packet is shut out by the version of a late one, `q` stores a
state of the current incarnation of `p` whenever it has processed one of its packets. -/
theorem restarted_peer_readopted {start : Fleet kFloors} (launched : start.Launched)
    {q p : Fin kElevs} (apart : p ≠ q)
    {trace : List (Transition (Chronicle kFloors) (FleetRestartAction kFloors))}
    {l : Chronicle kFloors} (run : Run ChronicleStep { fleet := start } trace l)
    (after : ∀ t ∈ trace, AfterTimeout q p t) (free : ∀ t ∈ trace, ¬ShutOut q p t) :
    ∀ t ∈ trace, Readopted q p t := by
  refine run.forall_transitions (fun t => AfterTimeout q p t ∧ ¬ShutOut q p t) (Readopted q p)
    (fun l => l.Recounts ∧ l.Keeps q p) (fun step admitted inv => ?_)
    (fun t member => ⟨after t member, free t member⟩)
    ⟨recounts_launched launched, fun _ => .inl ?_⟩
  · obtain ⟨recounts, keeps⟩ := inv
    exact ⟨⟨recounts.step step, keeps.step recounts step apart⟩,
      keeps.readopted recounts apart step admitted.1 admitted.2⟩
  · obtain ⟨initial, first, -, node⟩ := launched.node q
    change ((start.node q).peers.allStates p).version = 0
    rw [ElevatorNode.allStates_launch node apart]

/-- Node 0 sends a state and is launched again at another floor; node 1 forgets it. -/
def relaunch : List (FleetRestartAction Config.kFloors) :=
  [.run (.sync 0 (.still 40) { floorSensor := 0 }), .run (.transmit 0), .run (.receive 1 0 50),
    .restart 0 { floorSensor := 1 } { now := 1300, signals := { floorSensor := 1 } },
    .run (.sync 1 (.still 1320) { floorSensor := 0 }), .run (.transmit 0)]

/-- The new state is adopted when no late packet comes between. -/
theorem restarted_peer_readopted_relaunch : ∃ trace l,
    Run ChronicleStep { fleet := Fleet.atBottom } trace l ∧ (l.view 1 0).floor = 1 ∧
      ∀ t ∈ trace, Readopted 1 0 t := by
  let actions : List (FleetRestartAction Config.kFloors) := relaunch ++ [.run (.receive 1 1 1340)]
  have evaluated : (actions.foldlM (fun (l : Chronicle Config.kFloors) action =>
      (l.exec action).filter fun next =>
        decide (AfterTimeout 1 0 ⟨l, action, next⟩ ∧ ¬ShutOut 1 0 ⟨l, action, next⟩))
      { fleet := Fleet.atBottom }).any (fun l => decide ((l.view 1 0).floor = 1)) = true := by
    decide
  obtain ⟨trace, l, run, admitted, floor⟩ := @Run.of_check_admitted _ _ ChronicleStep _ id
    (fun t => AfterTimeout 1 0 t ∧ ¬ShutOut 1 0 t) _ _ _ _ evaluated
  exact ⟨trace, l, run, of_decide_eq_true floor, restarted_peer_readopted Fleet.launched_atBottom
    (by decide) run (fun t member => (admitted t member).1) fun t member => (admitted t member).2⟩

/-- A late packet freezes the view: its version shuts the next packet of the new incarnation out. -/
theorem restarted_peer_frozen : ¬∀ start : Fleet Config.kFloors, start.Launched →
    ∀ q p : Fin kElevs, p ≠ q → ∀ trace l, Run ChronicleStep { fleet := start } trace l →
      (∀ t ∈ trace, AfterTimeout q p t) → ∀ t ∈ trace, Readopted q p t := by
  intro readopted
  have evaluated : (relaunch.foldlM (fun (l : Chronicle Config.kFloors) action =>
      (l.exec action).filter fun next => decide (AfterTimeout 1 0 ⟨l, action, next⟩))
      { fleet := Fleet.atBottom }).any (fun l => decide (l.origin = [(0, 0), (0, 1)] ∧
        l.incarnation 0 = 1 ∧ l.forgotten 1 0 = true ∧ (l.view 1 0).version = 0 ∧
        l.fleet.sent.map (fun packet => (packet.valid, packet.state.version, packet.state.floor)) =
          [(true, 3, 0), (true, 2, 1)])) = true := by decide
  obtain ⟨trace, l, run, admitted, reached⟩ := Run.of_check_admitted ChronicleStep id evaluated
  obtain ⟨origins, incarnation, forgotten, unknown, packets⟩ := of_decide_eq_true reached
  have recounts : l.Recounts := run.invariant Recounts (fun step recounts => recounts.step step)
    (recounts_launched Fleet.launched_atBottom)
  obtain ⟨old, others, sent, old', rest⟩ := List.map_eq_cons_iff.1 packets
  obtain ⟨new, none, rfl, new', nothing⟩ := List.map_eq_cons_iff.1 rest
  obtain rfl := List.map_eq_nil_iff.1 nothing
  obtain ⟨oldValid, oldVersion, oldFloor⟩ : old.valid = true ∧ old.state.version = 3 ∧
      old.state.floor = 0 := by simpa using old'
  obtain ⟨newValid, newVersion, newFloor⟩ : new.valid = true ∧ new.state.version = 2 ∧
      new.state.floor = 1 := by simpa using new'
  have apart : (0 : Fin kElevs) ≠ 1 := by decide
  -- the late packet is adopted
  have oldSent : l.fleet.sent[0]? = some old := by rw [sent]; rfl
  obtain ⟨m, late⟩ := receive_total oldSent 1 1330
  have stored := view_receive recounts late (by rw [origins]; rfl) oldSent 1 0
  rw [if_pos ⟨rfl, rfl, by simp [adopts, apart, oldValid, oldVersion, unknown]⟩] at stored
  obtain ⟨_, _, _, _, _, forgotten', alive, -⟩ := receive_cases recounts late
  obtain ⟨origins', sent'⟩ := sent_of_receive late
  rw [origins] at origins'
  rw [← forgotten'] at forgotten
  rw [← alive] at incarnation
  -- and shuts the new one out
  have newSent : m.fleet.sent[1]? = some new := by rw [sent', sent]; rfl
  obtain ⟨n, shut⟩ := receive_total newSent 1 1340
  have frozen := view_receive (recounts.step late) shut (by rw [origins']; rfl) newSent 1 0
  rw [if_neg (by simp [adopts, stored, oldVersion, newVersion]), stored] at frozen
  obtain ⟨_, _, _, _, _, _, alive', -⟩ := receive_cases (recounts.step late) shut
  obtain ⟨origins'', sent''⟩ := sent_of_receive shut
  have handled : (delivered 1 0 m (.run (.receive 1 1 1340))).isSome = true := by
    have current : m.origin[1]? = some (0, m.incarnation 0) := by
      rw [origins', incarnation]
      rfl
    simp only [delivered, current, newSent, and_self, ↓reduceIte, Option.filter, newValid,
      Option.isSome_some]
  have first : AfterTimeout 1 0 ⟨l, .run (.receive 1 0 1330), m⟩ :=
    fun _ => by rw [← forgotten']; exact forgotten
  have second : AfterTimeout 1 0 ⟨m, .run (.receive 1 1 1340), n⟩ := fun _ => forgotten
  have timely : ∀ t ∈ (trace ++ [⟨l, .run (.receive 1 0 1330), m⟩]) ++
      [⟨m, .run (.receive 1 1 1340), n⟩], AfterTimeout 1 0 t := by
    intro t member
    rw [List.mem_append, List.mem_append, List.mem_singleton, List.mem_singleton] at member
    rcases member with (before | rfl) | rfl
    · exact admitted t before
    · exact first
    · exact second
  obtain ⟨position, packet, origin, there, state⟩ := readopted _ Fleet.launched_atBottom 1 0
    apart _ _ ((run.snoc late).snoc shut) timely ⟨m, _, n⟩
    (List.mem_append_right _ (List.mem_singleton.2 rfl)) handled
  dsimp only at origin there state
  rw [origins'', origins', alive', incarnation] at origin
  rw [sent'', sent', sent] at there
  rw [frozen] at state
  match position, origin, there with
  | 1, _, there =>
    obtain rfl := Option.some.inj there
    rw [state, oldFloor] at newFloor
    cases newFloor

end CppElevator
