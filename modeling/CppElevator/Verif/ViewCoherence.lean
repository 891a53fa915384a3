import CppElevator.Verif.DriveActs
import CppElevator.Verif.OrderTimeouts
import CppElevator.Verif.SoloRefinement

/-!
# A version names a state

A node gives its state a new version whenever it publishes it, so as long as it is not launched again
each version stands for one state. What others store of it is the state of a version it has published,
or nothing at all once they have given it up. Nodes that store the same versions therefore store the
same states, and compute the same costs.
-/
namespace CppElevator

open Library Peers

variable {kFloors : Nat}

namespace ElevatorNode

variable {s s' : ElevatorNode kFloors}

/-- The state a node has published of itself. -/
def own (s : ElevatorNode kFloors) : ElevatorState kFloors := s.peers.allStates s.peers.nodeId

/-- The elevator counts from the version published last. -/
def Published (s : ElevatorNode kFloors) : Prop := s.drive.elev.state.version = s.own.version

/-- Sampling leaves the version alone. -/
theorem version_step (e : Elevator kFloors) (signals : Signals kFloors) :
    (e.step signals).state.version = e.state.version := by
  simp only [Elevator.step, ElevatorState.setFloor]
  split_ifs <;> rfl

/-- The first half of a step publishes the next version. -/
theorem own_of_sync {now : StepClock kFloors} {signals : Signals kFloors}
    (unwatched : (s.peers.watchdogTimers s.peers.nodeId).active = false)
    (done : s.sync now signals = some s') :
    s'.Published ∧ s'.own.version = s.drive.elev.state.version + 1 := by
  rw [sync_eq] at done
  obtain ⟨peers, stepped, rfl⟩ := Option.map_eq_some_iff.1 done
  have node : peers.nodeId = s.peers.nodeId := (advances_step stepped).nodeId
  have running : ((s.synced signals).peers.watchdogTimers s.peers.nodeId).expired
      (now (.watchdogExpired s.peers.nodeId)) = false := by
    have silent : ((s.synced signals).peers.watchdogTimers s.peers.nodeId).active = false := unwatched
    rw [Timer.expired, silent, Bool.false_and]
  have kept := Peers.allStates_step stepped s.peers.nodeId
  rw [running, if_neg Bool.false_ne_true] at kept
  have published : (s.synced signals).peers.allStates s.peers.nodeId =
      (s.drive.elev.step signals).state.incrementVersion := Function.update_self _ _ _
  have version : (peers.allStates peers.nodeId).version = s.drive.elev.state.version + 1 := by
    rw [node, kept, published, ElevatorState.incrementVersion, version_step]
  refine ⟨?_, version⟩
  change (s.drive.elev.step signals).state.version + 1 = (peers.allStates peers.nodeId).version
  rw [version, version_step]

/-- No act of a handler changes the version. -/
theorem version_act (d : Drive kFloors) (now : Nat) (a : DriveAct) :
    (d.act now a).elev.state.version = d.elev.state.version := by
  cases a with
  | showFloor => exact congrArg ElevatorState.version (Drive.state_setFloorIndicator d.elev)
  | movingState mov => cases mov <;> rfl
  | _ => rfl

/-- What a turn does after its locked section leaves the version alone, until its event is
published. -/
theorem version_due (d : Drive kFloors) (now : Nat) (floorSensor : Int) :
    (fsmDue (nextEvent d now).1 now floorSensor (nextEvent d now).2).elev.state.version =
      d.elev.state.version := by
  obtain ⟨prevFloor, prevRequests, looked⟩ := nextEvent_looked d now
  rw [looked]
  cases (nextEvent d now).2 with
  | none => rfl
  | some event =>
    exact (Drive.acted_fsm _ now floorSensor event).keeps
      (fun e => e.elev.state.version = d.elev.state.version)
      (fun e a _ same => (version_act e now a).trans same) rfl

/-- The second half of a step publishes the next version, or nothing. -/
theorem own_of_handleEvent {now : Nat} {floorSensor : Int} (published : s.Published)
    (done : s.handleEvent now floorSensor = some s') :
    s'.Published ∧ (s'.own = s.own ∨ s'.own.version = s.own.version + 1) := by
  have unchanged := version_due s.drive now floorSensor
  unfold handleEvent at done
  dsimp only at done
  generalize nextEvent s.drive now = due at done unchanged
  obtain ⟨d, next⟩ := due
  cases next with
  | none =>
    obtain rfl := Option.some.inj done
    exact ⟨unchanged.trans published, .inl rfl⟩
  | some event =>
    obtain ⟨peers, cleared, rfl⟩ := Option.map_eq_some_iff.1 done
    have version : (d.fsm now floorSensor event).1.elev.state.version = s.own.version :=
      unchanged.trans published
    have state (own : ElevatorState kFloors) :
        (peers.copyOwnState own).allStates (peers.copyOwnState own).nodeId = own :=
      Function.update_self _ _ _
    refine ⟨?_, .inr ?_⟩
    · simp only [Published, own, state]
    · simp only [own, state, ElevatorState.incrementVersion]
      exact congrArg (· + 1) version

end ElevatorNode

namespace Fleet

variable {s s' : Fleet kFloors} {p : Fin kElevs}

/-- The state node `q` stores for node `p`. -/
abbrev view (s : Fleet kFloors) (q p : Fin kElevs) : ElevatorState kFloors :=
  (s.node q).peers.allStates p

/-- A node that has been given up, or was never heard of. -/
def Unheard (state : ElevatorState kFloors) : Prop := state.version = 0 ∧ state.active = false

/-- A state is the one of its version in a history, no later than the last version. -/
def NamedBy (history : Nat → ElevatorState kFloors) (last : Nat) (state : ElevatorState kFloors) :
    Prop := state = history state.version ∧ 0 < state.version ∧ state.version ≤ last

/-- The states that node `p` has published are those of a history, by their versions, and the others
store one of these or nothing. -/
structure Coherent (p : Fin kElevs) (history : Nat → ElevatorState kFloors) (s : Fleet kFloors) :
    Prop where
  /-- The node counts on. -/
  published : (s.node p).Published
  /-- Its own state. -/
  own : NamedBy history (s.view p p).version (s.view p p)
  /-- Its packets. -/
  sent : ∀ packet ∈ s.sent, packet.id = p.val → NamedBy history (s.view p p).version packet.state
  /-- What the others store. -/
  stored : ∀ q, q ≠ p → Unheard (s.view q p) ∨ NamedBy history (s.view p p).version (s.view q p)

/-- What a node has published is what it stores for itself. -/
theorem own_eq_view (node : (s.node p).peers.nodeId = p) : (s.node p).own = s.view p p :=
  congrArg (s.node p).peers.allStates node

/-- Node `p` publishes the next version, or nothing. -/
theorem Coherent.publish {history : Nat → ElevatorState kFloors} (coherent : s.Coherent p history)
    (published : (s'.node p).Published)
    (own : s'.view p p = s.view p p ∨ (s'.view p p).version = (s.view p p).version + 1)
    (sent : s'.sent = s.sent) (others : ∀ q, q ≠ p → s'.view q p = s.view q p) :
    ∃ history', s'.Coherent p history' := by
  rcases own with same | next
  · refine ⟨history, published, same ▸ coherent.own, fun packet member id => ?_,
      fun q apart => ?_⟩
    · rw [sent] at member
      rw [same]
      exact coherent.sent packet member id
    · rw [others q apart, same]
      exact coherent.stored q apart
  · -- the history so far ends below the new version
    have earlier {state : ElevatorState kFloors} (named : NamedBy history (s.view p p).version state) :
        NamedBy (Function.update history (s'.view p p).version (s'.view p p)) (s'.view p p).version
          state := by
      obtain ⟨known, positive, bound⟩ := named
      refine ⟨?_, positive, by omega⟩
      rw [Function.update_of_ne (by omega)]
      exact known
    have latest : NamedBy (Function.update history (s'.view p p).version (s'.view p p))
        (s'.view p p).version (s'.view p p) := by
      refine ⟨?_, by omega, le_rfl⟩
      rw [Function.update_self]
    refine ⟨_, published, latest, fun packet member id => ?_, fun q apart => ?_⟩
    · rw [sent] at member
      exact earlier (coherent.sent packet member id)
    · rw [others q apart]
      rcases coherent.stored q apart with unheard | named
      · exact .inl unheard
      · exact .inr (earlier named)

/-- Another node does something, and what it stores for `p` remains one of these. -/
theorem Coherent.elsewhere {history : Nat → ElevatorState kFloors} (coherent : s.Coherent p history)
    {i : Fin kElevs} (apart : p ≠ i) {n : ElevatorNode kFloors}
    (stored : n.peers.allStates p = s.view i p ∨ Unheard (n.peers.allStates p) ∨
      ∃ packet ∈ s.sent, packet.id = p.val ∧ n.peers.allStates p = packet.state) :
    (s.setNode i n).Coherent p history := by
  have here : (s.setNode i n).node p = s.node p := setNode_node_of_ne s n apart
  refine ⟨?_, ?_, ?_, fun q other => ?_⟩
  · rw [here]
    exact coherent.published
  · rw [view, here]
    exact coherent.own
  · rw [view, here]
    exact coherent.sent
  · rw [view, view, here]
    by_cases at_ : q = i
    · subst at_
      rw [setNode_node_self]
      rcases stored with kept | unheard | ⟨packet, member, id, adopted⟩
      · rw [kept]
        exact coherent.stored q other
      · exact .inl unheard
      · rw [adopted]
        exact .inr (coherent.sent packet member id)
    · rw [setNode_node_of_ne s n at_]
      exact coherent.stored q other

/-- A step of the fleet that does not launch `p` again. -/
theorem Coherent.step {history : Nat → ElevatorState kFloors} (coherent : s.Coherent p history)
    (serving : s.Serving (fun _ => True) (fun _ => True)) {action : FleetRestartAction kFloors}
    (step : FleetRestartStep s action s') (stays : ¬Relaunches p action) :
    ∃ history', s'.Coherent p history' := by
  have node := (serving.node p).nodeId
  have node' := ((serving.step peersRule_true step).node p).nodeId
  have others {n : ElevatorNode kFloors} (q : Fin kElevs) (apart : q ≠ p) :
      (s.setNode p n).view q p = s.view q p := by
    rw [view, setNode_node_of_ne s n apart]
  cases action with
  | run action =>
    cases action with
    | sync i now signals =>
      obtain ⟨n, done, rfl⟩ := Option.map_eq_some_iff.1 step
      by_cases here : p = i
      · subst here
        have unwatched := (serving.node p).serves.unwatched
        obtain ⟨published, version⟩ := ElevatorNode.own_of_sync unwatched done
        rw [coherent.published, own_eq_view node] at version
        refine coherent.publish ?_ (.inr ?_) rfl others
        · rwa [setNode_node_self]
        · rwa [← own_eq_view node', setNode_node_self]
      · refine ⟨history, coherent.elsewhere here ?_⟩
        rw [ElevatorNode.allStates_sync done (by rwa [(serving.node i).nodeId])]
        split_ifs
        · exact .inr (.inl ⟨rfl, rfl⟩)
        · exact .inl rfl
    | handle i now floorSensor =>
      obtain ⟨n, done, rfl⟩ := Option.map_eq_some_iff.1 step
      by_cases here : p = i
      · subst here
        obtain ⟨published, version⟩ := ElevatorNode.own_of_handleEvent coherent.published done
        rw [own_eq_view node] at version
        refine coherent.publish ?_ ?_ rfl others
        · rwa [setNode_node_self]
        · rwa [← own_eq_view node', setNode_node_self]
      · refine ⟨history, coherent.elsewhere here (.inl ?_)⟩
        exact ElevatorNode.allStates_handleEvent done (by rwa [(serving.node i).nodeId])
    | transmit i =>
      obtain rfl := Option.some.inj step
      refine ⟨history, coherent.published, coherent.own, fun packet member id => ?_, coherent.stored⟩
      rcases List.mem_append.1 member with old | new
      · exact coherent.sent packet old id
      · rw [List.mem_singleton.1 new] at id ⊢
        have named := serving.id_txPacketCopy i
        have sender : i = p := Fin.ext (Int.ofNat.inj (named.symm.trans id))
        subst sender
        have state : (s.node i).peers.txPacketCopy.state = s.view i i :=
          congrArg (s.node i).peers.allStates node
        rw [state]
        exact coherent.own
    | receive i position now =>
      rcases receive_cases step with ⟨-, -, -, rfl⟩ | ⟨received, sent, rfl⟩
      · exact ⟨history, coherent⟩
      have adopts := (s.node i).peers.view_rxPacketProcessing now received p
      by_cases here : p = i
      · subst here
        have kept : ((s.node p).rxPacketProcessing now received).peers.allStates p = s.view p p := by
          refine adopts.trans (if_neg fun adopted => adopted.2.1 ?_)
          rw [node]
          exact adopted.1.symm
        have own' := own_eq_view node'
        rw [view, setNode_node_self, kept] at own'
        refine coherent.publish ?_ (.inl ?_) rfl others
        · have published : (s.node p).drive.elev.state.version = (s.node p).own.version :=
            coherent.published
          rw [own_eq_view node] at published
          rw [setNode_node_self]
          exact published.trans (congrArg ElevatorState.version own').symm
        · rw [view, setNode_node_self]
          exact kept
      · refine ⟨history, coherent.elsewhere here ?_⟩
        rw [show ((s.node i).rxPacketProcessing now received).peers.allStates p = _ from adopts]
        split_ifs with adopted
        · refine .inr (.inr ⟨received.toNetworkPacket, List.mem_of_getElem? sent, ?_, rfl⟩)
          rw [adopted.1]
          exact received.id_eq_sender
        · exact .inl rfl
  | restart i initial first =>
    obtain ⟨atFloor, done⟩ := Option.ite_none_right_eq_some.1 step
    obtain ⟨n, launched, rfl⟩ := Option.map_eq_some_iff.1 done
    have here : p ≠ i := fun same => stays same.symm
    refine ⟨history, coherent.elsewhere here (.inr (.inl ?_))⟩
    rw [ElevatorNode.allStates_launch launched here]
    exact ⟨rfl, rfl⟩

/-- A launched node has published a version. -/
theorem published_launch {i : Fin kElevs} {initial : Signals kFloors} {first : StepInput kFloors}
    {n : ElevatorNode kFloors} (launched : ElevatorNode.launch i initial first = some n) :
    n.Published := by
  obtain ⟨synced, sync, handled⟩ := ElevatorNode.launch_cases launched
  obtain ⟨published, -⟩ := ElevatorNode.own_of_sync rfl sync
  exact (ElevatorNode.own_of_handleEvent published handled).1

/-- In every run in which `p` is not launched again. -/
theorem coherent_of_run {start : Fleet kFloors} (launched : start.Launched)
    {trace : List (Transition (Fleet kFloors) (FleetRestartAction kFloors))}
    (run : Run FleetRestartStep start trace s) (stays : ∀ t ∈ trace, ¬Relaunches p t.action) :
    ∃ history, s.Coherent p history := by
  have serves := launched.serving peersRule_true (.nil start)
  have begun : start.Coherent p fun _ => start.view p p := by
    have positive : 0 < (start.view p p).version := by
      rw [← own_eq_view (serves.node p).nodeId]
      exact (serves.node p).serves.presents.ownState.2.2
    refine ⟨?_, ⟨rfl, positive, le_rfl⟩, ?_, fun q apart => .inl ?_⟩
    · obtain ⟨initial, first, -, node⟩ := launched.node p
      exact published_launch node
    · rw [launched.sent]
      exact fun packet member => absurd member List.not_mem_nil
    · obtain ⟨initial, first, -, node⟩ := launched.node q
      rw [view, ElevatorNode.allStates_launch node (Ne.symm apart)]
      exact ⟨rfl, rfl⟩
  have reached := run.invariant_of_admitted (fun t => ¬Relaunches p t.action)
    (fun l => l.Serving (fun _ => True) (fun _ => True) ∧ ∃ history, l.Coherent p history) ?_ stays
    ⟨serves, _, begun⟩
  · exact reached.2
  · intro l l' action step kept before
    obtain ⟨serving, history, coherent⟩ := before
    exact ⟨serving.step peersRule_true step, coherent.step serving step kept⟩

/-- Equal versions are equal states, or nothing at all. -/
theorem Coherent.same {history : Nat → ElevatorState kFloors} (coherent : s.Coherent p history)
    {q r : Fin kElevs} (version : (s.view q p).version = (s.view r p).version) :
    s.view q p = s.view r p ∨ Unheard (s.view q p) ∧ Unheard (s.view r p) := by
  have known (i : Fin kElevs) :
      Unheard (s.view i p) ∨ NamedBy history (s.view p p).version (s.view i p) := by
    by_cases here : i = p
    · subst here
      exact .inr coherent.own
    · exact coherent.stored i here
  rcases known q with silent | ⟨state, positive, -⟩
  · rcases known r with silent' | ⟨-, positive, -⟩
    · exact .inr ⟨silent, silent'⟩
    · rw [← version, silent.1] at positive
      exact absurd positive (Nat.lt_irrefl 0)
  · rcases known r with silent' | ⟨state', -, -⟩
    · rw [version, silent'.1] at positive
      exact absurd positive (Nat.lt_irrefl 0)
    · left
      rw [state, state', version]

/-- In every run of a fleet launched at floors in which node `p` is not launched again: nobody stores a
state of `p` that is ahead of its own, who stores the version of its own stores its own, and nodes that
store the same version store the same state, unless they have given it up. -/
theorem version_names_state {start : Fleet kFloors} (launched : start.Launched)
    {trace : List (Transition (Fleet kFloors) (FleetRestartAction kFloors))}
    (run : Run FleetRestartStep start trace s) (stays : ∀ t ∈ trace, ¬Relaunches p t.action)
    (q r : Fin kElevs) :
    (s.view q p).version ≤ (s.view p p).version ∧
      ((s.view q p).version = (s.view p p).version → s.view q p = s.view p p) ∧
      ((s.view q p).version = (s.view r p).version → (s.view q p).active = true →
        s.view q p = s.view r p) := by
  obtain ⟨history, coherent⟩ := coherent_of_run launched run stays
  refine ⟨?_, fun version => ?_, fun version active => ?_⟩
  · by_cases here : q = p
    · rw [here]
    · rcases coherent.stored q here with silent | ⟨-, -, bound⟩
      · exact silent.1.trans_le (Nat.zero_le _)
      · exact bound
  · rcases coherent.same version with state | ⟨-, silent⟩
    · exact state
    · have positive := coherent.own.2.1
      rw [silent.1] at positive
      exact absurd positive (Nat.lt_irrefl 0)
  · rcases coherent.same version with state | ⟨silent, -⟩
    · exact state
    · rw [silent.2] at active
      cases active

/-- Two nodes that hear of a third, one of them late. -/
theorem version_names_state_late : ∃ s : Fleet Config.kFloors,
    (s.view 0 1).version = 3 ∧ (s.view 2 1).version = 2 ∧ (s.view 1 1).version = 3 ∧
    s.view 0 1 = s.view 1 1 := by
  let actions : List (FleetRestartAction Config.kFloors) := [.run (.transmit 1),
    .run (.receive 2 0 50), .run (.sync 1 (.still 60) { floorSensor := 0 }), .run (.transmit 1),
    .run (.receive 0 1 70)]
  have evaluated : (actions.foldlM execRestart atBottom).any (fun s =>
      decide ((s.view 0 1).version = 3 ∧ (s.view 2 1).version = 2 ∧ (s.view 1 1).version = 3)) =
        true := by decide +kernel
  obtain ⟨trace, s, run, labels, checked⟩ := Run.of_check FleetRestartStep id evaluated
  obtain ⟨first, second, own⟩ := of_decide_eq_true checked
  have stays : ∀ t ∈ trace, ¬Relaunches 1 t.action := by
    intro t member
    have listed : t.action ∈ actions := labels ▸ List.mem_map_of_mem member
    revert listed
    generalize t.action = action
    intro listed
    simp only [actions, List.mem_cons, List.not_mem_nil, or_false] at listed
    rcases listed with rfl | rfl | rfl | rfl | rfl <;> exact id
  exact ⟨s, first, second, own,
    (version_names_state launched_atBottom run stays 0 0).2.1 (first.trans own.symm)⟩

/-- Which elevator a node takes for an order depends on the costs and on who is active and usable. -/
theorem newAssignee_congr {q r : Peers kFloors} {f : Fin kFloors}
    (costs : q.calculateElevatorCosts f = r.calculateElevatorCosts f)
    (active : ∀ e, (q.allStates e).active = (r.allStates e).active)
    (usable : ∀ e, (q.allStates e).usable = (r.allStates e).usable) (prev : Fin kElevs) :
    q.newAssignee f prev = r.newAssignee f prev := by
  unfold newAssignee
  simp only [costs, active, usable]

/-- In every run of a fleet launched at floors without further launches: nodes that store the same
versions of all states compute the same costs for every hall order, in the same order, and find the
same new assignee for it. -/
theorem same_versions_same_choice {start : Fleet kFloors} (launched : start.Launched)
    {trace : List (Transition (Fleet kFloors) (FleetRestartAction kFloors))}
    (run : Run FleetRestartStep start trace s) (stays : ∀ t ∈ trace, ∀ p, ¬Relaunches p t.action)
    {q r : Fin kElevs} (versions : ∀ p, (s.view q p).version = (s.view r p).version)
    (f : Fin kFloors) :
    (s.node q).peers.calculateElevatorCosts f = (s.node r).peers.calculateElevatorCosts f ∧
      ∀ prev, (s.node q).peers.newAssignee f prev = (s.node r).peers.newAssignee f prev := by
  have known (p : Fin kElevs) :
      s.view q p = s.view r p ∨ Unheard (s.view q p) ∧ Unheard (s.view r p) := by
    obtain ⟨history, coherent⟩ := coherent_of_run launched run fun t member => stays t member p
    exact coherent.same (versions p)
  have quiet {state : ElevatorState kFloors} (silent : Unheard state) :
      elevatorCost state f = intMax ∧ state.usable = false := by
    simp [elevatorCost, ElevatorState.usable, silent.2]
  have costs : (s.node q).peers.calculateElevatorCosts f =
      (s.node r).peers.calculateElevatorCosts f := by
    unfold calculateElevatorCosts
    refine congrArg _ (List.map_congr_left fun p _ => congrArg (·, p) ?_)
    rcases known p with same | ⟨silent, silent'⟩
    · exact congrArg (elevatorCost · f) same
    · rw [(quiet silent).1, (quiet silent').1]
  refine ⟨costs, newAssignee_congr costs (fun p => ?_) fun p => ?_⟩
  · rcases known p with same | ⟨silent, silent'⟩
    · exact congrArg ElevatorState.active same
    · rw [silent.2, silent'.2]
  · rcases known p with same | ⟨silent, silent'⟩
    · exact congrArg ElevatorState.usable same
    · rw [(quiet silent).2, (quiet silent').2]

/-- Two nodes that have told each other their states find the same elevator for a call. -/
theorem same_versions_same_choice_pair : ∃ s : Fleet Config.kFloors,
    (s.view 0 1).version = 2 ∧ (s.view 1 0).version = 2 ∧
    (s.node 0).peers.calculateElevatorCosts 2 = (s.node 1).peers.calculateElevatorCosts 2 ∧
    ∀ prev, (s.node 0).peers.newAssignee 2 prev = (s.node 1).peers.newAssignee 2 prev := by
  let actions : List (FleetRestartAction Config.kFloors) := [.run (.transmit 1), .run (.transmit 0),
    .run (.receive 0 0 50), .run (.receive 1 1 60)]
  have evaluated : (actions.foldlM execRestart atBottom).any (fun s =>
      decide (((s.view 0 1).version = 2 ∧ (s.view 1 0).version = 2) ∧
        ∀ p, (s.view 0 p).version = (s.view 1 p).version)) = true := by decide +kernel
  obtain ⟨trace, s, run, labels, checked⟩ := Run.of_check FleetRestartStep id evaluated
  obtain ⟨⟨first, second⟩, versions⟩ := of_decide_eq_true checked
  have stays : ∀ t ∈ trace, ∀ p, ¬Relaunches p t.action := by
    intro t member
    have listed : t.action ∈ actions := labels ▸ List.mem_map_of_mem member
    revert listed
    generalize t.action = action
    intro listed
    simp only [actions, List.mem_cons, List.not_mem_nil, or_false] at listed
    rcases listed with rfl | rfl | rfl | rfl <;> exact fun _ => id
  exact ⟨s, first, second, same_versions_same_choice launched_atBottom run stays versions 2⟩

end Fleet

end CppElevator
