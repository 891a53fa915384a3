import CppElevator.Verif.ClusterCells

/-!
# Cab orders across restarts

The cab orders of a node are backed up by its peers, and the backups are merged back by the
rule that orders every merge: the newer version wins. The cab order of one floor has a copy at
the node, one at each peer and one in every packet; only the node itself makes new versions.
A restarted node counts from zero again, so a call it accepts is safe when no copy left from
an earlier incarnation is cleared and ahead of it.
-/
namespace CppElevator

open Library

variable {kFloors : Nat}

/-- The places that hold a cab order of one node. -/
inductive CabHolder where
  /-- The node's own order table. -/
  | cell
  /-- The copy `cab_button_orders_` of a node, its own copy included. -/
  | backup (p : Fin kElevs)
  deriving DecidableEq

/-- The node that keeps the copy. -/
def CabHolder.keeper (n : Fin kElevs) : CabHolder → Fin kElevs
  | .cell => n
  | .backup p => p

/-- The copy of node `n`'s cab order at a floor. -/
def Cluster.cabOrder (s : Cluster kFloors) (n : Fin kElevs) (f : Fin kFloors) : CabHolder → Order
  | .cell => (s.node n).orders f .cab
  | .backup p => (s.node p).cabButtonOrders n f

/-- The order is a copy of node `n`'s cab order at a floor, held by a node or carried by a packet
that receivers accept. -/
def CabCopy (s : Cluster kFloors) (n : Fin kElevs) (f : Fin kFloors) (o : Order) : Prop :=
  (∃ holder, o = s.cabOrder n f holder) ∨
    ∃ packet ∈ s.sent, packet.valid = true ∧
      (o = packet.cabButtonOrders n f ∨ packet.id = n.val ∧ o = packet.orders f .cab)

/-- How one step changes a copy of node `n`'s cab order at a floor. -/
inductive CabChange (s : Cluster kFloors) (n : Fin kElevs) (f : Fin kFloors) (holder : CabHolder)
    (o : Order) : RestartAction kFloors → Order → Prop where
  /-- The step does not concern the copy. -/
  | same (action : RestartAction kFloors) : CabChange s n f holder o action o
  /-- The button is pressed at the node. -/
  | press {buttonSignals : BoolTable kFloors} (set : buttonSignals f .cab = true) :
      CabChange s n f holder o (.run (.press n buttonSignals)) ((o.onRequest n).onConfirm n.val)
  /-- The node clears its order. -/
  | clear (own : ElevatorState kFloors) {b2c : ButtonFlags} (flag : b2c .cab = true) :
      CabChange s n f holder o (.run (.clear n own f b2c)) o.onClear.onReset
  /-- The copy is merged with another copy. -/
  | merge (i : Fin kElevs) (position now : Nat) {rcv : Order} (copy : CabCopy s n f rcv) :
      CabChange s n f holder o (.run (.receive i position now)) (o.onUpdate rcv)
  /-- The keeper crashes. -/
  | crash : CabChange s n f holder o (.crash (holder.keeper n)) {}

/-- The cab cells after a step of one node that treats its cell and its copy alike. -/
theorem cabChange_of_setNode {s : Cluster kFloors} {n i : Fin kElevs} {f : Fin kFloors}
    {p : Peers kFloors} {action : RestartAction kFloors}
    (cell : i = n → CabChange s n f .cell (s.cabOrder n f .cell) action (p.orders f .cab))
    (backup : CabChange s n f (.backup i) (s.cabOrder n f (.backup i)) action
      (p.cabButtonOrders n f)) (holder : CabHolder) :
    CabChange s n f holder (s.cabOrder n f holder) action ((s.setNode i p).cabOrder n f holder) := by
  cases holder with
  | cell =>
    by_cases here : n = i
    · subst here
      simpa only [Cluster.cabOrder, Cluster.setNode_node_self] using cell rfl
    · simp only [Cluster.cabOrder, Cluster.setNode_node_of_ne _ _ here]
      exact .same action
  | backup q =>
    by_cases here : q = i
    · subst here
      simpa only [Cluster.cabOrder, Cluster.setNode_node_self] using backup
    · simp only [Cluster.cabOrder, Cluster.setNode_node_of_ne _ _ here]
      exact .same action

/-- Presses at a node. -/
theorem cabChange_of_press {s : Cluster kFloors} (ids : s.Identified) (n i : Fin kElevs)
    (f : Fin kFloors) (signals : BoolTable kFloors) (holder : CabHolder) :
    CabChange s n f holder (s.cabOrder n f holder) (.run (.press i signals))
      ((s.setNode i ((s.node i).syncButtonSignals signals)).cabOrder n f holder) := by
  apply cabChange_of_setNode
  · rintro rfl
    by_cases set : signals f .cab = true
    · simp only [Peers.syncButtonSignals, set, ↓reduceIte, ids i]
      exact .press set
    · simp only [Peers.syncButtonSignals, set, Bool.false_eq_true, ↓reduceIte]
      exact .same _
  · by_cases set : n = i ∧ signals f .cab = true
    · obtain ⟨rfl, set⟩ := set
      simp only [Peers.syncButtonSignals, set, and_self, ↓reduceIte, ids n]
      exact .press set
    · have unset : ¬(n = (s.node i).nodeId ∧ signals f .cab = true) := by rwa [ids i]
      simp only [Peers.syncButtonSignals, if_neg unset]
      exact .same _

/-- A clearing by a node. -/
theorem cabChange_of_clear {s : Cluster kFloors} (ids : s.Identified) (n i : Fin kElevs)
    (f floor : Fin kFloors) (own : ElevatorState kFloors) (b2c : ButtonFlags) (holder : CabHolder) :
    CabChange s n f holder (s.cabOrder n f holder) (.run (.clear i own floor b2c))
      ((s.setNode i (((s.node i).clearOrders floor b2c).copyOwnState own)).cabOrder n f holder) := by
  apply cabChange_of_setNode
  · rintro rfl
    by_cases set : f = floor ∧ b2c .cab = true
    · obtain ⟨rfl, flag⟩ := set
      simp only [Peers.copyOwnState, Peers.clearOrders, flag, and_self, ↓reduceIte]
      exact .clear own flag
    · simp only [Peers.copyOwnState, Peers.clearOrders, if_neg set]
      exact .same _
  · by_cases set : n = i ∧ f = floor ∧ b2c .cab = true
    · obtain ⟨rfl, rfl, flag⟩ := set
      simp only [Peers.copyOwnState, Peers.clearOrders, flag, and_self, ↓reduceIte, ids n]
      exact .clear own flag
    · have unset : ¬(n = (s.node i).nodeId ∧ f = floor ∧ b2c .cab = true) := by rwa [ids i]
      simp only [Peers.copyOwnState, Peers.clearOrders, if_neg unset]
      exact .same _

/-- A delivery at a node. -/
theorem cabChange_of_receive {s : Cluster kFloors} (ids : s.Identified) (n i : Fin kElevs)
    (f : Fin kFloors) (position now : Nat) {received : ReceivedPacket kFloors}
    (member : received.toNetworkPacket ∈ s.sent) (holder : CabHolder) :
    CabChange s n f holder (s.cabOrder n f holder) (.run (.receive i position now))
      ((s.setNode i ((s.node i).rxPacketProcessing now received)).cabOrder n f holder) := by
  by_cases own : received.sender = (s.node i).nodeId
  · rw [Peers.rxPacketProcessing_own own]
    apply cabChange_of_setNode
    · rintro rfl
      exact .same _
    · exact .same _
  · apply cabChange_of_setNode
    · rintro rfl
      rw [Peers.rxPacketProcessing_cab own, ids i]
      exact .merge i position now (.inr ⟨_, member, received.checked, .inl rfl⟩)
    · simp only [Peers.rxPacketProcessing, if_neg own]
      split_ifs with sender self
      · refine .merge i position now (.inr ⟨_, member, received.checked, .inr ⟨?_, rfl⟩⟩)
        rw [received.id_eq_sender, sender]
      · refine .merge i position now (.inr ⟨_, member, received.checked, .inl ?_⟩)
        rw [self]
      · exact .same _

/-- A step changes every copy of every cab order in one of the listed ways. -/
theorem cabChange_of_step {s s' : Cluster kFloors} {action : RestartAction kFloors}
    (ids : s.Identified) (step : RestartStep s action s') (n : Fin kElevs) (f : Fin kFloors)
    (holder : CabHolder) :
    CabChange s n f holder (s.cabOrder n f holder) action (s'.cabOrder n f holder) := by
  cases action with
  | crash i =>
    obtain rfl := Option.some.inj step
    apply cabChange_of_setNode
    · rintro rfl
      exact @CabChange.crash _ _ _ _ .cell _
    · exact @CabChange.crash _ _ _ _ (.backup i) _
  | run action =>
    rcases clusterStep_cases step with ⟨i, signals, rfl, rfl⟩ |
      ⟨i, own, now, p, rfl, -, stepped, rfl⟩ | ⟨i, own, floor, b2c, rfl, -, rfl⟩ | ⟨i, rfl, rfl⟩ |
      ⟨i, position, now, packet, rfl, sent, rfl | ⟨received, arrived, rfl⟩⟩
    · exact cabChange_of_press ids n i f signals holder
    · -- the passes touch no cab order
      have advances := Peers.advances_step stepped
      apply cabChange_of_setNode
      · rintro rfl
        rw [advances.cab f]
        exact .same _
      · rw [advances.cabButtonOrders]
        exact .same _
    · exact cabChange_of_clear ids n i f floor own b2c holder
    · exact .same _
    · exact .same _
    · obtain rfl := eq_of_recievePacket arrived
      exact cabChange_of_receive ids n i f position now (List.mem_of_getElem? sent) holder

/-- Every copy after a step was a copy before, or is one changed by the step. -/
theorem cabCopy_of_step {s s' : Cluster kFloors} {action : RestartAction kFloors}
    (ids : s.Identified) (published : s.Published) (step : RestartStep s action s')
    {n : Fin kElevs} {f : Fin kFloors} {o : Order} (copy : CabCopy s' n f o) :
    CabCopy s n f o ∨ ∃ holder, CabChange s n f holder (s.cabOrder n f holder) action o := by
  rcases copy with ⟨holder, rfl⟩ | ⟨packet, sent, valid, carried⟩
  · exact .inr ⟨holder, cabChange_of_step ids step n f holder⟩
  · cases action with
    | crash i =>
      obtain rfl := Option.some.inj step
      exact .inl (.inr ⟨packet, sent, valid, carried⟩)
    | run action =>
      rcases sent_of_step step sent with earlier | ⟨-, i, rfl⟩
      · exact .inl (.inr ⟨packet, earlier, valid, carried⟩)
      · left
        rcases carried with rfl | ⟨sender, rfl⟩
        · exact .inl ⟨.backup i, rfl⟩
        · have node : (s.node i).nodeId = i := ids i
          have id : ((s.node i).allStates i).id = n.val := by
            simpa only [Peers.txPacketCopy, NetworkPacket.init, node] using sender
          rcases published i with default | own
          · omega
          · have : i = n := Fin.ext (by omega)
            subst this
            exact .inl ⟨.cell, rfl⟩

/-- A press leaves a cab order confirmed. -/
theorem Order.press_cases {o : Order} (n : Fin kElevs)
    (settled : o.status = .none ∨ o.status = .confirmed) :
    o.status = .none ∧ (((o.onRequest n).onConfirm n.val).status = .confirmed ∧
      ((o.onRequest n).onConfirm n.val).version = o.version + 2) ∨
    o.status = .confirmed ∧ (o.onRequest n).onConfirm n.val = o := by
  rcases settled with none | confirmed
  · left
    rw [Order.onRequest_of_open _ (.inl none), Order.onConfirm_of_requested _ rfl]
    exact ⟨none, rfl, rfl⟩
  · right
    rw [Order.onRequest_of_underway _ (by simp [confirmed])]
    exact ⟨confirmed, if_neg (by simp [confirmed])⟩

/-- A clearing leaves a cab order `None`. -/
theorem Order.clear_status {o : Order} (settled : o.status = .none ∨ o.status = .confirmed) :
    o.onClear.onReset.status = .none := by
  rcases settled with none | confirmed
  · rw [Order.onClear_of_not_confirmed (by simp [none]), Order.onReset_of_not_clear (by simp [none])]
    exact none
  · rw [Order.onClear_of_confirmed confirmed, Order.onReset_of_clear rfl]

/-- Every copy of node `n`'s cab order at a floor is `None` or confirmed. -/
structure CabSettled (n : Fin kElevs) (f : Fin kFloors) (s : Cluster kFloors) : Prop where
  /-- Identities of the nodes. -/
  ids : s.Identified
  /-- Identities the nodes publish. -/
  published : s.Published
  /-- Status of every copy. -/
  status : ∀ o, CabCopy s n f o → o.status = .none ∨ o.status = .confirmed

/-- No step leaves a cab order requested or cleared. -/
theorem CabSettled.step {n : Fin kElevs} {f : Fin kFloors} {s s' : Cluster kFloors}
    {action : RestartAction kFloors} (old : CabSettled n f s) (step : RestartStep s action s') :
    CabSettled n f s' := by
  refine ⟨old.ids.restart step, old.published.restart old.ids step, fun o copy => ?_⟩
  rcases cabCopy_of_step old.ids old.published step copy with earlier | ⟨holder, change⟩
  · exact old.status o earlier
  · have settled := old.status _ (.inl ⟨holder, rfl⟩)
    generalize s.cabOrder n f holder = before at settled change
    cases change with
    | same => exact settled
    | press set =>
      rcases before.press_cases n settled with ⟨_, confirmed, _⟩ | ⟨_, kept⟩
      · exact .inr confirmed
      · rw [kept]
        exact settled
    | clear own flag => exact .inl (Order.clear_status settled)
    | merge i position now received =>
      rename_i rcv
      rcases before.onUpdate_status_version rcv with ⟨same, _⟩ | ⟨same, _⟩
      · rw [same]
        exact settled
      · rw [same]
        exact old.status _ received
    | crash => exact .inl rfl

/-- All cab orders start settled. -/
theorem cabSettled_initial {n : Fin kElevs} {f : Fin kFloors} :
    CabSettled n f Cluster.initial := by
  refine ⟨Cluster.identified_initial, fun _ => .inl rfl, fun o copy => ?_⟩
  rcases copy with ⟨holder, rfl⟩ | ⟨packet, sent, _⟩
  · cases holder <;> exact .inl rfl
  · exact absurd sent List.not_mem_nil

/-- No copy of node `n`'s cab order at a floor is `None` past version `w`. -/
def NoneUpTo (w : Nat) (n : Fin kElevs) (f : Fin kFloors) (s : Cluster kFloors) : Prop :=
  ∀ o, CabCopy s n f o → o.status = .none → o.version ≤ w

/-- A step in which node `n` clears its cab order at a floor. -/
def ClearsCab (n : Fin kElevs) (f : Fin kFloors)
    (t : Transition (Cluster kFloors) (RestartAction kFloors)) : Prop :=
  ∃ own b2c, t.action = .run (.clear n own f b2c) ∧ b2c .cab = true

/-- Only a clearing by the node makes a newer `None` copy. -/
theorem NoneUpTo.step {w : Nat} {n : Fin kElevs} {f : Fin kFloors} {s s' : Cluster kFloors}
    {action : RestartAction kFloors} (old : NoneUpTo w n f s) (settled : CabSettled n f s)
    (step : RestartStep s action s') (uncleared : ¬ ClearsCab n f ⟨s, action, s'⟩) :
    NoneUpTo w n f s' := by
  intro o copy none
  rcases cabCopy_of_step settled.ids settled.published step copy with earlier | ⟨holder, change⟩
  · exact old o earlier none
  · have status := settled.status _ (.inl ⟨holder, rfl⟩)
    have bound := old _ (.inl ⟨holder, rfl⟩)
    generalize s.cabOrder n f holder = before at status bound change
    cases change with
    | same => exact bound none
    | press set =>
      rcases before.press_cases n status with ⟨_, confirmed, _⟩ | ⟨_, kept⟩
      · cases none.symm.trans confirmed
      · rw [kept] at none ⊢
        exact bound none
    | clear own flag => exact absurd ⟨_, _, rfl, flag⟩ uncleared
    | merge i position now received =>
      rename_i rcv
      rcases before.onUpdate_status_version rcv with ⟨same, version⟩ | ⟨same, version⟩
      · rw [version]
        exact bound (same ▸ none)
      · rw [version]
        exact old _ received (same ▸ none)
    | crash => exact Nat.zero_le w

/-- The copy is confirmed, at version `w` or later. -/
def CabHeld (w : Nat) (o : Order) : Prop := o.status = .confirmed ∧ w ≤ o.version

/-- A held call survives every step but a crash of its keeper and a clearing by the node. -/
theorem CabHeld.step {w : Nat} {n : Fin kElevs} {f : Fin kFloors} {holder : CabHolder}
    {s s' : Cluster kFloors} {action : RestartAction kFloors}
    (held : CabHeld w (s.cabOrder n f holder)) (settled : CabSettled n f s)
    (upTo : NoneUpTo w n f s) (step : RestartStep s action s')
    (uncleared : ¬ ClearsCab n f ⟨s, action, s'⟩) (up : action ≠ .crash (holder.keeper n)) :
    CabHeld w (s'.cabOrder n f holder) := by
  have change := cabChange_of_step settled.ids step n f holder
  generalize s.cabOrder n f holder = o at held change
  generalize s'.cabOrder n f holder = o' at change ⊢
  cases change with
  | same => exact held
  | press set =>
    rcases o.press_cases n (.inr held.1) with ⟨none, _⟩ | ⟨_, kept⟩
    · cases none.symm.trans held.1
    · rw [kept]
      exact held
  | clear own flag => exact absurd ⟨_, _, rfl, flag⟩ uncleared
  | merge i position now copy =>
    rename_i rcv
    have grown := o.version_le_onUpdate rcv
    refine ⟨?_, held.2.trans grown⟩
    rcases settled.status _ copy with none | confirmed
    · have stale : rcv.version ≤ o.version := (upTo _ copy none).trans held.2
      rcases stale.lt_or_eq with older | same
      · rw [Order.onUpdate_of_gt older]
        exact held.1
      · rw [Order.onUpdate_status_of_eq same, held.1, none]
        rfl
    · rcases o.onUpdate_status_version rcv with ⟨same, _⟩ | ⟨same, _⟩
      · rw [same, held.1]
      · rw [same, confirmed]
  | crash => exact absurd rfl up

/-- A step in which node `n` accepts a cab press at a floor. -/
def AcceptsCab (n : Fin kElevs) (f : Fin kFloors)
    (t : Transition (Cluster kFloors) (RestartAction kFloors)) : Prop :=
  ∃ buttonSignals, t.action = .run (.press n buttonSignals) ∧ buttonSignals f .cab = true ∧
    ((t.pre.node n).orders f .cab).status ≠ .confirmed ∧
    ((t.post.node n).orders f .cab).status = .confirmed

/-- No `None` copy of node `n`'s cab order at a floor, at a peer or in a packet, is past the version
a press accepted now gets. -/
def CabRecovered (n : Fin kElevs) (f : Fin kFloors) (s : Cluster kFloors) : Prop :=
  NoneUpTo (((s.node n).orders f .cab).version + 2) n f s

/-- Cab orders are settled after every run. -/
theorem cabSettled_of_run {n : Fin kElevs} {f : Fin kFloors}
    {trace : List (Transition (Cluster kFloors) (RestartAction kFloors))} {s s' : Cluster kFloors}
    (run : Run RestartStep s trace s') (settled : CabSettled n f s) : CabSettled n f s' :=
  run.invariant (CabSettled n f) (fun step settled => settled.step step) settled

/-- A held call stays held along a run that neither crashes its keeper nor clears it. -/
theorem cabHeld_of_run {w : Nat} {n : Fin kElevs} {f : Fin kFloors} (holder : CabHolder)
    {trace : List (Transition (Cluster kFloors) (RestartAction kFloors))} {s s' : Cluster kFloors}
    (run : Run RestartStep s trace s') (settled : CabSettled n f s) (upTo : NoneUpTo w n f s)
    (uncleared : ∀ t ∈ trace, ¬ ClearsCab n f t)
    (up : ∀ t ∈ trace, t.action ≠ .crash (holder.keeper n))
    (held : CabHeld w (s.cabOrder n f holder)) : CabHeld w (s'.cabOrder n f holder) := by
  refine (run.invariant_of_admitted
    (fun t => ¬ ClearsCab n f t ∧ t.action ≠ .crash (holder.keeper n))
    (fun s => CabSettled n f s ∧ NoneUpTo w n f s ∧ CabHeld w (s.cabOrder n f holder))
    ?_ (fun t member => ⟨uncleared t member, up t member⟩) ⟨settled, upTo, held⟩).2.2
  rintro s s' action step ⟨uncleared, up⟩ ⟨settled, upTo, held⟩
  exact ⟨settled.step step, upTo.step settled step uncleared,
    held.step settled upTo step uncleared up⟩

/-- No run without a clearing makes a newer `None` copy. -/
theorem noneUpTo_of_run {w : Nat} {n : Fin kElevs} {f : Fin kFloors}
    {trace : List (Transition (Cluster kFloors) (RestartAction kFloors))} {s s' : Cluster kFloors}
    (run : Run RestartStep s trace s') (settled : CabSettled n f s) (upTo : NoneUpTo w n f s)
    (uncleared : ∀ t ∈ trace, ¬ ClearsCab n f t) : NoneUpTo w n f s' :=
  (run.invariant_of_admitted (fun t => ¬ ClearsCab n f t)
    (fun s => CabSettled n f s ∧ NoneUpTo w n f s)
    (fun step uncleared inv => ⟨inv.1.step step, inv.2.step inv.1 step uncleared⟩)
    uncleared ⟨settled, upTo⟩).2

/-- Cab calls survive restarts when the accepting node has recovered. Any node may crash at any
time. A call that node `n` accepts while no `None` copy of its order is past the call's version
stays confirmed at `n` while `n` runs, and a peer that has stored it keeps it confirmed while the
peer runs, until `n` clears the order. -/
theorem cab_call_survives_restarts {n : Fin kElevs} {f : Fin kFloors}
    {before early late : List (Transition (Cluster kFloors) (RestartAction kFloors))}
    {s s' stored last : Cluster kFloors} {action : RestartAction kFloors}
    (reached : Run RestartStep Cluster.initial before s) (step : RestartStep s action s')
    (accepts : AcceptsCab n f ⟨s, action, s'⟩) (recovered : CabRecovered n f s)
    (toStored : Run RestartStep s' early stored) (continued : Run RestartStep stored late last)
    (uncleared : ∀ t ∈ early ++ late, ¬ ClearsCab n f t) :
    ((∀ t ∈ early ++ late, t.action ≠ .crash n) →
      ((last.node n).orders f .cab).status = .confirmed) ∧
    ∀ p, (∀ t ∈ late, t.action ≠ .crash p) →
      ((stored.node p).cabButtonOrders n f).status = .confirmed →
      ((s'.node n).orders f .cab).version ≤ ((stored.node p).cabButtonOrders n f).version →
      ((last.node p).cabButtonOrders n f).status = .confirmed := by
  obtain ⟨signals, rfl, set, open_, confirmed⟩ := accepts
  dsimp only at set open_ confirmed
  have settled := cabSettled_of_run reached (cabSettled_initial (n := n) (f := f))
  have quiet : ¬ ClearsCab n f ⟨s, .run (.press n signals), s'⟩ := by
    rintro ⟨_, _, label, _⟩
    cases label
  have accepted : ((s'.node n).orders f .cab).version = ((s.node n).orders f .cab).version + 2 := by
    have change := cabChange_of_step settled.ids step n f .cell
    simp only [Cluster.cabOrder] at change
    generalize (s'.node n).orders f .cab = o' at change confirmed ⊢
    cases change with
    | same => exact absurd confirmed open_
    | press _ =>
      rcases Order.press_cases n (settled.status _ (.inl ⟨.cell, rfl⟩)) with
        ⟨_, _, version⟩ | ⟨already, _⟩
      · exact version
      · exact absurd already open_
  have upTo : NoneUpTo ((s'.node n).orders f .cab).version n f s' := by
    rw [accepted]
    exact NoneUpTo.step recovered settled step quiet
  have settled' := settled.step step
  constructor
  · intro up
    exact (cabHeld_of_run .cell (toStored.append continued) settled' upTo uncleared up
      ⟨confirmed, le_rfl⟩).1
  · intro p up status version
    have earlyUncleared := fun t member => uncleared t (List.mem_append_left late member)
    have lateUncleared := fun t member => uncleared t (List.mem_append_right early member)
    exact (cabHeld_of_run (.backup p) continued (cabSettled_of_run toStored settled')
      (noneUpTo_of_run toStored settled' upTo earlyUncleared) lateUncleared up ⟨status, version⟩).1

/-- Node 1 tells node 0 of its first call and crashes; node 0 keeps the call. -/
theorem cab_call_survives_crash :
    ∃ (early late : List (Transition (Cluster Config.kFloors) (RestartAction Config.kFloors)))
      (s' stored last : Cluster Config.kFloors),
      RestartStep Cluster.initial (.run (.press 1 (.only 0 .cab))) s' ∧
      Run RestartStep s' early stored ∧ Run RestartStep stored late last ∧
      late.map Transition.action = [.crash 1] ∧
      ((last.node 1).orders 0 .cab).status = .none ∧
      ((last.node 0).cabButtonOrders 1 0).status = .confirmed := by
  have passed : (Cluster.initial.execRestart (.run (.press 1 (.only 0 .cab)))).any
      (fun s' : Cluster Config.kFloors =>
        decide (((s'.node 1).orders 0 .cab).status = .confirmed) &&
        ([.run (.step 1 (.idleAt 1 0) (.still 0)), .run (.transmit 1), .run (.receive 0 0 0)].foldlM
          Cluster.execRestart s').any fun stored =>
            decide (((stored.node 0).cabButtonOrders 1 0).status = .confirmed) &&
            decide (((s'.node 1).orders 0 .cab).version ≤
              ((stored.node 0).cabButtonOrders 1 0).version) &&
            ([.crash 1].foldlM Cluster.execRestart stored).any fun last =>
              decide (((last.node 1).orders 0 .cab).status = .none)) = true := by
    decide +kernel
  obtain ⟨s', step, passed⟩ := (Option.any_eq_true _ _).1 passed
  simp only [Bool.and_eq_true, decide_eq_true_eq] at passed
  obtain ⟨confirmed, passed⟩ := passed
  obtain ⟨early, stored, toStored, earlyLabels, passed⟩ := Run.of_check RestartStep id passed
  simp only [Bool.and_eq_true, decide_eq_true_eq] at passed
  obtain ⟨⟨backup, version⟩, passed⟩ := passed
  obtain ⟨late, last, continued, lateLabels, restarted⟩ := Run.of_check RestartStep id passed
  rw [decide_eq_true_eq] at restarted
  refine ⟨early, late, s', stored, last, step, toStored, continued, lateLabels, restarted, ?_⟩
  refine (cab_call_survives_restarts (.nil _) step ⟨_, rfl, rfl, nofun, confirmed⟩ ?_ toStored
    continued ?_).2 0 ?_ backup version
  · rintro o (⟨holder, rfl⟩ | ⟨packet, sent, _⟩) _
    · cases holder <;> exact Nat.zero_le _
    · exact absurd sent List.not_mem_nil
  · rintro t member ⟨_, _, label, _⟩
    have listed := List.mem_map_of_mem (f := Transition.action) member
    simp [earlyLabels, lateLabels, label] at listed
  · intro t member crash
    have listed := List.mem_map_of_mem (f := Transition.action) member
    simp only [lateLabels, crash, List.mem_singleton] at listed
    exact absurd (RestartAction.crash.inj listed) (by decide)

/-- Node 1 serves a call, node 0 keeps the cleared order, and node 1 crashes. -/
def servedThenCrashed : List (RestartAction Config.kFloors) :=
  [.run (.press 1 (.only 0 .cab)), .run (.clear 1 (.idleAt 1 0) 0 (fun _ => true)),
    .run (.transmit 1), .run (.receive 0 0 0), .run (.step 0 (.idleAt 0 0) (.still 0)), .run (.transmit 0),
    .crash 1]

/-- The backup of the served call takes the call node 1 accepts after its restart. -/
theorem cab_call_lost_after_restart :
    ∃ (before after : List (Transition (Cluster Config.kFloors) (RestartAction Config.kFloors)))
      (s s' last : Cluster Config.kFloors) (action : RestartAction Config.kFloors),
      Run RestartStep Cluster.initial before s ∧ RestartStep s action s' ∧
      AcceptsCab 1 0 ⟨s, action, s'⟩ ∧ Run RestartStep s' after last ∧
      (∀ t ∈ after, ¬ ClearsCab 1 0 t) ∧ (∀ t ∈ after, t.action ≠ .crash 1) ∧
      ((last.node 1).orders 0 .cab).status ≠ .confirmed := by
  have passed : (servedThenCrashed.foldlM Cluster.execRestart Cluster.initial).any
      (fun s : Cluster Config.kFloors =>
        decide (((s.node 1).orders 0 .cab).status ≠ .confirmed) &&
        (s.execRestart (.run (.press 1 (.only 0 .cab)))).any fun s' =>
          decide (((s'.node 1).orders 0 .cab).status = .confirmed) &&
          ([.run (.receive 1 1 0)].foldlM Cluster.execRestart s').any fun last =>
            decide (((last.node 1).orders 0 .cab).status ≠ .confirmed)) = true := by
    decide +kernel
  obtain ⟨before, s, reached, -, passed⟩ := Run.of_check RestartStep id passed
  simp only [Bool.and_eq_true, decide_eq_true_eq] at passed
  obtain ⟨open_, passed⟩ := passed
  obtain ⟨s', step, passed⟩ := (Option.any_eq_true _ _).1 passed
  simp only [Bool.and_eq_true, decide_eq_true_eq] at passed
  obtain ⟨confirmed, passed⟩ := passed
  obtain ⟨after, last, continued, labels, lost⟩ := Run.of_check RestartStep id passed
  rw [decide_eq_true_eq] at lost
  refine ⟨before, after, s, s', last, _, reached, step, ⟨_, rfl, rfl, open_, confirmed⟩, continued,
    ?_, ?_, lost⟩
  · rintro t member ⟨_, _, label, _⟩
    have listed := List.mem_map_of_mem (f := Transition.action) member
    simp [labels, label] at listed
  · intro t member crash
    have listed := List.mem_map_of_mem (f := Transition.action) member
    simp [labels, crash] at listed

end CppElevator
