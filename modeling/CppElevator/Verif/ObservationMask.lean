import CppElevator.Verif.ClusterCells

/-!
# What the observation mask tells

A set bit of a requested order says that the elevator it names has received the request. This
is so as long as no merge adds the leftover mask of a reset order to a request of the same
version: `OnReset` leaves the mask of the finished order in place and `OnUpdate` joins the masks
of equal versions whatever their statuses are.
-/
namespace CppElevator

open Library

variable {kFloors : Nat}

namespace Peers

/-- A step that confirms a request has found every elevator active in its final view among the
observers of the request, itself apart. -/
theorem observed_of_step_confirms {p p' : Peers kFloors} {now : StepClock kFloors}
    (done : p.step now = some p') {f : Fin kFloors} {b : BtnType} (hall : b ≠ .cab)
    (requested : (p.orders f b).status = .requested)
    (confirmed : (p'.orders f b).status = .confirmed) {e : Fin kElevs}
    (active : (p'.allStates e).active = true) :
    (p.orders f b).observedBy e = true ∨ e = p.nodeId := by
  obtain ⟨watched, faulted, timed, watch, fault, timers, rfl⟩ := step_cases done
  have sameWatch : watched.orders f b = p.orders f b :=
    orders_of_monitorWatchdogTimers watch hall (by simp [updateNumElevs, requested])
  have same : faulted.orders f b = p.orders f b :=
    (orders_of_monitorFault fault hall (by simp [sameWatch, requested])).trans sameWatch
  have node : faulted.nodeId = p.nodeId :=
    (advances_monitorFault fault).nodeId.trans (advances_monitorWatchdogTimers watch).nodeId
  have view : timed.allStates = faulted.allStates := by
    rw [allStates_of_monitorHallOrderTimers timers]
    rfl
  have observed := observeOrders_of_requested hall (by rwa [same] : (faulted.orders f b).status = _)
  rw [same, node] at observed
  have stillRequested : (faulted.observeOrders.orders f b).status = .requested := by
    rcases observed with kept | marked
    · rw [kept, requested]
    · rw [marked]
      exact requested
  by_cases kept : (faulted.observeOrders.confirmHallOrders now).orders f b =
      faulted.observeOrders.orders f b
  · -- an unconfirmed request passes the remaining passes unchanged
    have reset : (faulted.observeOrders.confirmHallOrders now).resetHallOrders.orders f b =
        faulted.observeOrders.orders f b := by
      rw [resetHallOrders, orders_mapHall _ _ _ hall]
      dsimp only
      rw [kept, Order.onReset_of_not_clear (by simp [stillRequested])]
    have final := orders_of_monitorHallOrderTimers (f := f) timers hall
      (by simp [reset, stillRequested])
    rw [orders_of_controlHallOrderTimers _ _ hall, final, reset, stillRequested] at confirmed
    cases confirmed
  · have all := observedByAll_of_confirmHallOrders hall kept
    have seen : (faulted.observeOrders.orders f b).observedBy e = true :=
      of_decide_eq_true all e (view ▸ active)
    rcases observed with kept | marked
    · rw [kept] at seen
      exact .inl seen
    · rw [marked] at seen
      rcases (Order.observedBy_bit (Order.elev_fits e) (Order.elev_fits _) rfl).1 seen with set | own
      · exact .inl ((Order.observedBy_iff (Order.elev_fits e)).2 set)
      · exact .inr (Fin.ext own)

end Peers

/-- Every set bit of a request names an elevator that has reached the version of the request. -/
def MaskSound (s : Cluster kFloors) (f : Fin kFloors) (b : BtnType) (o : Order) : Prop :=
  o.status = .requested → ∀ e : Fin kElevs, o.observedBy e = true →
    o.version ≤ ((s.node e).orders f b).version

/-- A merge of a reset and a requested order of one version in which the leftover mask of the reset
order names an elevator besides its holder that the request does not name. -/
def LeftoverObserver (reset request : Order) (holder : Fin kElevs) : Prop :=
  reset.status = .none ∧ request.status = .requested ∧ reset.version = request.version ∧
    ∃ e : Fin kElevs, e ≠ holder ∧ reset.observedBy e = true ∧ request.observedBy e = false

/-- No leftover mask enters a request of the cell by a delivery. -/
def NoLeftoverObserver (f : Fin kFloors) (b : BtnType)
    (t : Transition (Cluster kFloors) (Action kFloors)) : Prop :=
  ∀ i position now, ∀ received : ReceivedPacket kFloors, t.action = .receive i position now →
    t.pre.sent[position]? = some received.toNetworkPacket → received.sender ≠ i →
    ¬ LeftoverObserver ((t.pre.node i).orders f b) (received.orders f b) i ∧
    ¬ LeftoverObserver (received.orders f b) ((t.pre.node i).orders f b) received.sender

/-- The masks of all copies of a hall order are sound, and packets are not ahead of their senders. -/
structure MasksSound (f : Fin kFloors) (b : BtnType) (s : Cluster kFloors) : Prop where
  /-- Identities of the nodes. -/
  ids : s.Identified
  /-- Identities the nodes publish. -/
  published : s.Published
  /-- Copies at the nodes. -/
  node : ∀ i, MaskSound s f b ((s.node i).orders f b)
  /-- Copies in packets. -/
  sent : ∀ packet ∈ s.sent, MaskSound s f b (packet.orders f b)
  /-- Versions in packets. -/
  behind : ∀ packet ∈ s.sent, ∀ j : Fin kElevs, packet.id = j.val →
    (packet.orders f b).version ≤ ((s.node j).orders f b).version

/-- A set bit of a request, the node's own apart, is sound. -/
def SoundApart (s : Cluster kFloors) (f : Fin kFloors) (b : BtnType) (i : Fin kElevs) (o : Order) :
    Prop :=
  o.status = .requested → ∀ e : Fin kElevs, e ≠ i → o.observedBy e = true →
    o.version ≤ ((s.node e).orders f b).version

/-- The passes add no bit but the node's own to a request. -/
theorem soundApart_of_path {s : Cluster kFloors} {f : Fin kFloors} {b : BtnType} {i : Fin kElevs}
    {o o' : Order} (sound : SoundApart s f b i o) (path : HallPath i o o') :
    SoundApart s f b i o' := by
  induction path with
  | refl => exact sound
  | tail _ step ih =>
    cases step with
    | observe requested =>
      intro _ e other bit
      rcases (Order.observedBy_bit (Order.elev_fits e) (Order.elev_fits i) rfl).1 bit with set | own
      · exact ih requested e other ((Order.observedBy_iff (Order.elev_fits e)).2 set)
      · exact absurd (Fin.ext own) other
    | confirm requested e =>
      rw [Order.onConfirm_of_requested _ requested]
      exact nofun
    | reset clear =>
      rw [Order.onReset_of_clear clear]
      exact nofun
    | reassign confirmed e =>
      intro requested
      cases confirmed.symm.trans requested

/-- Merging copies of one version leaves a request only where one copy is requested and the other
is no further. -/
theorem requested_of_merged {own received : OrderStatus}
    (merged : (if own.toNat < received.toNat then received else own) = .requested) :
    own = .requested ∧ received = .requested ∨ own = .requested ∧ received = .none ∨
      own = .none ∧ received = .requested := by
  cases own <;> cases received <;> simp [OrderStatus.toNat] at merged ⊢

/-- A merge without leftover observers keeps the masks of requests sound. -/
theorem soundApart_of_merge {s : Cluster kFloors} {f : Fin kFloors} {b : BtnType} {i : Fin kElevs}
    {o rcv : Order} {sender : Fin kElevs} (own : MaskSound s f b o) (received : MaskSound s f b rcv)
    (behind : rcv.version ≤ ((s.node sender).orders f b).version)
    (freshOwn : ¬ LeftoverObserver o rcv i) (freshReceived : ¬ LeftoverObserver rcv o sender) :
    SoundApart s f b i (o.onUpdate rcv) := by
  rcases lt_trichotomy o.version rcv.version with older | same | newer
  · rw [Order.onUpdate_of_lt older]
    exact fun requested e _ => received requested e
  · intro requested e other bit
    obtain ⟨version, mask⟩ := Order.onUpdate_of_eq same.symm
    rw [version]
    rw [Order.onUpdate_status_of_eq same.symm] at requested
    have either := (Order.observedBy_or (Order.elev_fits e) mask).1 bit
    rcases requested_of_merged requested with ⟨ours, theirs⟩ | ⟨ours, theirs⟩ | ⟨ours, theirs⟩
    · rcases either with set | set
      · exact own ours e set
      · exact same ▸ received theirs e set
    · rcases either with set | set
      · exact own ours e set
      · by_cases named : o.observedBy e = true
        · exact own ours e named
        · by_cases holder : e = sender
          · rw [holder, same]
            exact behind
          · exact absurd ⟨theirs, ours, same.symm, e, holder, set, Bool.eq_false_iff.2 named⟩
              freshReceived
    · rcases either with set | set
      · by_cases named : rcv.observedBy e = true
        · exact same ▸ received theirs e named
        · exact absurd ⟨ours, theirs, same, e, other, set, Bool.eq_false_iff.2 named⟩ freshOwn
      · exact same ▸ received theirs e set
  · rw [Order.onUpdate_of_gt newer]
    exact fun requested e _ => own requested e

/-- A step grown past keeps masks sound. -/
theorem MaskSound.mono {s s' : Cluster kFloors} {f : Fin kFloors} {b : BtnType} {o : Order}
    (sound : MaskSound s f b o)
    (grown : ∀ j, ((s.node j).orders f b).version ≤ ((s'.node j).orders f b).version) :
    MaskSound s' f b o := fun requested e bit => (sound requested e bit).trans (grown e)

/-- One change of a hall order without leftover observers keeps the masks of requests sound. -/
theorem soundApart_of_change {s s' : Cluster kFloors} {action : Action kFloors} {f : Fin kFloors}
    {b : BtnType} {i : Fin kElevs} {o' : Order} (old : MasksSound f b s)
    (grown : ∀ j, ((s.node j).orders f b).version ≤ ((s'.node j).orders f b).version)
    (change : HallChange s i f b ((s.node i).orders f b) action o')
    (fresh : NoLeftoverObserver f b ⟨s, action, s'⟩) : SoundApart s' f b i o' := by
  have own := (old.node i).mono grown
  have ownApart : SoundApart s' f b i ((s.node i).orders f b) :=
    fun requested e _ => own requested e
  cases change with
  | same => exact ownApart
  | request =>
    by_cases open_ : ((s.node i).orders f b).status = .none ∨ ((s.node i).orders f b).status = .clear
    · rw [Order.onRequest_of_open _ open_]
      intro _ e other bit
      rcases (Order.observedBy_bit (Order.elev_fits e) (Order.elev_fits i) rfl).1 bit with set | own
      · simp at set
      · exact absurd (Fin.ext own) other
    · rw [Order.onRequest_of_underway _ open_]
      exact ownApart
  | passes own now path => exact soundApart_of_path ownApart path
  | clear own b2c flag assigned =>
    by_cases confirmed : ((s.node i).orders f b).status = .confirmed
    · rw [Order.onClear_of_confirmed confirmed]
      exact nofun
    · rw [Order.onClear_of_not_confirmed confirmed]
      exact ownApart
  | merge position now sent foreign =>
    rename_i received
    have member := List.mem_of_getElem? sent
    have merges := fresh i position now received rfl sent foreign
    exact soundApart_of_merge own ((old.sent _ member).mono grown)
      ((old.behind _ member _ received.id_eq_sender).trans (grown _)) merges.1 merges.2

/-- A step without leftover observers keeps all masks sound. -/
theorem MasksSound.step {s s' : Cluster kFloors} {action : Action kFloors} {f : Fin kFloors}
    {b : BtnType} (hall : b ≠ .cab) (old : MasksSound f b s) (step : ClusterStep s action s')
    (fresh : NoLeftoverObserver f b ⟨s, action, s'⟩) : MasksSound f b s' := by
  have grown (j : Fin kElevs) :
      ((s.node j).orders f b).version ≤ ((s'.node j).orders f b).version :=
    (hallChange_of_step old.ids step j f hall).version_le
  have apart (i : Fin kElevs) : SoundApart s' f b i ((s'.node i).orders f b) :=
    soundApart_of_change old grown (hallChange_of_step old.ids step i f hall) fresh
  have node (i : Fin kElevs) : MaskSound s' f b ((s'.node i).orders f b) := by
    intro requested e bit
    by_cases self : e = i
    · rw [self]
    · exact apart i requested e self bit
  refine ⟨old.ids.step step, old.published.step old.ids step, node, ?_, ?_⟩
  · intro packet sent
    rcases sent_of_step step sent with earlier | ⟨same, i, rfl⟩
    · exact (old.sent packet earlier).mono grown
    · have sound := node i
      rw [same] at sound
      exact sound
  · intro packet sent j sender
    rcases sent_of_step step sent with earlier | ⟨same, i, rfl⟩
    · exact (old.behind packet earlier j sender).trans (grown j)
    · have node : (s.node i).nodeId = i := old.ids i
      have id : ((s.node i).allStates i).id = j.val := by
        simpa only [Peers.txPacketCopy, NetworkPacket.init, node] using sender
      rcases old.published i with default | own
      · omega
      · have : i = j := Fin.ext (by omega)
        subst this
        rw [same]
        exact le_rfl

/-- No order of the initial cluster is requested, and no packet is sent. -/
theorem masksSound_initial {f : Fin kFloors} {b : BtnType} : MasksSound f b Cluster.initial :=
  ⟨Cluster.identified_initial, fun _ => .inl rfl, fun _ => nofun,
    fun _ sent => absurd sent List.not_mem_nil, fun _ sent => absurd sent List.not_mem_nil⟩

/-- All masks are sound after a run without leftover observers. -/
theorem masksSound_of_run {f : Fin kFloors} {b : BtnType} (hall : b ≠ .cab)
    {trace : List (Transition (Cluster kFloors) (Action kFloors))} {s : Cluster kFloors}
    (run : Run ClusterStep Cluster.initial trace s)
    (fresh : ∀ t ∈ trace, NoLeftoverObserver f b t) : MasksSound f b s :=
  run.invariant_of_admitted (NoLeftoverObserver f b) (MasksSound f b)
    (fun step admitted old => old.step hall step admitted) fresh masksSound_initial

/-- A confirmation with sound masks is of a request every elevator in the view has received. -/
theorem received_of_confirms {s s' : Cluster kFloors} {action : Action kFloors} {i : Fin kElevs}
    {f : Fin kFloors} {b : BtnType} (hall : b ≠ .cab) (sound : MasksSound f b s)
    (step : ClusterStep s action s') (confirms : ConfirmsAt i f b ⟨s, action, s'⟩) {e : Fin kElevs}
    (active : ((s'.node i).allStates e).active = true) :
    ((s.node i).orders f b).version ≤ ((s.node e).orders f b).version := by
  obtain ⟨own, now, label, requested, confirmed⟩ := confirms
  dsimp only at label requested confirmed
  subst label
  rcases clusterStep_cases step with ⟨_, _, label, _⟩ | ⟨_, _, _, p, label, _, stepped, rfl⟩ |
    ⟨_, _, _, _, label, _⟩ | ⟨_, label, _⟩ | ⟨_, _, _, _, label, _⟩
  · cases label
  · obtain ⟨rfl, rfl, rfl⟩ := Action.step.inj label
    rw [Cluster.setNode_node_self] at active confirmed
    rcases Peers.observed_of_step_confirms stepped hall requested confirmed active with seen | self
    · exact sound.node i requested e seen
    · have : e = i := self.trans (sound.ids i)
      rw [this]
  · cases label
  · cases label
  · cases label

/-- The observation mask is sound as long as no leftover mask enters a request by a delivery: a
bit of a requested order says that the elevator has reached the version of the request, and an
order is confirmed only when every elevator active in the confirming node's view has. -/
theorem observation_mask_sound {f : Fin kFloors} {b : BtnType} (hall : b ≠ .cab)
    {trace : List (Transition (Cluster kFloors) (Action kFloors))} {s : Cluster kFloors}
    (run : Run ClusterStep Cluster.initial trace s)
    (fresh : ∀ t ∈ trace, NoLeftoverObserver f b t) :
    (∀ i e : Fin kElevs, ((s.node i).orders f b).status = .requested →
      ((s.node i).orders f b).observedBy e = true →
      ((s.node i).orders f b).version ≤ ((s.node e).orders f b).version) ∧
    ∀ t ∈ trace, ∀ i, ConfirmsAt i f b t → ∀ e : Fin kElevs,
      ((t.post.node i).allStates e).active = true →
      ((t.pre.node i).orders f b).version ≤ ((t.pre.node e).orders f b).version := by
  have sound := masksSound_of_run hall run fresh
  refine ⟨fun i e requested bit => sound.node i requested e bit, ?_⟩
  refine run.forall_transitions (NoLeftoverObserver f b) _ (MasksSound f b) ?_ fresh
    masksSound_initial
  intro s action s' step admitted old
  exact ⟨old.step hall step admitted, fun i confirms e active =>
    received_of_confirms hall old step confirms active⟩

/-- A node that hears of a request has not observed it before the node that made it. -/
theorem observation_mask_sound_delivery :
    ∃ (trace : List (Transition (Cluster Config.kFloors) (Action Config.kFloors)))
      (s : Cluster Config.kFloors), Run ClusterStep Cluster.initial trace s ∧
      (∀ t ∈ trace, NoLeftoverObserver 0 .hallUp t) ∧
      ((s.node 2).orders 0 .hallUp).status = .requested ∧
      ((s.node 2).orders 0 .hallUp).observedBy (0 : Fin kElevs) = true ∧
      ((s.node 2).orders 0 .hallUp).version ≤ ((s.node 0).orders 0 .hallUp).version := by
  have passed : (Cluster.initial.execAll
      [.step 0 (.idleAt 0 0) (.still 0), .press 0 (.only 0 .hallUp), .transmit 0]).any
      (fun s : Cluster Config.kFloors =>
        decide (((s.node 2).orders 0 .hallUp).version = 0) &&
        decide (∀ packet ∈ s.sent, (packet.orders 0 .hallUp).version = 1) &&
        (s.exec (.receive 2 0 0)).any fun s' =>
          decide (((s'.node 2).orders 0 .hallUp).status = .requested) &&
          ((s'.node 2).orders 0 .hallUp).observedBy (0 : Fin kElevs)) = true := by
    decide +kernel
  obtain ⟨trace, s, run, labels, passed⟩ := Run.of_check ClusterStep id passed
  simp only [Bool.and_eq_true, decide_eq_true_eq] at passed
  obtain ⟨⟨unaware, sent⟩, passed⟩ := passed
  obtain ⟨s', step, passed⟩ := (Option.any_eq_true _ _).1 passed
  simp only [Bool.and_eq_true, decide_eq_true_eq] at passed
  obtain ⟨requested, bit⟩ := passed
  have extended : Run ClusterStep _ _ s' := .snoc run step
  have fresh : ∀ t ∈ trace ++ [⟨s, .receive 2 0 0, s'⟩],
      NoLeftoverObserver (0 : Fin Config.kFloors) .hallUp t := by
    intro t member i position now received label delivered _
    rcases List.mem_append.1 member with earlier | last
    · have listed := List.mem_map_of_mem (f := Transition.action) earlier
      simp [labels, label] at listed
    · obtain rfl := List.mem_singleton.1 last
      cases label
      have one := sent _ (List.mem_of_getElem? delivered)
      constructor
      · rintro ⟨_, _, same, _⟩
        simp only [unaware] at same
        omega
      · rintro ⟨_, _, same, _⟩
        simp only [unaware] at same
        omega
  exact ⟨_, s', extended, fresh, requested, bit,
    (observation_mask_sound (by decide) extended fresh).1 2 0 requested bit⟩

/-- Nodes 0 and 2 serve a call together, node 1 resets it, and the call is made anew at node 0
before node 2 has heard of the end of the first one. -/
def repeatedCall : List (Action Config.kFloors) :=
  [.step 0 (.idleAt 0 0) (.still 0), .press 0 (.only 0 .hallUp), .transmit 0, .receive 2 0 0,
    .step 2 (.idleAt 2 0) (.still 0), .transmit 2, .receive 0 1 0, .clear 0 (.idleAt 0 0) 0 (fun _ => true),
    .transmit 0, .receive 1 2 0, .step 1 (.idleAt 1 0) (.still 0), .transmit 1,
    .press 0 (.only 0 .hallUp), .receive 0 3 0]

/-- The mask of the finished call enters the new one: node 0 takes node 2 for an observer. -/
theorem observation_mask_unsound :
    ∃ (trace : List (Transition (Cluster Config.kFloors) (Action Config.kFloors)))
      (s : Cluster Config.kFloors), Run ClusterStep Cluster.initial trace s ∧
      ((s.node 0).orders 0 .hallUp).status = .requested ∧
      ((s.node 0).orders 0 .hallUp).observedBy (2 : Fin kElevs) = true ∧
      ((s.node 2).orders 0 .hallUp).version < ((s.node 0).orders 0 .hallUp).version := by
  have passed : (Cluster.initial.execAll repeatedCall).any (fun s =>
      decide (((s.node 0).orders 0 .hallUp).status = .requested ∧
        ((s.node 0).orders 0 .hallUp).observedBy (2 : Fin kElevs) = true ∧
        ((s.node 2).orders 0 .hallUp).version < ((s.node 0).orders 0 .hallUp).version)) = true := by
    decide +kernel
  obtain ⟨trace, s, run, -, unsound⟩ := Run.of_check ClusterStep id passed
  rw [decide_eq_true_eq] at unsound
  exact ⟨trace, s, run, unsound⟩

end CppElevator
