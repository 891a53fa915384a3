import CppElevator.Verif.ClusterCells

/-!
# How a confirmed hall order can end

Every cleared or reset copy of a hall order descends from a `ClearOrders` that took effect, and
carries at least the version that clearing produced. A confirmed order is therefore given up
only for a clearing whose version is not below its own confirmation. That clearing need not
come later in time: a node the order was confirmed without may have run ahead in versions.
-/
namespace CppElevator

open Library

variable {kFloors : Nat}

/-- A step in which an elevator's `ClearOrders` clears the order of a hall cell, to version `v`. -/
def ClearsAt (f : Fin kFloors) (b : BtnType) (v : Nat)
    (t : Transition (Cluster kFloors) (Action kFloors)) : Prop :=
  ∃ i own b2c, t.action = .clear i own f b2c ∧ b2c b = true ∧
    ((t.pre.node i).orders f b).status = .confirmed ∧
    ((t.pre.node i).orders f b).assignedId = i.val ∧ v = ((t.pre.node i).orders f b).version + 1

/-- A cleared order has the version of a clearing, a reset one the version after it; only the
default order is `None` without one. -/
structure Explained (f : Fin kFloors) (b : BtnType)
    (trace : List (Transition (Cluster kFloors) (Action kFloors))) (o : Order) : Prop where
  /-- Cleared copies. -/
  clear : o.status = .clear → ∃ t ∈ trace, ClearsAt f b o.version t
  /-- Reset copies. -/
  none : o.status = .none → o.version = 0 ∨ ∃ t ∈ trace, ∃ v, ClearsAt f b v t ∧ o.version = v + 1

namespace Explained

variable {f : Fin kFloors} {b : BtnType}
  {trace : List (Transition (Cluster kFloors) (Action kFloors))} {o o' : Order}

/-- An explanation survives further steps. -/
theorem extend (old : Explained f b trace o)
    (later : List (Transition (Cluster kFloors) (Action kFloors))) :
    Explained f b (trace ++ later) o where
  clear status := by
    obtain ⟨t, member, clears⟩ := old.clear status
    exact ⟨t, List.mem_append_left _ member, clears⟩
  none status := by
    rcases old.none status with default | ⟨t, member, clears⟩
    · exact .inl default
    · exact .inr ⟨t, List.mem_append_left _ member, clears⟩

/-- An order under way needs no explanation. -/
theorem of_underway (clear : o.status ≠ .clear) (none : o.status ≠ .none) :
    Explained f b trace o := ⟨fun h => absurd h clear, fun h => absurd h none⟩

/-- Merging explained copies gives an explained order. -/
theorem onUpdate {rcv : Order} (own : Explained f b trace o) (received : Explained f b trace rcv) :
    Explained f b trace (o.onUpdate rcv) := by
  rcases o.onUpdate_status_version rcv with ⟨status, version⟩ | ⟨status, version⟩
  · exact ⟨by rw [status, version]; exact own.clear, by rw [status, version]; exact own.none⟩
  · exact ⟨by rw [status, version]; exact received.clear,
      by rw [status, version]; exact received.none⟩

/-- Requests need no explanation. -/
theorem onRequest (old : Explained f b trace o) (n : Nat) :
    Explained f b trace (o.onRequest n) := by
  by_cases open_ : o.status = .none ∨ o.status = .clear
  · rw [Order.onRequest_of_open n open_]
    exact of_underway nofun nofun
  · rw [Order.onRequest_of_underway n open_]
    exact old

/-- The passes keep orders explained: a reset follows the clearing it resets. -/
theorem hallStep {n : Fin kElevs} (old : Explained f b trace o) (step : HallStep n o o') :
    Explained f b trace o' := by
  cases step with
  | observe requested =>
    refine of_underway ?_ ?_ <;> simp [Order.observe, requested]
  | confirm requested e =>
    rw [Order.onConfirm_of_requested _ requested]
    exact of_underway nofun nofun
  | reset clear =>
    rw [Order.onReset_of_clear clear]
    obtain ⟨t, member, clears⟩ := old.clear clear
    exact ⟨nofun, fun _ => .inr ⟨t, member, _, clears, rfl⟩⟩
  | reassign confirmed e =>
    refine of_underway ?_ ?_ <;> simp [Order.onReassignment, confirmed]

/-- Any number of transitions of the passes keeps orders explained. -/
theorem hallPath {n : Fin kElevs} (old : Explained f b trace o) (path : HallPath n o o') :
    Explained f b trace o' := by
  induction path with
  | refl => exact old
  | tail _ step ih => exact ih.hallStep step

end Explained

/-- Every copy of a hall order, at a node or in a packet, is explained by the clearings so far. -/
structure AllExplained (f : Fin kFloors) (b : BtnType)
    (trace : List (Transition (Cluster kFloors) (Action kFloors))) (s : Cluster kFloors) : Prop where
  /-- Identities of the nodes. -/
  ids : s.Identified
  /-- Copies at the nodes. -/
  node : ∀ i, Explained f b trace ((s.node i).orders f b)
  /-- Copies in packets. -/
  sent : ∀ packet ∈ s.sent, Explained f b trace (packet.orders f b)

/-- One change of a hall order keeps it explained, a clearing by the step itself included. -/
theorem explained_of_change {s s' : Cluster kFloors} {action : Action kFloors} {f : Fin kFloors}
    {b : BtnType} {trace : List (Transition (Cluster kFloors) (Action kFloors))}
    (old : AllExplained f b trace s) {i : Fin kElevs} {o' : Order}
    (change : HallChange s i f b ((s.node i).orders f b) action o') :
    Explained f b (trace ++ [⟨s, action, s'⟩]) o' := by
  have kept := (old.node i).extend [⟨s, action, s'⟩]
  cases change with
  | same => exact kept
  | request => exact kept.onRequest i
  | passes own now path => exact kept.hallPath path
  | clear own b2c flag assigned =>
    by_cases confirmed : ((s.node i).orders f b).status = .confirmed
    · rw [Order.onClear_of_confirmed confirmed]
      refine ⟨fun _ => ⟨⟨s, .clear i own f b2c, s'⟩, by simp, ?_⟩, nofun⟩
      exact ⟨i, own, b2c, rfl, flag, confirmed, assigned, rfl⟩
    · rw [Order.onClear_of_not_confirmed confirmed]
      exact kept
  | merge position now sent _ =>
    exact kept.onUpdate ((old.sent _ (List.mem_of_getElem? sent)).extend _)

/-- Every copy is explained after every run from the default state. -/
theorem allExplained_of_run {f : Fin kFloors} {b : BtnType} (hall : b ≠ .cab)
    {trace : List (Transition (Cluster kFloors) (Action kFloors))} {s : Cluster kFloors}
    (run : Run ClusterStep Cluster.initial trace s) : AllExplained f b trace s := by
  induction run with
  | nil =>
    exact ⟨Cluster.identified_initial, fun _ => ⟨nofun, fun _ => .inl rfl⟩,
      fun _ sent => absurd sent List.not_mem_nil⟩
  | snoc _ step old =>
    refine ⟨old.ids.step step, fun i => ?_, fun packet sent => ?_⟩
    · exact explained_of_change old (hallChange_of_step old.ids step i f hall)
    · rcases sent_of_step step sent with earlier | ⟨_, i, rfl⟩
      · exact (old.sent packet earlier).extend _
      · exact (old.node i).extend _

/-- The order is at the confirmation of version `v` or past it. -/
def KeptFrom (v : Nat) (o : Order) : Prop :=
  v < o.version ∨ o.version = v ∧ OrderStatus.confirmed.toNat ≤ o.status.toNat

/-- One transition of the passes stays past a confirmation. -/
theorem KeptFrom.hallStep {v : Nat} {n : Fin kElevs} {o o' : Order} (kept : KeptFrom v o)
    (step : HallStep n o o') : KeptFrom v o' := by
  have past : v ≤ o.version := by rcases kept with h | h <;> omega
  cases step with
  | observe requested =>
    rcases kept with newer | ⟨_, status⟩
    · exact .inl newer
    · simp [requested, OrderStatus.toNat] at status
  | confirm requested e =>
    rw [Order.onConfirm_of_requested _ requested]
    exact .inl (Nat.lt_succ_of_le past)
  | reset clear =>
    rw [Order.onReset_of_clear clear]
    exact .inl (Nat.lt_succ_of_le past)
  | reassign confirmed e => exact .inl (Nat.lt_succ_of_le past)

/-- No step takes a copy back before a confirmation. -/
theorem KeptFrom.change {v : Nat} {s : Cluster kFloors} {action : Action kFloors} {i : Fin kElevs}
    {f : Fin kFloors} {b : BtnType} {o o' : Order} (kept : KeptFrom v o)
    (change : HallChange s i f b o action o') : KeptFrom v o' := by
  have past : v ≤ o.version := by rcases kept with h | h <;> omega
  cases change with
  | same => exact kept
  | request =>
    by_cases open_ : o.status = .none ∨ o.status = .clear
    · rw [Order.onRequest_of_open _ open_]
      exact .inl (Nat.lt_succ_of_le past)
    · rw [Order.onRequest_of_underway _ open_]
      exact kept
  | passes own now path =>
    clear past
    induction path with
    | refl => exact kept
    | tail _ step ih => exact ih.hallStep step
  | clear own b2c flag assigned =>
    by_cases confirmed : o.status = .confirmed
    · rw [Order.onClear_of_confirmed confirmed]
      exact .inl (Nat.lt_succ_of_le past)
    · rw [Order.onClear_of_not_confirmed confirmed]
      exact kept
  | merge position now sent foreign =>
    rename_i received
    rcases (o.version_le_onUpdate (received.orders f b)).lt_or_eq with grown | level
    · exact .inl (past.trans_lt grown)
    · rcases kept with newer | ⟨version, status⟩
      · exact .inl (level ▸ newer)
      · refine .inr ⟨level ▸ version, ?_⟩
        have reached := o.rcv_version_le_onUpdate (received.orders f b)
        rw [← level] at reached
        rcases reached.lt_or_eq with stale | same
        · rw [Order.onUpdate_of_gt stale]
          exact status
        · rw [Order.onUpdate_status_of_eq same]
          split_ifs with raised
          · exact status.trans raised.le
          · exact status

/-- A requested order that the passes leave confirmed is past its confirmation. -/
theorem keptFrom_of_path {n : Fin kElevs} {o o' : Order} (requested : o.status = .requested)
    (path : HallPath n o o') (confirmed : o'.status = .confirmed) : KeptFrom (o.version + 1) o' := by
  have split : (o'.status = .requested ∧ o'.version = o.version) ∨ KeptFrom (o.version + 1) o' := by
    clear confirmed
    induction path with
    | refl => exact .inl ⟨requested, rfl⟩
    | tail _ step ih =>
      rcases ih with ⟨status, version⟩ | kept
      · cases step with
        | observe _ => exact .inl ⟨status, version⟩
        | confirm _ e =>
          rw [Order.onConfirm_of_requested _ status]
          exact .inr (.inr ⟨by simp [version], le_rfl⟩)
        | reset clear => simp [status] at clear
        | reassign confirmed e => simp [status] at confirmed
      · exact .inr (kept.hallStep step)
  rcases split with ⟨status, _⟩ | kept
  · simp [status] at confirmed
  · exact kept

/-- A copy past a confirmation stays past it along every run. -/
theorem keptFrom_of_run {i : Fin kElevs} {f : Fin kFloors} {b : BtnType} (hall : b ≠ .cab) {v : Nat}
    {trace : List (Transition (Cluster kFloors) (Action kFloors))} {s s' : Cluster kFloors}
    (run : Run ClusterStep s trace s') (ids : s.Identified)
    (kept : KeptFrom v ((s.node i).orders f b)) : KeptFrom v ((s'.node i).orders f b) :=
  (run.invariant (fun s => s.Identified ∧ KeptFrom v ((s.node i).orders f b))
    (fun step inv => ⟨inv.1.step step, inv.2.change (hallChange_of_step inv.1 step i f hall)⟩)
    ⟨ids, kept⟩).2

/-- A confirmed hall order ends only with a clearing that is not older. Once the passes of node
`i` confirm an order, its copy at `i` stays requested or confirmed until some `ClearOrders` has
cleared the order to at least the version of the confirmation. -/
theorem confirmed_hall_order_kept {i : Fin kElevs} {f : Fin kFloors} {b : BtnType} (hall : b ≠ .cab)
    {before after : List (Transition (Cluster kFloors) (Action kFloors))}
    {s s' s'' : Cluster kFloors} {action : Action kFloors}
    (reached : Run ClusterStep Cluster.initial before s) (step : ClusterStep s action s')
    (confirms : ConfirmsAt i f b ⟨s, action, s'⟩) (continued : Run ClusterStep s' after s'') :
    ((s''.node i).orders f b).status = .requested ∨
    ((s''.node i).orders f b).status = .confirmed ∨
    ∃ t ∈ before ++ after, ∃ v, ClearsAt f b v t ∧ ((s.node i).orders f b).version + 1 ≤ v := by
  obtain ⟨own, now, rfl, requested, confirmed⟩ := confirms
  have old := allExplained_of_run (f := f) hall reached
  have kept : KeptFrom (((s.node i).orders f b).version + 1) ((s'.node i).orders f b) := by
    have change := hallChange_of_step old.ids step i f hall
    generalize (s'.node i).orders f b = o' at change confirmed
    cases change with
    | same => cases requested.symm.trans confirmed
    | passes own now path => exact keptFrom_of_path requested path confirmed
  have final := keptFrom_of_run hall continued (old.ids.step step) kept
  have explained := (allExplained_of_run (f := f) hall ((Run.snoc reached step).append continued)).node i
  -- the confirming step is no clearing, so the explaining one is before or after it
  have elsewhere {t : Transition (Cluster kFloors) (Action kFloors)} {v : Nat}
      (member : t ∈ before ++ [⟨s, .step i own now, s'⟩] ++ after) (clears : ClearsAt f b v t) :
      t ∈ before ++ after := by
    simp only [List.mem_append, List.mem_singleton] at member ⊢
    rcases member with (earlier | rfl) | later
    · exact .inl earlier
    · obtain ⟨_, _, _, label, _⟩ := clears
      simp at label
    · exact .inr later
  cases status : ((s''.node i).orders f b).status with
  | requested => exact .inl rfl
  | confirmed => exact .inr (.inl rfl)
  | clear =>
    obtain ⟨t, member, clears⟩ := explained.clear status
    refine .inr (.inr ⟨t, elsewhere member clears, _, clears, ?_⟩)
    rcases final with newer | ⟨same, _⟩
    · exact newer.le
    · exact same.ge
  | none =>
    rcases final with newer | ⟨_, raised⟩
    · rcases explained.none status with default | ⟨t, member, v, clears, version⟩
      · omega
      · exact .inr (.inr ⟨t, elsewhere member clears, v, clears, by omega⟩)
    · simp [status, OrderStatus.toNat] at raised

/-- Node 0 serves a call alone, then node 1 takes the same call, not having heard of it. -/
def lonelyService : List (Action Config.kFloors) :=
  [.press 0 (.only 0 .hallUp), .step 0 (.idleAt 0 0) (.still 0), .clear 0 (.idleAt 0 0) 0 (fun _ => true),
    .step 0 (.idleAt 0 0) (.still 40), .transmit 0, .press 1 (.only 0 .hallUp)]

/-- Node 1 confirms its call and then hears of the earlier one. -/
theorem lonelyService_run :
    ∃ (before after : List (Transition (Cluster Config.kFloors) (Action Config.kFloors)))
      (s s' s'' : Cluster Config.kFloors),
      Run ClusterStep Cluster.initial before s ∧ ClusterStep s (.step 1 (.idleAt 1 0) (.still 50)) s' ∧
      ConfirmsAt 1 0 .hallUp ⟨s, .step 1 (.idleAt 1 0) (.still 50), s'⟩ ∧ Run ClusterStep s' after s'' ∧
      after.map Transition.action = [.receive 1 0 60] ∧
      ((s''.node 1).orders 0 .hallUp).status = .none := by
  have passed : (Cluster.initial.execAll lonelyService).any (fun s =>
      decide (((s.node 1).orders 0 .hallUp).status = .requested) &&
      (s.exec (.step 1 (.idleAt 1 0) (.still 50))).any fun s' =>
        decide (((s'.node 1).orders 0 .hallUp).status = .confirmed) &&
        (s'.execAll [.receive 1 0 60]).any fun s'' =>
          decide (((s''.node 1).orders 0 .hallUp).status = .none)) = true := by
    decide +kernel
  obtain ⟨before, s, reached, -, passed⟩ := Run.of_check ClusterStep id passed
  simp only [Bool.and_eq_true, decide_eq_true_eq] at passed
  obtain ⟨requested, passed⟩ := passed
  obtain ⟨s', step, passed⟩ := (Option.any_eq_true _ _).1 passed
  simp only [Bool.and_eq_true, decide_eq_true_eq] at passed
  obtain ⟨confirmed, passed⟩ := passed
  obtain ⟨after, s'', continued, labels, lost⟩ := Run.of_check ClusterStep id passed
  exact ⟨before, after, s, s', s'', reached, step, ⟨_, _, rfl, requested, confirmed⟩, continued,
    labels, of_decide_eq_true lost⟩

/-- A confirmed order is lost with no clearing after its confirmation. -/
theorem confirmed_hall_order_lost :
    ∃ (before after : List (Transition (Cluster Config.kFloors) (Action Config.kFloors)))
      (s s' s'' : Cluster Config.kFloors) (action : Action Config.kFloors),
      Run ClusterStep Cluster.initial before s ∧ ClusterStep s action s' ∧
      ConfirmsAt 1 0 .hallUp ⟨s, action, s'⟩ ∧ Run ClusterStep s' after s'' ∧
      ((s''.node 1).orders 0 .hallUp).status = .none ∧
      ∀ t ∈ after, ∀ v, ¬ ClearsAt 0 .hallUp v t := by
  obtain ⟨before, after, s, s', s'', reached, step, confirms, continued, labels, lost⟩ :=
    lonelyService_run
  refine ⟨before, after, s, s', s'', _, reached, step, confirms, continued, lost, ?_⟩
  rintro t member v ⟨_, _, _, label, _⟩
  have listed := List.mem_map_of_mem (f := Transition.action) member
  simp [labels, label] at listed

/-- The lost order was given up for the earlier clearing at node 0. -/
theorem confirmed_hall_order_lost_to_clearing :
    ∃ (before after : List (Transition (Cluster Config.kFloors) (Action Config.kFloors)))
      (s s' s'' : Cluster Config.kFloors) (action : Action Config.kFloors),
      Run ClusterStep Cluster.initial before s ∧ ClusterStep s action s' ∧
      ConfirmsAt 1 0 .hallUp ⟨s, action, s'⟩ ∧ Run ClusterStep s' after s'' ∧
      ((s''.node 1).orders 0 .hallUp).status = .none ∧
      ∃ t ∈ before ++ after, ∃ v, ClearsAt 0 .hallUp v t ∧
        ((s.node 1).orders 0 .hallUp).version + 1 ≤ v := by
  obtain ⟨before, after, s, s', s'', reached, step, confirms, continued, -, lost⟩ :=
    lonelyService_run
  refine ⟨before, after, s, s', s'', _, reached, step, confirms, continued, lost, ?_⟩
  rcases confirmed_hall_order_kept (by decide) reached step confirms continued with
    requested | confirmed | cleared
  · simp [lost] at requested
  · simp [lost] at confirmed
  · exact cleared

end CppElevator
