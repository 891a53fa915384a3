import CppElevator.Verif.OrderGrowth

/-!
# A hall call is somebody's press

A hall order is called while it is requested or confirmed. Passes and merges neither make a call nor
end one, a clearing ends it, and only a press makes it. So a call that any node or packet of a fleet
carries goes back to a press of its button, and once every node has seen it served, nothing old that is
still under way brings it back.
-/
namespace CppElevator

open Library Peers

variable {kFloors : Nat}

namespace Order

/-- The order is requested, or confirmed and not served yet. -/
def Called (o : Order) : Prop := o.status = .requested ∨ o.status = .confirmed

instance : DecidablePred Called := fun o =>
  inferInstanceAs (Decidable (o.status = .requested ∨ o.status = .confirmed))

/-- A pass neither makes a call nor ends one. -/
theorem called_hallStep {n : Fin kElevs} {o o' : Order} (step : HallStep n o o') :
    o'.Called ↔ o.Called := by
  cases step with
  | observe requested => exact Iff.rfl
  | confirm requested e => simp [Called, onConfirm, requested]
  | reset clear => simp [Called, onReset, clear]
  | reassign confirmed e => exact Iff.rfl

/-- Nor does any number of them. -/
theorem called_path {n : Fin kElevs} {o o' : Order} (path : HallPath n o o') :
    o'.Called ↔ o.Called := by
  induction path with
  | refl => exact Iff.rfl
  | tail _ step ih => exact (called_hallStep step).trans ih

/-- A press leaves the order called. -/
theorem called_onRequest (o : Order) (e : Nat) : (o.onRequest e).Called := by
  unfold onRequest
  split_ifs with fresh
  · exact .inl rfl
  · unfold Called
    cases status : o.status <;> simp_all

/-- A clearing makes no call. -/
theorem called_of_onClear {o : Order} (called : o.onClear.Called) : o.Called := by
  unfold onClear at called
  split_ifs at called with confirmed
  · exact .inr confirmed
  · exact called

/-- A merge takes a call over from a copy that is at least as new, or keeps it. -/
theorem called_of_onUpdate {o rcv : Order} (called : (o.onUpdate rcv).Called) :
    o.Called ∨ rcv.Called ∧ o.version ≤ rcv.version := by
  unfold onUpdate at called
  split_ifs at called with newer same later tie
  · exact .inr ⟨called, newer.le⟩
  · exact .inr ⟨called, same.ge⟩
  · exact .inl called
  · exact .inl called
  · exact .inl called

/-- Nothing a copy of the order tells is news once version `v` is known, if it is called. -/
def Stale (v : Nat) (o : Order) : Prop := o.Called → o.version < v

/-- The order is not called, and at version `v` or later. -/
structure Served (v : Nat) (o : Order) : Prop where
  /-- Neither requested nor confirmed. -/
  ended : ¬o.Called
  /-- No older than that. -/
  version : v ≤ o.version

variable {v : Nat} {o o' : Order}

/-- What a node that has seen the call served sends tells of no call. -/
theorem Served.stale (served : o.Served v) : o.Stale v := fun called => absurd called served.ended

/-- The passes. -/
theorem Served.path {n : Fin kElevs} (served : o.Served v) (path : HallPath n o o') : o'.Served v := by
  have ended : ¬o'.Called := fun called => served.ended ((called_path path).1 called)
  have version : o.version ≤ o'.version := version_le_of_knowledge_le (knowledge_le_of_path path)
  exact ⟨ended, served.version.trans version⟩

/-- A clearing. -/
theorem Served.clear (served : o.Served v) : o.onClear.Served v := by
  refine ⟨fun called => served.ended (called_of_onClear called), served.version.trans ?_⟩
  exact version_le_of_knowledge_le (o.knowledge_le_apply .onClear)

/-- A merge with a stale copy. -/
theorem Served.update {rcv : Order} (served : o.Served v) (stale : rcv.Stale v) :
    (o.onUpdate rcv).Served v := by
  refine ⟨fun called => ?_, served.version.trans ?_⟩
  · rcases called_of_onUpdate called with kept | ⟨taken, newer⟩
    · exact served.ended kept
    · have older := stale taken
      have known := served.version
      omega
  · exact o.version_le_onUpdate rcv

end Order

namespace ElevatorNode

variable {s s' : ElevatorNode kFloors} {b : BtnType}

/-- The locked section of a step requests a hall order whose button it finds newly pressed, then the
passes change it. -/
theorem order_of_sync {now : StepClock kFloors} {signals : Signals kFloors}
    (done : s.sync now signals = some s') (f : Fin kFloors) (hall : b ≠ .cab) : HallPath s.peers.nodeId
      (if pressed (signals.buttons f b) (s.drive.elev.orderButtons f b) = true then
        (s.peers.orders f b).onRequest s.peers.nodeId else s.peers.orders f b)
      (s'.peers.orders f b) := by
  rw [sync_eq] at done
  obtain ⟨peers, stepped, rfl⟩ := Option.map_eq_some_iff.1 done
  have path := (advances_step stepped).hall f b hall
  have asked : (s.synced signals).peers.orders f b =
      if pressed (signals.buttons f b) (s.drive.elev.orderButtons f b) = true then
        (s.peers.orders f b).onRequest s.peers.nodeId else s.peers.orders f b := by
    change (s.peers.syncButtonSignals _).orders f b = _
    simp only [syncButtonSignals, if_neg hall]
    rfl
  rw [← asked]
  exact path

/-- One that finds it newly pressed leaves the order called. -/
theorem called_of_sync {now : StepClock kFloors} {signals : Signals kFloors}
    (done : s.sync now signals = some s') {f : Fin kFloors} (hall : b ≠ .cab)
    (new : pressed (signals.buttons f b) (s.drive.elev.orderButtons f b) = true) :
    (s'.peers.orders f b).Called := by
  have path := order_of_sync done f hall
  rw [if_pos new] at path
  exact (Order.called_path path).2 (Order.called_onRequest _ _)

/-- A button that is held down at a launch is found newly pressed, and a released one is not. -/
theorem pressed_init (i : Fin kElevs) (initial signals : Signals kFloors) (f : Fin kFloors) :
    pressed (signals.buttons f b) ((init i initial).drive.elev.orderButtons f b) = true ↔
      signals.buttons f b = true := by
  have released : (init i initial).drive.elev.orderButtons f b = false := rfl
  simp [pressed, released]

/-- An event clears a hall order or leaves it alone. -/
theorem order_of_handleEvent {now : Nat} {floorSensor : Int}
    (done : s.handleEvent now floorSensor = some s') (f : Fin kFloors) (hall : b ≠ .cab) :
    s'.peers.orders f b = s.peers.orders f b ∨
      s'.peers.orders f b = (s.peers.orders f b).onClear := by
  unfold handleEvent at done
  dsimp only at done
  cases next : (nextEvent s.drive now).2 with
  | none =>
    rw [next] at done
    obtain rfl := Option.some.inj done
    exact .inl rfl
  | some event =>
    rw [next] at done
    obtain ⟨peers, cleared, rfl⟩ := Option.map_eq_some_iff.1 done
    unfold clearServed at cleared
    split_ifs at cleared
    · rw [← Option.some.inj cleared]
      exact .inl rfl
    · rw [← Option.some.inj cleared]
      simp only [copyOwnState, clearOrders, if_neg hall]
      split_ifs
      · exact .inr rfl
      · exact .inl rfl
      · exact .inl rfl

end ElevatorNode

namespace Fleet

variable {s s' : Fleet kFloors} {f : Fin kFloors} {b : BtnType} {v : Nat}

/-- A locked section finds the button of an order newly pressed. A launch starts from buttons that
were not. -/
def Presses (f : Fin kFloors) (b : BtnType) (s : Fleet kFloors) : FleetRestartAction kFloors → Prop
  | .run (.sync i _ signals) =>
    pressed (signals.buttons f b) ((s.node i).drive.elev.orderButtons f b) = true
  | .run _ => False
  | .restart _ _ first => first.signals.buttons f b = true

/-- Every node has seen a call served, at version `v` or later, and no packet tells of a call that
recent. -/
structure CallServed (f : Fin kFloors) (b : BtnType) (v : Nat) (s : Fleet kFloors) : Prop where
  /-- The nodes. -/
  node : ∀ i, (s.order i f b).Served v
  /-- The packets, old ones included. -/
  sent : ∀ packet ∈ s.sent, (packet.orders f b).Stale v

/-- A node is replaced by one that has seen the call served, too. -/
theorem CallServed.setNode (served : s.CallServed f b v) {i : Fin kElevs} {n : ElevatorNode kFloors}
    (new : (n.peers.orders f b).Served v) : (s.setNode i n).CallServed f b v := by
  refine ⟨fun j => ?_, served.sent⟩
  unfold order
  by_cases here : j = i
  · subst here
    rwa [setNode_node_self]
  · rw [setNode_node_of_ne s n here]
    exact served.node j

/-- The locked section of a step without a press. -/
theorem served_of_sync {n n' : ElevatorNode kFloors} {now : StepClock kFloors} {signals : Signals kFloors}
    (done : n.sync now signals = some n') (hall : b ≠ .cab)
    (unpressed : ¬pressed (signals.buttons f b) (n.drive.elev.orderButtons f b) = true)
    (served : (n.peers.orders f b).Served v) : (n'.peers.orders f b).Served v := by
  have path := n.order_of_sync done f hall
  rw [if_neg unpressed] at path
  exact served.path path

/-- An event. -/
theorem served_of_handleEvent {n n' : ElevatorNode kFloors} {now : Nat} {floorSensor : Int}
    (done : n.handleEvent now floorSensor = some n') (hall : b ≠ .cab)
    (served : (n.peers.orders f b).Served v) : (n'.peers.orders f b).Served v := by
  rcases n.order_of_handleEvent done f hall with same | cleared
  · rwa [same]
  · rw [cleared]
    exact served.clear

/-- A step without a press brings no call back that every node has seen served. A launch forgets what was
seen, so it must find nothing under way that tells of a call. -/
theorem CallServed.step {action : FleetRestartAction kFloors} (served : s.CallServed f b v)
    (step : FleetRestartStep s action s') (hall : b ≠ .cab) (unpressed : ¬Presses f b s action)
    (kept : v = 0 ∨ ∀ j, ¬Relaunches j action) : s'.CallServed f b v := by
  cases action with
  | run action =>
    cases action with
    | sync i now signals =>
      obtain ⟨n, done, rfl⟩ := Option.map_eq_some_iff.1 step
      exact served.setNode (served_of_sync done hall unpressed (served.node i))
    | handle i now floorSensor =>
      obtain ⟨n, done, rfl⟩ := Option.map_eq_some_iff.1 step
      exact served.setNode (served_of_handleEvent done hall (served.node i))
    | transmit i =>
      obtain rfl := Option.some.inj step
      refine ⟨served.node, fun packet member => ?_⟩
      rcases List.mem_append.1 member with old | new
      · exact served.sent packet old
      · rw [List.mem_singleton.1 new]
        exact (served.node i).stale
    | receive i position now =>
      rcases receive_cases step with ⟨-, -, -, rfl⟩ | ⟨received, sent, rfl⟩
      · exact served
      · have stale := served.sent _ (List.mem_of_getElem? sent)
        apply served.setNode
        by_cases own : received.sender = (s.node i).peers.nodeId
        · rw [ElevatorNode.rxPacketProcessing, rxPacketProcessing_own own]
          exact served.node i
        · rw [ElevatorNode.rxPacketProcessing, rxPacketProcessing_hall own hall]
          exact (served.node i).update stale
  | restart i initial first =>
    obtain rfl : v = 0 := kept.resolve_right fun never => never i rfl
    obtain ⟨-, done⟩ := Option.ite_none_right_eq_some.1 step
    obtain ⟨n, launched, rfl⟩ := Option.map_eq_some_iff.1 done
    obtain ⟨synced, sync, handled⟩ := ElevatorNode.launch_cases launched
    have uncalled : ¬({} : Order).Called := by decide
    have fresh : ((ElevatorNode.init i initial).peers.orders f b).Served 0 := ⟨uncalled, Nat.zero_le _⟩
    have idle := mt (ElevatorNode.pressed_init i initial first.signals f).1 unpressed
    exact served.setNode (served_of_handleEvent handled hall (served_of_sync sync hall idle fresh))

/-- Hall calls are presses: in every run of a fleet launched at floors with a hall order not called,
crashes and launches included, a locked section that finds the button newly pressed ends with the order
called at its node, also the locked section of a launch, which an event follows; and if a node or a packet
tells of a call, some step found the button newly pressed. -/
theorem hall_calls_pressed (hall : b ≠ .cab) {start : Fleet kFloors} (launched : start.Launched)
    (idle : ∀ i, ¬(start.order i f b).Called)
    {trace : List (Transition (Fleet kFloors) (FleetRestartAction kFloors))}
    (run : Run FleetRestartStep start trace s) :
    (∀ t ∈ trace, Presses f b t.pre t.action →
      (∀ i now signals, t.action = .run (.sync i now signals) → (t.post.order i f b).Called) ∧
      ∀ i initial first, t.action = .restart i initial first → ∃ synced,
        (ElevatorNode.init i initial).sync first.locked first.signals = some synced ∧
          (synced.peers.orders f b).Called ∧
          synced.handleEvent first.now first.stopSensor = some (t.post.node i)) ∧
      (((∃ i, (s.order i f b).Called) ∨ ∃ packet ∈ s.sent, (packet.orders f b).Called) →
        ∃ t ∈ trace, Presses f b t.pre t.action) := by
  constructor
  · intro t member presses
    have step := run.steps t member
    constructor
    · intro i now signals action
      rw [action] at step presses
      obtain ⟨n, done, post⟩ := Option.map_eq_some_iff.1 step
      have called := ElevatorNode.called_of_sync done hall presses
      rw [← post]
      simpa only [order, setNode_node_self] using called
    · intro i initial first action
      rw [action] at step presses
      obtain ⟨-, done⟩ := Option.ite_none_right_eq_some.1 step
      obtain ⟨n, launched, post⟩ := Option.map_eq_some_iff.1 done
      obtain ⟨synced, sync, handled⟩ := ElevatorNode.launch_cases launched
      have pressed := (ElevatorNode.pressed_init i initial _ f).2 presses
      have called := ElevatorNode.called_of_sync sync hall pressed
      refine ⟨synced, sync, called, ?_⟩
      rw [← post, setNode_node_self]
      exact handled
  · intro called
    by_contra unpressed
    have calm : ∀ t ∈ trace, ¬Presses f b t.pre t.action :=
      fun t member presses => unpressed ⟨t, member, presses⟩
    have begun : start.CallServed f b 0 := by
      refine ⟨fun i => ⟨idle i, Nat.zero_le _⟩, ?_⟩
      rw [launched.sent]
      exact fun packet member => absurd member List.not_mem_nil
    have reached : s.CallServed f b 0 := run.invariant_of_admitted
      (fun t => ¬Presses f b t.pre t.action) (CallServed f b 0)
      (fun step calm served => served.step step hall calm (.inl rfl)) calm begun
    rcases called with ⟨i, called⟩ | ⟨packet, member, called⟩
    · exact (reached.node i).ended called
    · exact absurd (reached.sent packet member called) (Nat.not_lt_zero _)

/-- A call taken at one node and told to another. -/
theorem hall_calls_pressed_told : ∃ trace s, Run FleetRestartStep Fleet.atBottom trace s ∧
    (s.order 1 2 .hallUp).Called ∧ ∃ t ∈ trace, Presses 2 .hallUp t.pre t.action := by
  let actions : List (FleetRestartAction Config.kFloors) := [
    .run (.sync 0 (.still 50) { floorSensor := 0, buttons := .only 2 .hallUp }), .run (.transmit 0),
    .run (.receive 1 0 70)]
  have evaluated : (actions.foldlM execRestart atBottom).any (fun s =>
      decide (s.order 1 2 .hallUp).Called) = true := by decide +kernel
  have idle : ∀ i, ¬(atBottom.order i 2 .hallUp).Called := by decide +kernel
  obtain ⟨trace, s, run, -, told⟩ := Run.of_check FleetRestartStep id evaluated
  have called : (s.order 1 2 .hallUp).Called := of_decide_eq_true told
  exact ⟨trace, s, run, called,
    (hall_calls_pressed (by decide) launched_atBottom idle run).2 (.inl ⟨1, called⟩)⟩

/-- A call that every node has seen served stays served: as long as nobody presses the button and no node
is launched, no node is asked to serve it again, whatever old packets still arrive. -/
theorem served_call_stays_served (hall : b ≠ .cab) (served : s.CallServed f b v)
    {trace : List (Transition (Fleet kFloors) (FleetRestartAction kFloors))}
    (run : Run FleetRestartStep s trace s')
    (calm : ∀ t ∈ trace, ¬Presses f b t.pre t.action ∧ ∀ j, ¬Relaunches j t.action) :
    s'.CallServed f b v ∧ ∀ i id, (s'.node i).peers.orders.toBoolTable id f b = false := by
  have reached : s'.CallServed f b v := run.invariant_of_admitted
    (fun t => ¬Presses f b t.pre t.action ∧ ∀ j, ¬Relaunches j t.action) (CallServed f b v)
    (fun step calm served => served.step step hall calm.1 (.inr calm.2)) calm served
  refine ⟨reached, fun i id => ?_⟩
  have open_ : ¬((s'.node i).peers.orders f b).status = .confirmed :=
    fun confirmed => (reached.node i).ended (.inr confirmed)
  simp only [OrderTable.toBoolTable, open_, decide_false, Bool.false_and]

/-- A packet from before the call was served arrives late. -/
theorem served_call_stays_served_late : ∃ s s' : Fleet Config.kFloors,
    (∃ packet ∈ s.sent, (packet.orders 0 .hallUp).Called) ∧ s'.CallServed 0 .hallUp 4 ∧
    ∀ i id, (s'.node i).peers.orders.toBoolTable id 0 .hallUp = false := by
  let actions : List (FleetRestartAction Config.kFloors) := [
    .run (.sync 0 (.still 50) { floorSensor := 0, buttons := .only 0 .hallUp }), .run (.transmit 0),
    .run (.handle 0 60 0), .run (.sync 0 (.still 90) { floorSensor := 0 }), .run (.handle 0 95 0),
    .run (.sync 0 (.still 130) { floorSensor := 0 }), .run (.transmit 0), .run (.receive 1 1 140),
    .run (.receive 2 1 140), .run (.receive 3 1 140)]
  have evaluated : (actions.foldlM execRestart atBottom).any (fun s =>
      decide (((∃ packet ∈ s.sent, (packet.orders 0 .hallUp).Called) ∧
          ∀ packet ∈ s.sent, (packet.orders 0 .hallUp).Called → (packet.orders 0 .hallUp).version < 4) ∧
        ∀ i, ¬(s.order i 0 .hallUp).Called ∧ 4 ≤ (s.order i 0 .hallUp).version) &&
      (s.execRestart (.run (.receive 1 0 150))).isSome) = true := by decide +kernel
  obtain ⟨trace, s, -, -, checked⟩ := Run.of_check FleetRestartStep id evaluated
  obtain ⟨known, received⟩ := Bool.and_eq_true_iff.1 checked
  obtain ⟨⟨old, stale⟩, nodes⟩ := of_decide_eq_true known
  obtain ⟨s', late⟩ := Option.isSome_iff_exists.1 received
  have served : s.CallServed 0 .hallUp 4 := ⟨fun i => ⟨(nodes i).1, (nodes i).2⟩, stale⟩
  have calm : ∀ t ∈ [(⟨s, .run (.receive 1 0 150), s'⟩ : Transition _ (FleetRestartAction _))],
      ¬Presses 0 .hallUp t.pre t.action ∧ ∀ j, ¬Relaunches j t.action := by
    intro t member
    rw [List.mem_singleton.1 member]
    exact ⟨id, fun _ => id⟩
  exact ⟨s, s', old, served_call_stays_served (by decide) served (.single late) calm⟩

end Fleet

end CppElevator
