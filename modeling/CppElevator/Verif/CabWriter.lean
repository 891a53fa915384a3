import CppElevator.Verif.CabLockstep
import CppElevator.Verif.CabRecovery
import CppElevator.Verif.StaleEchoes

/-!
# Cab orders have a single writer

Without crashes only node `n` makes new versions of its cab orders, one after the other, so every
copy elsewhere is an older one or the present one itself: a version determines the content. A
merge of such copies makes another such copy, and brings nothing new back to the node.
-/
namespace CppElevator

open Library

variable {kFloors : Nat}

namespace Order

/-- The copy is not ahead of the order, and equal to it when it is not behind. -/
structure Trails (copy own : Order) : Prop where
  /-- Not ahead. -/
  version : copy.version ≤ own.version
  /-- A copy of the present version is the order itself. -/
  same : copy.version = own.version → copy = own

/-- The order trails itself. -/
theorem Trails.refl (o : Order) : o.Trails o := ⟨le_rfl, fun _ => rfl⟩

/-- An older copy trails. -/
theorem trails_of_lt {copy own : Order} (older : copy.version < own.version) : copy.Trails own :=
  ⟨older.le, fun same => absurd same older.ne⟩

/-- A copy that trails tells nothing new. -/
theorem Trails.absorbed {copy own : Order} (trails : copy.Trails own) : own.onUpdate copy = own := by
  apply onUpdate_of_knowledge_le
  rcases trails.version.lt_or_eq with older | same
  · exact knowledge_le_of_version older
  · rw [trails.same same]

/-- The merge of two copies that trail is a third. -/
theorem Trails.onUpdate {copy rcv own : Order} (kept : copy.Trails own) (received : rcv.Trails own) :
    (copy.onUpdate rcv).Trails own := by
  rcases kept.version.lt_or_eq with older | same
  · rcases received.version.lt_or_eq with older' | same'
    · apply trails_of_lt
      rcases copy.onUpdate_status_version rcv with ⟨_, version⟩ | ⟨_, version⟩
      · rwa [version]
      · rwa [version]
    · rw [received.same same', onUpdate_of_lt older]
      exact .refl own
  · rw [kept.same same, received.absorbed]
    exact .refl own

/-- The order has moved to a later version, or stayed. -/
def Moves (own own' : Order) : Prop := own.version < own'.version ∨ own' = own

/-- A copy trails an order that has moved on. -/
theorem Trails.moves {copy own own' : Order} (trails : copy.Trails own) (moves : own.Moves own') :
    copy.Trails own' := by
  rcases moves with later | rfl
  · exact trails_of_lt (trails.version.trans_lt later)
  · exact trails

/-- A press makes a later version, or changes nothing. -/
theorem moves_press (o : Order) (n : Fin kElevs) :
    o.Moves ((o.onRequest n).onConfirm n.val) := by
  by_cases open_ : o.status = .none ∨ o.status = .clear
  · left
    rw [onRequest_of_open _ open_, onConfirm_of_requested _ rfl]
    dsimp only
    omega
  · rw [onRequest_of_underway _ open_]
    by_cases requested : o.status = .requested
    · left
      rw [onConfirm_of_requested _ requested]
      exact Nat.lt_succ_self _
    · exact .inr (if_neg requested)

/-- So does a clearing. -/
theorem moves_clear (o : Order) : o.Moves o.onClear.onReset := by
  by_cases confirmed : o.status = .confirmed
  · left
    rw [onClear_of_confirmed confirmed, onReset_of_clear rfl]
    dsimp only
    omega
  · rw [onClear_of_not_confirmed confirmed]
    by_cases clear : o.status = .clear
    · left
      rw [onReset_of_clear clear]
      exact Nat.lt_succ_self _
    · exact .inr (onReset_of_not_clear clear)

end Order

/-- In every node the two local copies of its cab orders agree. -/
def Cluster.Lockstep (s : Cluster kFloors) : Prop := ∀ i, (s.node i).Lockstep

/-- No step of the cluster parts the two copies. -/
theorem Cluster.Lockstep.step {s s' : Cluster kFloors} {action : Action kFloors}
    (same : s.Lockstep) (step : ClusterStep s action s') : s'.Lockstep := by
  have replaced {i : Fin kElevs} {p : Peers kFloors} (new : p.Lockstep) : (s.setNode i p).Lockstep :=
    Cluster.forall_setNode (fun _ p => p.Lockstep) same new
  rcases clusterStep_cases step with ⟨i, signals, -, rfl⟩ | ⟨i, own, now, p, -, -, stepped, rfl⟩ |
    ⟨i, own, floor, b2c, -, -, rfl⟩ | ⟨i, -, rfl⟩ |
    ⟨i, position, now, packet, -, -, rfl | ⟨received, -, rfl⟩⟩
  · exact replaced ((same i).syncButtonSignals signals)
  · have published : ((s.node i).copyOwnState own).Lockstep := same i
    exact replaced (published.step stepped)
  · exact replaced ((same i).clearOrders floor b2c)
  · exact same
  · exact same
  · exact replaced ((same i).rxPacketProcessing now received)

/-- Every copy of node `n`'s cab order at a floor, elsewhere or in flight, trails the node's own. -/
structure CabOwned (n : Fin kElevs) (f : Fin kFloors) (s : Cluster kFloors) : Prop where
  /-- Identities of the nodes. -/
  ids : s.Identified
  /-- Identities the nodes publish. -/
  published : s.Published
  /-- The local copies agree. -/
  lockstep : s.Lockstep
  /-- The backups the nodes keep. -/
  backups : ∀ p, ((s.node p).cabButtonOrders n f).Trails ((s.node n).orders f .cab)
  /-- The backups in flight. -/
  carried : ∀ packet ∈ s.sent, (packet.cabButtonOrders n f).Trails ((s.node n).orders f .cab)
  /-- The cells in flight. -/
  cells : ∀ packet ∈ s.sent, packet.id = n.val →
    (packet.orders f .cab).Trails ((s.node n).orders f .cab)

namespace CabOwned

variable {n : Fin kElevs} {f : Fin kFloors} {s : Cluster kFloors}

/-- Every copy a node can meet trails. -/
theorem copies (owned : CabOwned n f s) {o : Order} (copy : CabCopy s n f o) :
    o.Trails ((s.node n).orders f .cab) := by
  rcases copy with ⟨holder, rfl⟩ | ⟨packet, sent, -, rfl | ⟨sender, rfl⟩⟩
  · cases holder with
    | cell => exact .refl _
    | backup p => exact owned.backups p
  · exact owned.carried packet sent
  · exact owned.cells packet sent sender

/-- A step moves the node's own cell on or leaves it; a delivery leaves it. -/
theorem own_moves (owned : CabOwned n f s) {s' : Cluster kFloors} {action : Action kFloors}
    (step : ClusterStep s action s') :
    ((s.node n).orders f .cab).Moves ((s'.node n).orders f .cab) ∧
      ∀ i position now, action = .receive i position now →
        (s'.node n).orders f .cab = (s.node n).orders f .cab := by
  have ran : RestartStep s (.run action) s' := step
  have change := cabChange_of_step owned.ids ran n f .cell
  have absorbed {rcv : Order} (copy : CabCopy s n f rcv) := (owned.copies copy).absorbed
  simp only [Cluster.cabOrder] at change absorbed
  generalize (s'.node n).orders f .cab = own' at change ⊢
  generalize (s.node n).orders f .cab = own at change absorbed ⊢
  cases change with
  | same => exact ⟨.inr rfl, fun _ _ _ _ => rfl⟩
  | press _ => exact ⟨own.moves_press n, by simp⟩
  | clear _ _ => exact ⟨own.moves_clear, by simp⟩
  | merge _ _ _ copy => exact ⟨.inr (absorbed copy), fun _ _ _ _ => absorbed copy⟩

/-- A backup at another node stays, or is merged with a copy. -/
theorem backup_of_step (owned : CabOwned n f s) {s' : Cluster kFloors} {action : Action kFloors}
    (step : ClusterStep s action s') {p : Fin kElevs} (other : p ≠ n) :
    (s'.node p).cabButtonOrders n f = (s.node p).cabButtonOrders n f ∨
      ∃ rcv, CabCopy s n f rcv ∧
        (s'.node p).cabButtonOrders n f = ((s.node p).cabButtonOrders n f).onUpdate rcv := by
  have apart : n ≠ p := other.symm
  have replaced {i : Fin kElevs} {q : Peers kFloors}
      (here : i = p → q.cabButtonOrders n f = (s.node p).cabButtonOrders n f ∨
        ∃ rcv, CabCopy s n f rcv ∧
          q.cabButtonOrders n f = ((s.node p).cabButtonOrders n f).onUpdate rcv) :
      ((s.setNode i q).node p).cabButtonOrders n f = (s.node p).cabButtonOrders n f ∨
        ∃ rcv, CabCopy s n f rcv ∧
          ((s.setNode i q).node p).cabButtonOrders n f =
            ((s.node p).cabButtonOrders n f).onUpdate rcv := by
    by_cases same : i = p
    · subst same
      rw [Cluster.setNode_node_self]
      exact here rfl
    · rw [Cluster.setNode_node_of_ne _ _ (Ne.symm same)]
      exact .inl rfl
  rcases clusterStep_cases step with ⟨i, signals, -, rfl⟩ | ⟨i, own, now, q, -, -, stepped, rfl⟩ |
    ⟨i, own, floor, b2c, -, -, rfl⟩ | ⟨i, -, rfl⟩ |
    ⟨i, position, now, packet, -, sent, rfl | ⟨received, arrived, rfl⟩⟩
  · refine replaced fun here => .inl ?_
    subst here
    simp only [Peers.syncButtonSignals, owned.ids i, apart, false_and, ↓reduceIte]
  · refine replaced fun here => .inl ?_
    subst here
    rw [(Peers.advances_step stepped).cabButtonOrders]
    rfl
  · refine replaced fun here => .inl ?_
    subst here
    simp only [Peers.copyOwnState, Peers.clearOrders, owned.ids i, apart, false_and, ↓reduceIte]
  · exact .inl rfl
  · exact .inl rfl
  · refine replaced fun here => ?_
    subst here
    by_cases foreign : received.sender = (s.node i).nodeId
    · rw [Peers.rxPacketProcessing_own foreign]
      exact .inl rfl
    · by_cases sender : n = received.sender
      · obtain rfl := eq_of_recievePacket arrived
        refine .inr ⟨received.orders f .cab, .inr ⟨_, List.mem_of_getElem? sent, received.checked,
          .inr ⟨by rw [received.id_eq_sender, sender], rfl⟩⟩, ?_⟩
        simp only [Peers.rxPacketProcessing, if_neg foreign, if_pos sender]
      · have self : n ≠ (s.node i).nodeId := by rwa [owned.ids i]
        left
        simp only [Peers.rxPacketProcessing, if_neg foreign, if_neg sender, if_neg self]

/-- A step keeps every copy behind the node's own cell. -/
theorem step (owned : CabOwned n f s) {s' : Cluster kFloors} {action : Action kFloors}
    (step : ClusterStep s action s') : CabOwned n f s' := by
  have moves := (owned.own_moves step).1
  have lockstep := owned.lockstep.step step
  have ids := owned.ids.step step
  have sent {packet : NetworkPacket kFloors} (member : packet ∈ s'.sent) :
      (packet.cabButtonOrders n f).Trails ((s.node n).orders f .cab) ∧
        (packet.id = n.val → (packet.orders f .cab).Trails ((s.node n).orders f .cab)) := by
    rcases sent_of_step step member with earlier | ⟨-, i, rfl⟩
    · exact ⟨owned.carried packet earlier, owned.cells packet earlier⟩
    · refine ⟨owned.backups i, fun sender => ?_⟩
      have node : (s.node i).nodeId = i := owned.ids i
      have id : ((s.node i).allStates i).id = n.val := by
        simpa only [Peers.txPacketCopy, NetworkPacket.init, node] using sender
      rcases owned.published i with default | own
      · omega
      · obtain rfl : i = n := Fin.ext (by omega)
        exact .refl _
  refine ⟨ids, owned.published.step owned.ids step, lockstep, fun p => ?_,
    fun packet member => (sent member).1.moves moves,
    fun packet member sender => ((sent member).2 sender).moves moves⟩
  by_cases self : p = n
  · subst self
    have same := lockstep p f
    rw [ids p] at same
    rw [same]
    exact .refl _
  · have trails : ((s'.node p).cabButtonOrders n f).Trails ((s.node n).orders f .cab) := by
      rcases owned.backup_of_step step self with same | ⟨rcv, copy, merged⟩
      · rw [same]
        exact owned.backups p
      · rw [merged]
        exact (owned.backups p).onUpdate (owned.copies copy)
    exact trails.moves moves

end CabOwned

/-- Nothing has been ordered at the start. -/
theorem cabOwned_initial {n : Fin kElevs} {f : Fin kFloors} : CabOwned n f Cluster.initial :=
  ⟨Cluster.identified_initial, fun _ => .inl rfl, fun _ _ => rfl, fun _ => .refl _,
    fun _ sent => absurd sent List.not_mem_nil, fun _ sent => absurd sent List.not_mem_nil⟩

/-- Cab calls have a single writer. After every crash-free run, each copy of node `n`'s cab order
that another node keeps or a packet carries is no newer than the node's own cell, and equal to it
when it is as new. No packet the node processes changes its own cab order. -/
theorem cab_calls_single_writer {n : Fin kElevs} {f : Fin kFloors}
    {trace : List (Transition (Cluster kFloors) (Action kFloors))} {s : Cluster kFloors}
    (run : Run ClusterStep Cluster.initial trace s) :
    (∀ p, p ≠ n → ((s.node p).cabButtonOrders n f).Trails ((s.node n).orders f .cab)) ∧
    (∀ packet ∈ s.sent, (packet.cabButtonOrders n f).Trails ((s.node n).orders f .cab) ∧
      (packet.id = n.val → (packet.orders f .cab).Trails ((s.node n).orders f .cab))) ∧
    ∀ t ∈ trace, ∀ position now, t.action = .receive n position now →
      (t.post.node n).orders f .cab = (t.pre.node n).orders f .cab ∧
      (t.post.node n).cabButtonOrders n f = (t.pre.node n).cabButtonOrders n f := by
  have owned := run.invariant (CabOwned n f) (fun step owned => owned.step step) cabOwned_initial
  refine ⟨fun p _ => owned.backups p,
    fun packet sent => ⟨owned.carried packet sent, owned.cells packet sent⟩, ?_⟩
  refine run.forall_transitions (fun _ => True) _ (CabOwned n f) ?_ (fun _ _ => trivial)
    cabOwned_initial
  intro s s' action step _ owned
  refine ⟨owned.step step, ?_⟩
  rintro position now rfl
  have cell := (owned.own_moves step).2 n position now rfl
  have before := owned.lockstep n f
  have after := (owned.step step).lockstep n f
  rw [owned.ids n] at before
  rw [(owned.step step).ids n] at after
  exact ⟨cell, by rw [← after, ← before, cell]⟩

/-- Node 0 keeps a copy of the call node 1 has served in the meantime. -/
theorem served_call_trailed :
    ∃ (trace : List (Transition (Cluster Config.kFloors) (Action Config.kFloors)))
      (s : Cluster Config.kFloors), Run ClusterStep Cluster.initial trace s ∧
      ((s.node 0).cabButtonOrders 1 0).status = .confirmed ∧
      ((s.node 1).orders 0 .cab).status = .none ∧
      ((s.node 0).cabButtonOrders 1 0).Trails ((s.node 1).orders 0 .cab) := by
  have passed : ((Cluster.initial : Cluster Config.kFloors).execAll
      [.press 1 (.only 0 .cab), .step 1 (.idleAt 1 0) (.still 0), .transmit 1, .receive 0 0 0,
        .clear 1 (.idleAt 1 0) 0 (fun _ => true)]).any (fun s =>
          decide (((s.node 0).cabButtonOrders 1 0).status = .confirmed) &&
          decide (((s.node 1).orders 0 .cab).status = .none)) = true := by
    decide +kernel
  obtain ⟨trace, s, run, -, outcome⟩ := Run.of_check ClusterStep id passed
  simp only [Bool.and_eq_true, decide_eq_true_eq] at outcome
  exact ⟨trace, s, run, outcome.1, outcome.2, (cab_calls_single_writer run).1 0 (by decide)⟩

end CppElevator
