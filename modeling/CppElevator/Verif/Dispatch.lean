import CppElevator.Verif.Custody
import CppElevator.Verif.FleetGossip
import CppElevator.Verif.Reassignments

/-!
# A hall call is dispatched

A request is confirmed by whoever finds that all the elevators it takes for active have observed it. In
a fleet where the live nodes hear of each other and step, a request that one of them holds does not
stay one: after an exchange of packets all of them know of it, after a step each has marked it, after a
second exchange each knows of the marks of all, and the next step confirms it. What happens meanwhile
besides, at these nodes or at others, does not matter: what is known of the order only grows.
-/
namespace CppElevator

open Library Peers

variable {kFloors : Nat}

namespace Order

/-- More is known than a copy of the order tells, or the same decision with these observers. -/
def Reaches (r : Order) (elevs : Finset (Fin kElevs)) (o : Order) : Prop :=
  r.Outdated o ∨ (o.version = r.version ∧ o.decision = r.decision) ∧ ∀ e ∈ elevs, e.val ∈ o.observers

/-- What is known grows. -/
theorem Reaches.mono {r o o' : Order} {elevs : Finset (Fin kElevs)} (reaches : r.Reaches elevs o)
    (grows : o.knowledge ≤ o'.knowledge) : r.Reaches elevs o' := by
  rcases reaches with newer | ⟨⟨version, decision⟩, seen⟩
  · exact .inl (newer.mono grows)
  · rcases outdated_or_same grows with newer | ⟨version', decision'⟩
    · left
      rcases newer with newer | ⟨same, later⟩
      · exact .inl (version ▸ newer)
      · exact .inr ⟨version ▸ same, decision ▸ later⟩
    · refine .inr ⟨⟨version'.trans version, decision'.trans decision⟩, fun e member => ?_⟩
      rcases grows with newer | ⟨-, more, -⟩
      · have later : o.version < o'.version := newer
        exact absurd version' later.ne'
      · exact more (seen e member)

/-- A copy reaches itself. -/
theorem Reaches.refl (r : Order) : r.Reaches ∅ r :=
  .inr ⟨⟨rfl, rfl⟩, fun _ member => absurd member (Finset.notMem_empty _)⟩

/-- Observers told of one after another. -/
theorem Reaches.gather {r o : Order} {elevs : Finset (Fin kElevs)} (start : r.Reaches ∅ o)
    (each : ∀ e ∈ elevs, r.Reaches {e} o) : r.Reaches elevs o := by
  rcases start with newer | ⟨same, -⟩
  · exact .inl newer
  · by_cases newer : r.Outdated o
    · exact .inl newer
    · refine .inr ⟨same, fun e member => ?_⟩
      have seen := ((each e member).resolve_left newer).2
      exact seen e (Finset.mem_singleton_self e)

end Order

namespace Fleet

variable {s s' : Fleet kFloors} {live : Finset (Fin kElevs)} {f : Fin kFloors} {b : BtnType}
  {trace : List (Transition (Fleet kFloors) (FleetRestartAction kFloors))}

/-- No live node is launched again. -/
def Stays (live : Finset (Fin kElevs))
    (trace : List (Transition (Fleet kFloors) (FleetRestartAction kFloors))) : Prop :=
  ∀ t ∈ trace, ∀ j ∈ live, ¬Relaunches j t.action

/-- The gossip about an order does not forget. -/
theorem awake_of_stays (stays : Stays live trace) :
    Gossip.Awake live (trace.map (gossipStep f b)) := by
  intro t member j alive forgets
  obtain ⟨taken, origin, rfl⟩ := List.mem_map.1 member
  refine stays taken origin j alive ?_
  obtain ⟨pre, action, post⟩ := taken
  match action, forgets with
  | .restart i _ _, same =>
    injection same
  | .run (.receive _ position _), same =>
    simp only [gossipStep, gossipAction] at same
    split_ifs at same

/-- A step processes at node `j` a packet that node `i` has sent since a fleet was in a state. -/
def Delivers (s : Fleet kFloors) (i j : Fin kElevs) :
    Transition (Fleet kFloors) (FleetRestartAction kFloors) → Prop
  | ⟨pre, .run (.receive k position _), _⟩ => k = j ∧ s.sent.length ≤ position ∧
    pre.sent[position]?.any (fun packet => decide (packet.id = (i.val : Int))) = true
  | _ => False

/-- Which packet that is. -/
theorem packet_of_delivers {i j : Fin kElevs}
    {t : Transition (Fleet kFloors) (FleetRestartAction kFloors)} (delivers : s.Delivers i j t) :
    ∃ position now packet, t.action = .run (.receive j position now) ∧ s.sent.length ≤ position ∧
      t.pre.sent[position]? = some packet ∧ packet.id = i.val := by
  match t, delivers with
  | ⟨_, .run (.receive _ position now), _⟩, ⟨rfl, late, named⟩ =>
    obtain ⟨packet, sent, id⟩ := (Option.any_eq_true _ _).1 named
    exact ⟨position, now, packet, rfl, late, sent, of_decide_eq_true id⟩

/-- A delivery is a message heard by the gossip about an order. -/
theorem hears_of_delivers {i j : Fin kElevs} (apart : i ≠ j)
    {t : Transition (Fleet kFloors) (FleetRestartAction kFloors)} (delivers : s.Delivers i j t) :
    (s.gossip f b).Hears i j (gossipStep f b t) := by
  obtain ⟨position, now, packet, receives, late, sent, id⟩ := packet_of_delivers delivers
  have origin := NetworkPacket.origin_eq id
  refine ⟨position, (packet.orders f b).knowledge, ?_, ?_, ?_⟩
  · simp only [gossipStep, gossipAction, receives, sent, Option.any_some, origin, apart, decide_false,
      Bool.false_eq_true, ↓reduceIte]
  · simpa only [gossip, List.length_map] using late
  · simp only [gossipStep, gossip, List.getElem?_map, sent, Option.map_some, origin]

/-- Every live node processes a packet of every other that was sent meanwhile. -/
def Exchanges (live : Finset (Fin kElevs)) (s : Fleet kFloors)
    (trace : List (Transition (Fleet kFloors) (FleetRestartAction kFloors))) : Prop :=
  ∀ i ∈ live, ∀ j ∈ live, i ≠ j → ∃ t ∈ trace, s.Delivers i j t

/-- An exchange of packets is an exchange of the gossip about an order. -/
theorem exchanges_gossip (exchanges : s.Exchanges live trace) :
    (s.gossip f b).Exchanges live (trace.map (gossipStep f b)) := by
  intro i one j other apart
  obtain ⟨t, taken, delivers⟩ := exchanges i one j other apart
  exact ⟨_, List.mem_map_of_mem taken, hears_of_delivers apart delivers⟩

/-- What a live node knows, every live node knows after an exchange. -/
theorem told_of_exchange (hall : b ≠ .cab) (serving : s.Serving OrdersValid (·.valid = true))
    (run : Run FleetRestartStep s trace s') (stays : Stays live trace)
    (exchanges : s.Exchanges live trace) {i j : Fin kElevs} (one : i ∈ live) (other : j ∈ live) :
    (s.order i f b).knowledge ≤ (s'.order j f b).knowledge :=
  Gossip.told_of_exchange (serving.gossips hall run) (awake_of_stays stays)
    (exchanges_gossip exchanges) one other

/-- A step sends a packet, or processes one that another node has sent since a fleet was in a state. -/
def Tells (s : Fleet kFloors) (t : Transition (Fleet kFloors) (FleetRestartAction kFloors)) : Prop :=
  (∃ i, t.action = .run (.transmit i)) ∨ ∃ i j, i ≠ j ∧ s.Delivers i j t

/-- Every packet of a list of deliveries can be sent and processed, one after another. -/
theorem deliveries_possible {l : Fleet kFloors} (serving : l.Serving (fun _ => True) (fun _ => True))
    (later : s.sent.length ≤ l.sent.length) (pairs : List (Fin kElevs × Fin kElevs))
    (apart : ∀ pair ∈ pairs, pair.1 ≠ pair.2) :
    ∃ told s', Run FleetRestartStep l told s' ∧ (∀ t ∈ told, s.Tells t) ∧
      ∀ pair ∈ pairs, ∃ t ∈ told, s.Delivers pair.1 pair.2 t := by
  induction pairs generalizing l with
  | nil => exact ⟨[], l, .nil l, fun _ member => absurd member List.not_mem_nil,
      fun _ member => absurd member List.not_mem_nil⟩
  | cons pair pairs ih =>
    obtain ⟨i, j⟩ := pair
    let sent : Fleet kFloors := { l with sent := l.sent ++ [(l.node i).peers.txPacketCopy] }
    have transmits : FleetRestartStep l (.run (.transmit i)) sent := rfl
    have last : sent.sent[l.sent.length]? = some (l.node i).peers.txPacketCopy := by simp [sent]
    obtain ⟨received, receives, kept⟩ : ∃ received,
        FleetRestartStep sent (.run (.receive j l.sent.length 0)) received ∧
          received.sent = sent.sent := by
      unfold FleetRestartStep execRestart exec
      simp only [last]
      refine ⟨_, rfl, ?_⟩
      cases recievePacket (l.node i).peers.txPacketCopy <;> rfl
    have delivered : s.Delivers i j ⟨sent, .run (.receive j l.sent.length 0), received⟩ := by
      refine ⟨rfl, later, ?_⟩
      rw [last]
      exact decide_eq_true (serving.id_txPacketCopy i)
    have served := (serving.step peersRule_true transmits).step peersRule_true receives
    have longer : s.sent.length ≤ received.sent.length := by
      rw [kept]
      simp only [sent, List.length_append]
      omega
    obtain ⟨told, s', run, tells, rest⟩ := ih served longer
      fun other member => apart other (List.mem_cons_of_mem _ member)
    refine ⟨_, s', ((Run.single transmits).snoc receives).append run, fun t member => ?_,
      fun pair member => ?_⟩
    · rcases List.mem_append.1 member with first | other
      · rcases List.mem_append.1 first with new | new
        · rw [List.mem_singleton.1 new]
          exact .inl ⟨i, rfl⟩
        · rw [List.mem_singleton.1 new]
          exact .inr ⟨i, j, apart (i, j) List.mem_cons_self, delivered⟩
      · exact tells t other
    · rcases List.mem_cons.1 member with rfl | other
      · exact ⟨_, by simp, delivered⟩
      · obtain ⟨t, taken, delivers⟩ := rest pair other
        exact ⟨t, List.mem_append_right _ taken, delivers⟩

/-- An exchange can take place in every fleet that serves. -/
theorem exchange_possible (serving : s.Serving (fun _ => True) (fun _ => True)) :
    ∃ told s', Run FleetRestartStep s told s' ∧ (∀ t ∈ told, s.Tells t) ∧ s.Exchanges live told := by
  obtain ⟨told, s', run, tells, delivered⟩ := deliveries_possible serving le_rfl
    (((List.finRange kElevs).product (List.finRange kElevs)).filter fun pair =>
      decide (pair.1 ≠ pair.2)) fun pair member => of_decide_eq_true (List.mem_filter.1 member).2
  refine ⟨told, s', run, tells, fun i _ j _ apart => delivered (i, j) ?_⟩
  exact List.mem_filter.2 ⟨List.pair_mem_product.2 ⟨List.mem_finRange i, List.mem_finRange j⟩,
    decide_eq_true apart⟩

/-- Nobody is launched again by telling. -/
theorem stays_of_tells (tells : ∀ t ∈ trace, s.Tells t) : Stays live trace := by
  intro t taken j _ again
  rcases tells t taken with ⟨i, sends⟩ | ⟨i, k, -, delivers⟩
  · rw [sends] at again
    exact again
  · obtain ⟨position, now, packet, receives, -⟩ := packet_of_delivers delivers
    rw [receives] at again
    exact again

/-- The copies that live nodes have of an order change by merging what others of them have sent since
a fleet was in a state, and in no other way. -/
def Settles (live : Finset (Fin kElevs)) (s : Fleet kFloors) (f : Fin kFloors) (b : BtnType)
    (t : Transition (Fleet kFloors) (FleetRestartAction kFloors)) : Prop :=
  ∀ j ∈ live, t.post.order j f b = t.pre.order j f b ∨ ∃ i ∈ live, i ≠ j ∧ s.Delivers i j t

/-- So do the nodes of the gossip about the order. -/
theorem settles_gossip (settles : ∀ t ∈ trace, s.Settles live f b t) :
    ∀ t ∈ trace.map (gossipStep f b), Gossip.Settles live (s.gossip f b) t := by
  intro t member j alive
  obtain ⟨taken, origin, rfl⟩ := List.mem_map.1 member
  rcases settles taken origin j alive with kept | ⟨i, other, apart, delivers⟩
  · exact .inl (congrArg Order.knowledge kept)
  · exact .inr ⟨i, other, hears_of_delivers apart delivers⟩

/-- The copies of all nodes settle by telling. -/
theorem settles_of_tells {l l' : Fleet kFloors} {action : FleetRestartAction kFloors}
    (step : FleetRestartStep l action l') (tells : s.Tells ⟨l, action, l'⟩) :
    s.Settles Finset.univ f b ⟨l, action, l'⟩ := by
  intro k _
  rcases tells with ⟨i, sends⟩ | ⟨i, j, apart, delivers⟩
  · left
    obtain rfl : action = .run (.transmit i) := sends
    obtain rfl := Option.some.inj step
    rfl
  · by_cases here : k = j
    · subst here
      exact .inr ⟨i, Finset.mem_univ i, apart, delivers⟩
    · left
      obtain ⟨position, now, packet, receives, -, sent, -⟩ := packet_of_delivers delivers
      obtain rfl : action = .run (.receive j position now) := receives
      dsimp only at sent
      simp only [FleetRestartStep, execRestart, exec, sent] at step
      rw [← Option.some.inj step]
      dsimp only [order]
      cases recievePacket packet with
      | none => rfl
      | some received => rw [setNode_node_of_ne _ _ here]

/-- In every run of a fleet launched at floors: live nodes that hear of each other while their copies of
a hall order only settle agree on the order afterwards, in everything but the assignee of an order that is
not confirmed. No two of them then hold the order. -/
theorem exchange_agrees (hall : b ≠ .cab) {start : Fleet kFloors} (launched : start.Launched)
    {told : List (Transition (Fleet kFloors) (FleetRestartAction kFloors))}
    (run : Run FleetRestartStep start trace s) (exchange : Run FleetRestartStep s told s')
    (stays : Stays live told) (exchanges : s.Exchanges live told)
    (settles : ∀ t ∈ told, s.Settles live f b t) :
    ∀ i ∈ live, ∀ j ∈ live, (s'.order i f b).Equivalent (s'.order j f b) ∧
      ((s'.node i).peers.Holds f b → (s'.node j).peers.Holds f b → i = j) := by
  intro i one j other
  have serves := launched.serving OrdersValid.rule run
  have same := Gossip.agree_of_exchange (serves.gossips hall exchange) (awake_of_stays stays)
    (exchanges_gossip exchanges) (settles_gossip settles) one other
  have alike : (s'.order i f b).Equivalent (s'.order j f b) := Order.knowledge_eq_iff.1 same
  refine ⟨alike, fun mine theirs => ?_⟩
  have after := launched.serving OrdersValid.rule (run.append exchange)
  have assigned : (((s'.node i).peers.nodeId.val : Nat) : Int) = (s'.node j).peers.nodeId.val := by
    rw [← mine.2, ← theirs.2]
    exact alike.assignedId mine.1
  rw [(after.node i).nodeId, (after.node j).nodeId] at assigned
  exact Fin.ext (Int.ofNat.inj assigned)

/-- Four nodes of which one has been called agree about the call after they have told each other. -/
theorem exchange_agrees_called : ∃ s s' : Fleet Config.kFloors,
    (s.order 0 1 .hallUp).status = .requested ∧ (s.order 1 1 .hallUp).status = .none ∧
    ∀ i ∈ (Finset.univ : Finset (Fin kElevs)), ∀ j ∈ (Finset.univ : Finset (Fin kElevs)),
      (s'.order i 1 .hallUp).Equivalent (s'.order j 1 .hallUp) ∧
        ((s'.node i).peers.Holds 1 .hallUp → (s'.node j).peers.Holds 1 .hallUp → i = j) := by
  let called : List (FleetRestartAction Config.kFloors) := [.run (.transmit 1),
    .run (.receive 0 0 50), .run (.sync 0 (.still 60) { floorSensor := 0, buttons := .only 1 .hallUp })]
  have evaluated : (called.foldlM execRestart atBottom).any (fun s =>
      decide ((s.order 0 1 .hallUp).status = .requested ∧
        (s.order 1 1 .hallUp).status = .none)) = true := by decide +kernel
  obtain ⟨trace, s, run, -, checked⟩ := Run.of_check FleetRestartStep id evaluated
  obtain ⟨requested, unknown⟩ := of_decide_eq_true checked
  obtain ⟨told, s', exchange, tells, exchanges⟩ :=
    @exchange_possible _ s Finset.univ (launched_atBottom.serving peersRule_true run)
  have settles : ∀ t ∈ told, s.Settles Finset.univ 1 .hallUp t :=
    fun t taken => settles_of_tells (exchange.steps t taken) (tells t taken)
  exact ⟨s, s', requested, unknown, exchange_agrees (by decide) launched_atBottom run exchange
    (stays_of_tells tells) exchanges settles⟩

/-- The action takes node `j` through the locked section of a step. -/
def Steps (j : Fin kElevs) : FleetRestartAction kFloors → Prop
  | .run (.sync k _ _) => k = j
  | _ => False

/-- A locked section at a node leaves every hall order in normal form. -/
theorem normalForm_of_steps (fits : CostsFit kFloors) (hall : b ≠ .cab) {j : Fin kElevs}
    {action : FleetRestartAction kFloors} (serving : s.Serving OrdersValid (·.valid = true))
    (step : FleetRestartStep s action s') (steps : Steps j action) :
    (s'.node j).peers.nodeId = j ∧ (s'.node j).peers.NormalForm f b := by
  match action, steps with
  | .run (.sync _ now signals), rfl =>
  obtain ⟨n, done, rfl⟩ := Option.map_eq_some_iff.1 step
  rw [setNode_node_self]
  rw [ElevatorNode.sync_eq] at done
  obtain ⟨peers, stepped, rfl⟩ := Option.map_eq_some_iff.1 done
  have synced := (serving.node j).ready.synced OrdersValid.rule signals
  exact ⟨(advances_step stepped).nodeId.trans synced.nodeId,
    synced.serves.takesPart.normalForm fits stepped hall⟩

/-- A step marks a request as seen by the node. -/
theorem reaches_self (fits : CostsFit kFloors) (hall : b ≠ .cab) {r : Order}
    (requested : r.status = .requested) {j : Fin kElevs} {action : FleetRestartAction kFloors}
    (serving : s.Serving OrdersValid (·.valid = true)) (step : FleetRestartStep s action s')
    (steps : Steps j action) (reaches : r.Reaches ∅ (s'.order j f b)) :
    r.Reaches {j} (s'.order j f b) := by
  obtain ⟨node, normal⟩ := @normalForm_of_steps _ _ _ f b fits hall _ _ serving step steps
  rcases reaches with newer | ⟨⟨version, decision⟩, -⟩
  · exact .inl newer
  · refine .inr ⟨⟨version, decision⟩, fun e member => ?_⟩
    have open_ : (s'.order j f b).status = .requested :=
      (Order.decision_eq_iff.1 decision).1.trans requested
    have seen := (normal.awaited open_).observed
    rw [node] at seen
    rw [Finset.mem_singleton.1 member]
    exact (Order.observedBy_iff (Order.elev_fits j)).1 seen

/-- A step confirms a request that all the elevators active in the view have seen. -/
theorem outdated_of_steps (fits : CostsFit kFloors) (hall : b ≠ .cab) {r : Order}
    (requested : r.status = .requested) {j : Fin kElevs} {action : FleetRestartAction kFloors}
    (serving : s.Serving OrdersValid (·.valid = true)) (step : FleetRestartStep s action s')
    (steps : Steps j action)
    (view : ∀ e, ((s'.node j).peers.allStates e).active = true → e ∈ live)
    (reaches : r.Reaches live (s'.order j f b)) : r.Outdated (s'.order j f b) := by
  rcases reaches with newer | ⟨⟨-, decision⟩, seen⟩
  · exact newer
  · have open_ : (s'.order j f b).status = .requested :=
      (Order.decision_eq_iff.1 decision).1.trans requested
    have normal := (@normalForm_of_steps _ _ _ f b fits hall _ _ serving step steps).2
    obtain ⟨e, active, missing⟩ := (normal.awaited open_).missing
    have marked := (Order.observedBy_iff (Order.elev_fits e)).2 (seen e (view e active))
    have unmarked : (s'.order j f b).observedBy e = false := missing
    rw [unmarked] at marked
    cases marked

/-- What a live node knows of an order after one of its steps, and what it knew before, hold in the
end. -/
theorem holds_of_steps {Before After : Order → Prop}
    (keeps : ∀ {o o' : Order}, o.knowledge ≤ o'.knowledge → Before o → Before o')
    (grows : ∀ {o o' : Order}, o.knowledge ≤ o'.knowledge → After o → After o') (hall : b ≠ .cab)
    (serving : s.Serving OrdersValid (·.valid = true)) (run : Run FleetRestartStep s trace s')
    (stays : Stays live trace) {j : Fin kElevs} (alive : j ∈ live)
    {Due : Transition (Fleet kFloors) (FleetRestartAction kFloors) → Prop}
    (due : ∃ t ∈ trace, Due t) (before : Before (s.order j f b))
    (made : ∀ {l l' : Fleet kFloors} {action : FleetRestartAction kFloors},
      l.Serving OrdersValid (·.valid = true) → FleetRestartStep l action l' → Due ⟨l, action, l'⟩ →
      Before (l'.order j f b) → After (l'.order j f b)) : After (s'.order j f b) := by
  have kept : ∀ t ∈ trace, (t.pre.order j f b).knowledge ≤ (t.post.order j f b).knowledge :=
    fun t taken => knowledge_le_of_step (run.steps t taken) (stays t taken j alive) f hall
  have done : ∀ t ∈ trace, Due t → After (t.post.order j f b) := by
    refine run.forall_transitions
      (fun t => (t.pre.order j f b).knowledge ≤ (t.post.order j f b).knowledge)
      (fun t => Due t → After (t.post.order j f b))
      (fun l => l.Serving OrdersValid (·.valid = true) ∧ Before (l.order j f b)) ?_ kept
      ⟨serving, before⟩
    intro l l' action step more reached
    have after := keeps more reached.2
    exact ⟨⟨reached.1.step OrdersValid.rule step, after⟩, fun now => made reached.1 step now after⟩
  obtain ⟨t, taken, now⟩ := due
  exact run.persists (fun l => After (l.order j f b)) (fun t taken => grows (kept t taken)) taken
    (done t taken now)

/-- So can steps of all nodes, after every run. -/
theorem steps_possible (fits : CostsFit kFloors) {start : Fleet kFloors} (launched : start.Launched)
    (run : Run FleetRestartStep start trace s) (elevs : List (Fin kElevs)) (signals : Signals kFloors) :
    ∃ stepped s', Run FleetRestartStep s stepped s' ∧ Stays live stepped ∧
      ∀ j ∈ elevs, ∃ t ∈ stepped, Steps j t.action := by
  induction elevs generalizing trace s with
  | nil => exact ⟨[], s, .nil s, fun _ member => absurd member List.not_mem_nil,
      fun _ member => absurd member List.not_mem_nil⟩
  | cons j elevs ih =>
    obtain ⟨peers, stepped⟩ := (launched.dispatching run (i := j) (.inl rfl) signals).step_total fits 0
    obtain ⟨l, step⟩ : ∃ l, FleetRestartStep s (.run (.sync j 0 signals)) l := by
      simp only [FleetRestartStep, execRestart, exec, ElevatorNode.sync_eq, stepped, Option.map_some]
      exact ⟨_, rfl⟩
    obtain ⟨stepped, s', rest, stays, others⟩ := ih (run.snoc step)
    refine ⟨_, s', (Run.single step).append rest, fun t member => ?_, fun e member => ?_⟩
    · rcases List.mem_append.1 member with new | other
      · rw [List.mem_singleton.1 new]
        exact fun _ _ => id
      · exact stays t other
    · rcases List.mem_cons.1 member with rfl | other
      · exact ⟨_, List.mem_append_left _ (List.mem_singleton.2 rfl), rfl⟩
      · obtain ⟨t, taken, steps⟩ := others e other
        exact ⟨t, List.mem_append_right _ taken, steps⟩

/-- In every run of a fleet launched at floors: when a live node holds a request for a hall call, the
live nodes hear of each other, each goes through a step, they hear of each other again, and each goes
through a step that finds none but live nodes active, then no live node has the request any more. All
of them have a newer version of the order, or a later decision on the same. Meanwhile the nodes may do
anything else besides, and the others may crash and be launched again. -/
theorem hall_request_dispatched (fits : CostsFit kFloors) (hall : b ≠ .cab)
    {start s₀ s₁ s₂ s₃ s₄ : Fleet kFloors} (launched : start.Launched)
    {told stepped told' stepped' :
      List (Transition (Fleet kFloors) (FleetRestartAction kFloors))}
    (run : Run FleetRestartStep start trace s₀) (first : Run FleetRestartStep s₀ told s₁)
    (second : Run FleetRestartStep s₁ stepped s₂) (third : Run FleetRestartStep s₂ told' s₃)
    (fourth : Run FleetRestartStep s₃ stepped' s₄)
    (stays : Stays live (told ++ stepped ++ told' ++ stepped'))
    (exchanges : s₀.Exchanges live told) (steps : ∀ j ∈ live, ∃ t ∈ stepped, Steps j t.action)
    (exchanges' : s₂.Exchanges live told')
    (steps' : ∀ j ∈ live, ∃ t ∈ stepped', Steps j t.action ∧
      ∀ e, ((t.post.node j).peers.allStates e).active = true → e ∈ live)
    {i : Fin kElevs} (alive : i ∈ live) (requested : (s₀.order i f b).status = .requested) :
    ∀ j ∈ live, (s₀.order i f b).Outdated (s₄.order j f b) := by
  have serves := launched.serving OrdersValid.rule run
  have serves₁ := launched.serving OrdersValid.rule (run.append first)
  have serves₂ := launched.serving OrdersValid.rule ((run.append first).append second)
  have serves₃ := launched.serving OrdersValid.rule (((run.append first).append second).append third)
  have stays₁ : Stays live told := fun t taken => stays t (by simp [taken])
  have stays₂ : Stays live stepped := fun t taken => stays t (by simp [taken])
  have stays₃ : Stays live told' := fun t taken => stays t (by simp [taken])
  have stays₄ : Stays live stepped' := fun t taken => stays t (by simp [taken])
  generalize named : s₀.order i f b = r at requested
  have grows {elevs : Finset (Fin kElevs)} {o o' : Order} (more : o.knowledge ≤ o'.knowledge)
      (reaches : r.Reaches elevs o) : r.Reaches elevs o' := reaches.mono more
  -- all know of the request
  have known : ∀ j ∈ live, r.Reaches ∅ (s₁.order j f b) := by
    intro j member
    have told := @told_of_exchange _ _ _ _ f b _ hall serves first stays₁ exchanges _ _ alive member
    rw [named] at told
    exact (Order.Reaches.refl r).mono told
  -- each has marked it
  have marked : ∀ j ∈ live, r.Reaches {j} (s₂.order j f b) := fun j member =>
    holds_of_steps grows grows hall serves₁ second stays₂ member (steps j member) (known j member)
      fun serving step now reaches => reaches_self fits hall requested serving step now reaches
  -- all know of the marks of all
  have gathered : ∀ j ∈ live, r.Reaches live (s₃.order j f b) := by
    intro j member
    have each : ∀ e ∈ live, r.Reaches {e} (s₃.order j f b) := fun e other =>
      (marked e other).mono (told_of_exchange hall serves₂ third stays₃ exchanges' other member)
    refine Order.Reaches.gather ?_ each
    rcases each j member with newer | ⟨same, -⟩
    · exact .inl newer
    · exact .inr ⟨same, fun _ empty => absurd empty (Finset.notMem_empty _)⟩
  intro j member
  exact holds_of_steps grows (fun more newer => newer.mono more) hall serves₃ fourth stays₄ member
    (steps' j member) (gathered j member)
    fun serving step now reaches => outdated_of_steps fits hall requested serving step now.1 now.2 reaches

/-- A call made at a node that takes another for active is dispatched once all nodes have exchanged
packets and stepped twice. -/
theorem hall_request_dispatched_all : ∃ s₀ s₄ : Fleet Config.kFloors,
    (s₀.order 0 1 .hallUp).status = .requested ∧
    ∀ j ∈ (Finset.univ : Finset (Fin kElevs)),
      (s₀.order 0 1 .hallUp).Outdated (s₄.order j 1 .hallUp) := by
  let called : List (FleetRestartAction Config.kFloors) := [.run (.transmit 1),
    .run (.receive 0 0 50), .run (.sync 0 (.still 60) { floorSensor := 0, buttons := .only 1 .hallUp })]
  have evaluated : (called.foldlM execRestart atBottom).any (fun s₀ =>
      decide ((s₀.order 0 1 .hallUp).status = .requested)) = true := by decide +kernel
  obtain ⟨trace, s₀, run, -, checked⟩ := Run.of_check FleetRestartStep id evaluated
  have requested := of_decide_eq_true checked
  have serves {trace s} (run : Run FleetRestartStep (@atBottom) trace s) :=
    launched_atBottom.serving peersRule_true run
  let all : Finset (Fin kElevs) := Finset.univ
  obtain ⟨told, s₁, first, tells₁, exchanges⟩ := @exchange_possible _ _ all (serves run)
  have run₁ := run.append first
  obtain ⟨stepped, s₂, second, stays₂, steps⟩ := @steps_possible _ _ all _ costsFit_config _
    launched_atBottom run₁ (List.finRange kElevs) { floorSensor := 0 }
  have run₂ := run₁.append second
  obtain ⟨told', s₃, third, tells₃, exchanges'⟩ := @exchange_possible _ _ all (serves run₂)
  have run₃ := run₂.append third
  obtain ⟨stepped', s₄, fourth, stays₄, steps'⟩ := @steps_possible _ _ all _ costsFit_config _
    launched_atBottom run₃ (List.finRange kElevs) { floorSensor := 0 }
  have stays : Stays all (told ++ stepped ++ told' ++ stepped') := by
    intro t member
    simp only [List.mem_append] at member
    rcases member with ((taken | taken) | taken) | taken
    · exact stays_of_tells tells₁ t taken
    · exact stays₂ t taken
    · exact stays_of_tells tells₃ t taken
    · exact stays₄ t taken
  refine ⟨s₀, s₄, requested, hall_request_dispatched costsFit_config (by decide) launched_atBottom run
    first second third fourth stays exchanges (fun j _ => steps j (List.mem_finRange j)) exchanges'
    (fun j _ => ?_) (Finset.mem_univ 0) requested⟩
  obtain ⟨t, taken, now⟩ := steps' j (List.mem_finRange j)
  exact ⟨t, taken, now, fun e _ => Finset.mem_univ e⟩

end Fleet

end CppElevator
