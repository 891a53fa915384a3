import CppElevator.Verif.QuietSteps
import CppElevator.Verif.Reassignments

/-!
# To whom the monitors hand an order

`MonitorWatchdogTimers` takes a confirmed order from an elevator whose watchdog has run out, and
`MonitorFault` takes one from an elevator that reports a fault. Both look at the elevators in the order
of their identities and hand the order to the cheapest other one, from which it is taken again if that
one is still to be looked at. An order comes to rest after two elevators at most have been left for
their faults, and whether the node itself has had it on the way can be told from the view the step
begins with.
-/
namespace CppElevator

open Library

variable {kFloors : Nat}

namespace Peers

open Config

/-- The watchdog of an elevator has run out when a step looks at it. -/
def Silent (p : Peers kFloors) (now : StepClock kFloors) (e : Fin kElevs) : Prop :=
  (p.watchdogTimers e).expired (now (.watchdogExpired e)) = true

/-- An elevator is active, and stays so in a step. -/
def Stays (p : Peers kFloors) (now : StepClock kFloors) (e : Fin kElevs) : Prop :=
  (p.allStates e).active = true ∧ ¬p.Silent now e

/-- An elevator that stays reports a fault. -/
def Faulty (p : Peers kFloors) (now : StepClock kFloors) (e : Fin kElevs) : Prop :=
  p.Stays now e ∧ (p.allStates e).fault = true

/-- Of some elevators and leaving one out, the one with the least cost for an order at a floor. -/
structure CheapestBut (p : Peers kFloors) (among : Fin kElevs → Prop) (floor : Fin kFloors)
    (prev e : Fin kElevs) : Prop where
  /-- It is one of them. -/
  mem : among e
  /-- It is not the one left out. -/
  other : e ≠ prev
  /-- No other comes before it. -/
  least : ∀ i, among i → i ≠ prev →
    CostLe (elevatorCost (p.allStates e) floor, e) (elevatorCost (p.allStates i) floor, i)

/-- An order the monitors take from one elevator is handed to another on its way. -/
inductive ComesTo (p : Peers kFloors) (now : StepClock kFloors) (floor : Fin kFloors)
    (prev e : Fin kElevs) : Prop where
  /-- At once. -/
  | once (cheapest : p.CheapestBut (p.Stays now) floor prev e)
  /-- After one that reports a fault, and is still to be looked at for it. -/
  | twice {between : Fin kElevs} (first : p.CheapestBut (p.Stays now) floor prev between)
      (faulty : p.Faulty now between) (later : p.Silent now prev ∨ prev < between)
      (second : p.CheapestBut (p.Stays now) floor between e)

variable {p p' q q' r watched faulted : Peers kFloors} {now : StepClock kFloors} {f : Fin kFloors}
  {b : BtnType} {x y z : Fin kElevs}

namespace CheapestBut

variable {among : Fin kElevs → Prop}

/-- There is only one. -/
theorem unique (left : p.CheapestBut among f x y) (right : p.CheapestBut among f x z) : y = z := by
  have below := left.least z right.mem right.other
  have above := right.least y left.mem left.other
  unfold CostLe at below above
  dsimp only at below above
  omega

/-- From the second cheapest the order goes back to the cheapest. -/
theorem back (first : p.CheapestBut among f x y) (second : p.CheapestBut among f y z)
    (mem : among x) (other : z ≠ x) : p.CheapestBut among f z y := by
  refine ⟨first.mem, second.other.symm, fun i member _ => ?_⟩
  by_cases start : i = x
  · rw [start]
    exact IsTrans.trans _ _ _ (first.least z second.mem other) (second.least x mem first.other.symm)
  · exact first.least i member start

/-- The cheapest is so for fewer elevators, if it is one of them. -/
theorem mono {fewer : Fin kElevs → Prop} (cheapest : q.CheapestBut among f x y) (mem : fewer y)
    (subset : ∀ i, fewer i → among i ∧ q.allStates i = p.allStates i) :
    p.CheapestBut fewer f x y := by
  refine ⟨mem, cheapest.other, fun i member apart => ?_⟩
  rw [← (subset y mem).2, ← (subset i member).2]
  exact cheapest.least i (subset i member).1 apart

end CheapestBut

/-- A call of `ReassignHallOrder` for an elevator that is not usable hands the order to the cheapest
other one, if there is another. -/
theorem cheapestBut_of_reassignHallOrder (fits : CostsFit kFloors) (placed : q.AllPlaced)
    {o o' : Order} (named : o.assignedId = x.val) (unusable : (q.allStates x).usable = false)
    (alone : q.numElevs = 1 → o.assignedId = q.nodeId.val ∧ ¬q.Accompanied)
    (done : q.reassignHallOrder f o = some o') : ∃ e : Fin kElevs, o' = o.onReassignment e.val ∧
      (q.CheapestBut (fun i => (q.allStates i).active = true) f x e ∨
        e = x ∧ ∀ i, (q.allStates i).active = true → i = x) := by
  unfold reassignHallOrder at done
  split_ifs at done with range single
  all_goals
    have prev : (⟨o.assignedId.toNat, toNat_lt range⟩ : Fin kElevs) = x :=
      Fin.ext (by simp [named])
  · obtain ⟨self, nobody⟩ := alone single
    have own : x = q.nodeId := Fin.ext (Int.ofNat.inj (named.symm.trans self))
    refine ⟨x, ?_, .inr ⟨rfl, fun i active => ?_⟩⟩
    · rw [← Option.some.inj done, ← prev]
    · by_contra apart
      exact nobody ⟨i, own ▸ apart, active⟩
  · obtain ⟨e, found, rfl⟩ := Option.map_eq_some_iff.1 done
    refine ⟨e, rfl, ?_⟩
    rw [prev] at found
    unfold newAssignee at found
    dsimp only at found
    rw [if_pos unusable] at found
    have finite {i : Fin kElevs} (active : (q.allStates i).active = true) :=
      (elevatorCost_lt fits active (placed i) f).ne
    cases picked : (q.calculateElevatorCosts f).find?
        fun c => decide (c.2 ≠ x ∧ c.1 ≠ intMax) with
    | none =>
      right
      rw [picked] at found
      dsimp only [Option.map_none] at found
      split_ifs at found
      refine ⟨(Option.some.inj found).symm, fun i active => ?_⟩
      by_contra apart
      have passed := List.find?_eq_none.1 picked _ (q.mem_calculateElevatorCosts f i)
      simp [apart, finite active] at passed
    | some c =>
      left
      rw [picked] at found
      obtain rfl : c.2 = e := Option.some.inj found
      have chosen := List.find?_some picked
      rw [decide_eq_true_eq] at chosen
      obtain ⟨-, before, after, costs, passed⟩ := List.find?_eq_some_iff_append.1 picked
      have cost := cost_of_mem (List.mem_of_find?_eq_some picked)
      refine ⟨active_of_elevatorCost f (cost ▸ chosen.2), chosen.1, fun i active apart => ?_⟩
      rw [← cost]
      have listed := q.mem_calculateElevatorCosts f i
      rw [costs] at listed
      rcases List.mem_append.1 listed with earlier | here
      · have skipped := passed _ earlier
        simp [apart, finite active] at skipped
      · have sorted : (before ++ c :: after).Pairwise CostLe := by
          rw [← costs]
          exact List.pairwise_insertionSort CostLe _
        rcases List.mem_cons.1 here with same | later
        · rw [same]
          exact refl_of CostLe c
        · exact List.rel_of_pairwise_cons (List.pairwise_append.1 sorted).2.1 later

/-- What a call of `ReassignHallOrder` in a step does with an order of an elevator that is not usable. -/
theorem Dispatches.cheapestBut {caller : Peers kFloors} {result : Option (Peers kFloors)}
    {calls : Fin kFloors → BtnType → Prop} {o : Order} (fits : CostsFit kFloors)
    (dispatches : p.Dispatches) (part : p.TakesPart)
    (pass : p.MonitorPass now q caller result calls) (called : calls f b)
    (named : (q.orders f b).assignedId = x.val) (unusable : (caller.allStates x).usable = false)
    (done : caller.reassignHallOrder f (q.orders f b) = some o) :
    ∃ e : Fin kElevs, o = (q.orders f b).onReassignment e.val ∧
      (caller.CheapestBut (fun i => (caller.allStates i).active = true) f x e ∨
        e = x ∧ ∀ i, (caller.allStates i).active = true → i = x) :=
  cheapestBut_of_reassignHallOrder fits (dispatches.placed_caller pass) named unusable
    (dispatches.alone part pass called) done

/-- The node keeps its own state in the view. -/
theorem TakesPart.stays (part : p.TakesPart) : p.Stays now p.nodeId :=
  ⟨part.active, fun silent => part.apart_of_expired silent rfl⟩

/-- A confirmed order on its way through the monitors: who has it, and whether the node has had it since.
Then its timer has been started, otherwise it is as it was. -/
structure HandedTo (p : Peers kFloors) (now : StepClock kFloors) (f : Fin kFloors) (b : BtnType)
    (q : Peers kFloors) (e : Fin kElevs) (had : Prop) : Prop where
  /-- The passes are those of one node. -/
  nodeId : q.nodeId = p.nodeId
  /-- The order stays confirmed. -/
  confirmed : (q.orders f b).status = .confirmed
  /-- Who has it. -/
  assigned : (q.orders f b).assignedId = e.val
  /-- A timer the node has started. -/
  started : had → ∃ call, q.orderTimers f b = .start (now call) kReassignOrderTimeMs
  /-- A timer the node has not started. -/
  untouched : ¬had → q.orderTimers f b = p.orderTimers f b

namespace HandedTo

variable {had had' : Prop}

/-- Another way to say that the node has had it. -/
theorem congr (handed : p.HandedTo now f b q x had) (same : had ↔ had') :
    p.HandedTo now f b q x had' where
  nodeId := handed.nodeId
  confirmed := handed.confirmed
  assigned := handed.assigned
  started had := handed.started (same.2 had)
  untouched never := handed.untouched (mt same.1 never)

/-- A pass that leaves the order where it is. -/
theorem kept (handed : p.HandedTo now f b q x had) (node : q'.nodeId = q.nodeId)
    (same : q'.cell (f, b) = q.cell (f, b)) : p.HandedTo now f b q' x had where
  nodeId := node.trans handed.nodeId
  confirmed := by
    rw [orders_of_cell same]
    exact handed.confirmed
  assigned := by
    rw [orders_of_cell same]
    exact handed.assigned
  started had := by
    rw [orderTimers_of_cell same]
    exact handed.started had
  untouched never := by
    rw [orderTimers_of_cell same]
    exact handed.untouched never

/-- A call of `ReassignHallOrder`. -/
theorem call {caller : Peers kFloors} {call : ClockCall kFloors}
    (handed : p.HandedTo now f b q x had) (node : q'.nodeId = q.nodeId)
    (self : caller.nodeId = q.nodeId)
    (called : caller.reassignCell (now call) f (q.cell (f, b)) = some (q'.cell (f, b)))
    (goes : (q'.cell (f, b)).1 = (q.orders f b).onReassignment y.val) :
    p.HandedTo now f b q' y (had ∨ y = p.nodeId) := by
  have order : q'.orders f b = (q.orders f b).onReassignment y.val := goes
  have owner : (q'.cell (f, b)).1.assignedId = y.val := by
    rw [goes]
    rfl
  have own : (q'.cell (f, b)).1.assignedId = caller.nodeId.val ↔ y = p.nodeId := by
    rw [owner, self, handed.nodeId]
    exact ⟨fun same => Fin.ext (Int.ofNat.inj same), fun same => by rw [same]⟩
  refine ⟨node.trans handed.nodeId, ?_, owner, fun had => ?_, fun never => ?_⟩
  · rw [order]
    exact handed.confirmed
  · rcases (reassignCell_cases called).2 with ⟨-, fresh⟩ | ⟨other, same⟩
    · exact ⟨call, fresh⟩
    · obtain ⟨earlier, started⟩ := handed.started (had.resolve_right (mt own.2 other))
      exact ⟨earlier, same.trans started⟩
  · rcases (reassignCell_cases called).2 with ⟨self, -⟩ | ⟨-, same⟩
    · exact absurd (.inr (own.1 self)) never
    · exact same.trans (handed.untouched fun had => never (.inl had))

end HandedTo

/-- Nobody takes an order from an elevator that is not silent for its silence. -/
theorem cell_of_watched (watch : p.updateNumElevs.monitorWatchdogTimers now = some watched)
    (hall : b ≠ .cab) (assigned : (p.orders f b).assignedId = x.val) (heard : ¬p.Silent now x) :
    watched.cell (f, b) = p.cell (f, b) := by
  have running : (p.watchdogTimers x).expired (now (.watchdogExpired x)) = false :=
    Bool.eq_false_iff.2 heard
  refine (invariant_of_foldlM (fun q => q.cell (f, b) = p.cell (f, b) ∧
    (q.watchdogTimers x).expired (now (.watchdogExpired x)) = false) ?_ watch ⟨rfl, running⟩).1
  rintro q q' e pass ⟨same, running⟩
  by_cases here : e = x
  · rw [monitorWatchdogTimer, here, running] at pass
    obtain rfl := Option.some.inj pass
    exact ⟨same, running⟩
  · rw [(frame_monitorWatchdogTimer pass (Ne.symm here)).2]
    refine ⟨?_, running⟩
    rcases (monitor_watchdogs now).cases pass hall with ⟨kept, -⟩ | ⟨⟨-, -, named⟩, -⟩
    · exact kept.trans same
    · rw [orders_of_cell same] at named
      exact absurd (Fin.ext (Int.ofNat.inj (named.symm.trans assigned))) here

/-- Who is left in the view after `MonitorWatchdogTimers`. -/
theorem stays_iff (watch : p.updateNumElevs.monitorWatchdogTimers now = some watched) (e : Fin kElevs) :
    (watched.allStates e).active = true ↔ p.Stays now e := by
  rw [allStates_monitorWatchdogTimers watch e]
  unfold Stays Silent
  split_ifs with silent
  · simp only [ElevatorState.onWatchdogTimeout, Bool.false_eq_true, false_iff]
    exact fun stays => stays.2 silent
  · exact ⟨fun active => ⟨active, silent⟩, fun stays => stays.1⟩

/-- Their states are those the step begins with. -/
theorem Stays.state (stays : p.Stays now x)
    (watch : p.updateNumElevs.monitorWatchdogTimers now = some watched) :
    watched.allStates x = p.allStates x :=
  (allStates_monitorWatchdogTimers watch x).trans (if_neg stays.2)

/-- An iteration of `MonitorWatchdogTimers` for a silent elevator takes it out of the view. -/
theorem view_of_due {e : Fin kElevs} (pass : q.monitorWatchdogTimer now e = some q')
    (due : watchdogDue now q e = true) (i : Fin kElevs) :
    (q'.allStates i).active = true ↔ i ≠ e ∧ (q.allStates i).active = true := by
  by_cases here : i = e
  · subst here
    have expired : (q.watchdogTimers i).expired (now (.watchdogExpired i)) = true := due
    have looked := congrArg Prod.fst (regard_monitorWatchdogTimer pass)
    rw [Peers.watch, if_pos expired] at looked
    rw [show q'.allStates i = (q.allStates i).onWatchdogTimeout from looked]
    simp [ElevatorState.onWatchdogTimeout]
  · rw [(frame_monitorWatchdogTimer pass here).1]
    exact ⟨fun active => ⟨here, active⟩, fun active => active.2⟩

/-- The order of a silent elevator on its way through `MonitorWatchdogTimers`: it is still to be taken
from the elevator, or it is with the cheapest of those in the view. -/
inductive FromSilent (p : Peers kFloors) (now : StepClock kFloors) (f : Fin kFloors) (b : BtnType)
    (prev : Fin kElevs) (q : Peers kFloors) : Prop where
  /-- Still to be taken. -/
  | waits (active : (q.allStates prev).active = true)
      (watchdog : q.watchdogTimers prev = p.watchdogTimers prev)
      (handed : p.HandedTo now f b q prev False)
  /-- Taken. -/
  | taken {e : Fin kElevs} (inactive : (q.allStates prev).active = false)
      (handed : p.HandedTo now f b q e (e = p.nodeId))
      (cheapest : q.CheapestBut (fun i => (q.allStates i).active = true) f prev e)

/-- An order of an elevator an iteration of `MonitorWatchdogTimers` finds silent. -/
theorem HandedTo.silenced {had : Prop} {earlier later : List (Fin kElevs)} {e : Fin kElevs}
    (handed : p.HandedTo now f b q e had) (fits : CostsFit kFloors) (dispatches : p.Dispatches)
    (part : p.TakesPart) (hall : b ≠ .cab) (visited : List.finRange kElevs = earlier ++ e :: later)
    (reached : earlier.foldlM (monitorWatchdogTimer now) p.updateNumElevs = some q)
    (pass : q.monitorWatchdogTimer now e = some q') (due : watchdogDue now q e = true) :
    ∃ y, p.HandedTo now f b q' y (had ∨ y = p.nodeId) ∧
      q'.CheapestBut (fun i => (q'.allStates i).active = true) f e y := by
  rcases (monitor_watchdogs now).cases pass hall with ⟨-, other⟩ | ⟨named, called⟩
  · exact absurd ⟨due, handed.confirmed, handed.assigned⟩ other
  have unusable : ((q.silenced e).allStates e).usable = false := by
    rw [show (q.silenced e).allStates e = (q.allStates e).onWatchdogTimeout from
      Function.update_self _ _ _]
    rfl
  obtain ⟨y, goes, cheapest | ⟨-, nobody⟩⟩ := dispatches.cheapestBut fits part
    (.watchdog visited reached) ⟨due, hall, named.2⟩ named.2.2 unusable (reassignCell_cases called).1
  · have node := (monitor_watchdogs now).node pass
    have self : (q.silenced e).nodeId = q.nodeId := rfl
    refine ⟨y, handed.call node self called goes, ?_⟩
    have state {i : Fin kElevs} (apart : i ≠ e) :
        (q.silenced e).allStates i = q'.allStates i := by
      rw [(frame_monitorWatchdogTimer pass apart).1]
      exact silenced_allStates apart
    refine cheapest.mono ?_ fun i active => ?_
    · rw [← state cheapest.other]
      exact cheapest.mem
    · have same := state ((view_of_due pass due i).1 active).1
      exact ⟨by rw [same]; exact active, same⟩
  · have here := part.updateNumElevs.watched reached
    have apart := here.apart_of_expired due
    exact absurd (nobody q.nodeId (here.silenced apart).active) apart

/-- An iteration of `MonitorWatchdogTimers` on the order of a silent elevator. -/
theorem FromSilent.iteration (before : p.FromSilent now f b x q) (fits : CostsFit kFloors)
    (dispatches : p.Dispatches) (part : p.TakesPart) (silent : p.Silent now x) (hall : b ≠ .cab)
    {earlier later : List (Fin kElevs)} {e : Fin kElevs}
    (visited : List.finRange kElevs = earlier ++ e :: later)
    (reached : earlier.foldlM (monitorWatchdogTimer now) p.updateNumElevs = some q)
    (pass : q.monitorWatchdogTimer now e = some q') : p.FromSilent now f b x q' := by
  have node := (monitor_watchdogs now).node pass
  have elsewhere {i : Fin kElevs} {had : Prop} (handed : p.HandedTo now f b q i had) (apart : i ≠ e) :
      p.HandedTo now f b q' i had := by
    refine handed.kept node ?_
    rcases (monitor_watchdogs now).cases pass hall with ⟨kept, -⟩ | ⟨named, -⟩
    · exact kept
    · exact absurd (Fin.ext (Int.ofNat.inj (handed.assigned.symm.trans named.2.2))) apart
  cases before with
  | waits active watchdog handed =>
    by_cases here : x = e
    · subst here
      have due : watchdogDue now q x = true := by
        unfold watchdogDue
        rw [watchdog]
        exact silent
      obtain ⟨y, handed, cheapest⟩ := handed.silenced fits dispatches part hall visited reached pass due
      refine .taken ?_ (handed.congr (by simp)) cheapest
      exact Bool.eq_false_iff.2 fun active => ((view_of_due pass due x).1 active).1 rfl
    · obtain ⟨state, timer⟩ := frame_monitorWatchdogTimer pass here
      exact .waits (by rw [state]; exact active) (timer.trans watchdog) (elsewhere handed here)
  | @taken i inactive handed cheapest =>
    by_cases due : watchdogDue now q e = true
    · have view := view_of_due pass due
      have gone : (q'.allStates x).active = false := by
        refine Bool.eq_false_iff.2 fun active => ?_
        rw [((view x).1 active).2] at inactive
        cases inactive
      by_cases here : i = e
      · subst here
        have apart : i ≠ p.nodeId := by
          rw [← handed.nodeId]
          exact ((part.updateNumElevs.watched reached).apart_of_expired due).symm
        obtain ⟨y, handed, next⟩ :=
          handed.silenced fits dispatches part hall visited reached pass due
        refine .taken gone (handed.congr (or_iff_right apart)) ⟨next.mem, ?_, fun j active _ =>
          next.least j active ((view j).1 active).1⟩
        rintro rfl
        exact Bool.false_ne_true (gone.symm.trans next.mem)
      · refine .taken gone (elsewhere handed here) (cheapest.mono ((view i).2 ⟨here, cheapest.mem⟩)
          fun j active => ?_)
        obtain ⟨apart, active⟩ := (view j).1 active
        exact ⟨active, (frame_monitorWatchdogTimer pass apart).1.symm⟩
    · have same : q' = q := by
        have pass := pass
        rw [(monitor_watchdogs now).body, if_neg due] at pass
        exact (Option.some.inj pass).symm
      rw [same]
      exact .taken inactive handed cheapest

/-- `MonitorWatchdogTimers` hands the order of a silent elevator to the cheapest one that stays. -/
theorem cheapest_of_silent (fits : CostsFit kFloors) (dispatches : p.Dispatches) (part : p.TakesPart)
    (watch : p.updateNumElevs.monitorWatchdogTimers now = some watched) (hall : b ≠ .cab)
    (confirmed : (p.orders f b).status = .confirmed) (assigned : (p.orders f b).assignedId = x.val)
    (silent : p.Silent now x) : ∃ e, p.HandedTo now f b watched e (e = p.nodeId) ∧
      p.CheapestBut (p.Stays now) f x e := by
  have active : (p.allStates x).active = true :=
    (dispatches.watching.watched x (Timer.active_of_expired silent)).2
  have start : p.FromSilent now f b x p.updateNumElevs :=
    .waits active rfl ⟨rfl, confirmed, assigned, False.elim, fun _ => rfl⟩
  have last : p.FromSilent now f b x watched :=
    invariant_of_reached (p.FromSilent now f b x) (fun visited reached pass before =>
      before.iteration fits dispatches part silent hall visited reached pass) watch start
  cases last with
  | waits active _ _ => exact absurd silent ((stays_iff watch x).1 active).2
  | @taken e inactive handed cheapest =>
    refine ⟨e, handed, cheapest.mono ((stays_iff watch e).1 cheapest.mem) fun i stays => ?_⟩
    exact ⟨(stays_iff watch i).2 stays, stays.state watch⟩

/-- Who reports a fault to `MonitorFault`. -/
theorem faultDue_iff (watch : p.updateNumElevs.monitorWatchdogTimers now = some watched)
    (view : q.allStates = watched.allStates) (e : Fin kElevs) :
    faultDue q e = true ↔ p.Faulty now e := by
  unfold faultDue Faulty
  rw [view, Bool.and_eq_true, stays_iff watch]
  exact and_congr_right fun stays => by rw [stays.state watch]

/-- An order stays with an elevator that reports no fault, or is not looked at any more. -/
theorem HandedTo.past {had : Prop} {rest : List (Fin kElevs)} (handed : p.HandedTo now f b q x had)
    (watch : p.updateNumElevs.monitorWatchdogTimers now = some watched) (hall : b ≠ .cab)
    (view : q.allStates = watched.allStates) (sound : x ∈ rest → ¬p.Faulty now x)
    (ends : rest.foldlM (monitorFaultOf now) q = some r) : p.HandedTo now f b r x had := by
  refine (invariant_of_reached (fun r => p.HandedTo now f b r x had ∧ r.allStates = watched.allStates)
    ?_ ends ⟨handed, view⟩).1
  rintro earlier e later r r' visited - pass ⟨handed, view⟩
  refine ⟨handed.kept ((monitor_faults now).node pass) ?_, (allStates_monitorFaultOf pass).trans view⟩
  rcases (monitor_faults now).cases pass hall with ⟨kept, -⟩ | ⟨⟨due, -, named⟩, -⟩
  · exact kept
  · obtain rfl : x = e := Fin.ext (Int.ofNat.inj (handed.assigned.symm.trans named))
    have member : x ∈ rest := by
      rw [visited]
      exact List.mem_append_right _ List.mem_cons_self
    exact absurd ((faultDue_iff watch view x).1 due) (sound member)

/-- `MonitorFault` with the elevators it has still to look at. -/
structure FaultsLeft (watched faulted : Peers kFloors) (now : StepClock kFloors)
    (rest : List (Fin kElevs)) (q : Peers kFloors) : Prop where
  /-- The elevators it has looked at. -/
  reached : ∃ earlier, List.finRange kElevs = earlier ++ rest ∧
    earlier.foldlM (monitorFaultOf now) watched = some q
  /-- It goes on to the end. -/
  ends : rest.foldlM (monitorFaultOf now) q = some faulted

namespace FaultsLeft

variable {rest after : List (Fin kElevs)} {had : Prop}

/-- The view is the one `MonitorWatchdogTimers` has left. -/
theorem allStates (left : FaultsLeft watched faulted now rest q) : q.allStates = watched.allStates := by
  obtain ⟨earlier, -, reached⟩ := left.reached
  exact invariant_of_foldlM (fun r => r.allStates = watched.allStates)
    (fun pass same => (allStates_monitorFaultOf pass).trans same) reached rfl

/-- It goes past some of them. -/
theorem skip {before : List (Fin kElevs)} (left : FaultsLeft watched faulted now (before ++ rest) q) :
    ∃ r, before.foldlM (monitorFaultOf now) q = some r ∧ FaultsLeft watched faulted now rest r := by
  obtain ⟨earlier, visited, reached⟩ := left.reached
  have ends := left.ends
  rw [List.foldlM_append] at ends
  obtain ⟨r, passed, ends⟩ := Option.bind_eq_some_iff.1 ends
  refine ⟨r, passed, ⟨earlier ++ before, by rw [visited, List.append_assoc], ?_⟩, ends⟩
  rw [List.foldlM_append, reached]
  exact passed

/-- Those before the next one have been looked at. -/
theorem mem_iff (left : FaultsLeft watched faulted now (x :: rest) q) (i : Fin kElevs) :
    i ∈ rest ↔ x < i := by
  obtain ⟨earlier, visited, -⟩ := left.reached
  have sorted := List.pairwise_lt_finRange kElevs
  rw [visited] at sorted
  obtain ⟨-, above, below⟩ := List.pairwise_append.1 sorted
  refine ⟨(List.pairwise_cons.1 above).1 i, fun later => ?_⟩
  have listed := List.mem_finRange i
  rw [visited] at listed
  rcases List.mem_append.1 listed with early | here
  · exact absurd (below i early x List.mem_cons_self) (lt_asymm later)
  · exact (List.mem_cons.1 here).resolve_left later.ne'

/-- An order of an elevator with a fault that is looked at goes to the cheapest other elevator that
stays, if there is another. -/
theorem call (left : FaultsLeft watched faulted now (x :: rest) q)
    (watch : p.updateNumElevs.monitorWatchdogTimers now = some watched) (fits : CostsFit kFloors)
    (dispatches : p.Dispatches) (part : p.TakesPart) (hall : b ≠ .cab)
    (handed : p.HandedTo now f b q x had) (faulty : p.Faulty now x)
    (pass : q.monitorFaultOf now x = some q') : ∃ y, p.HandedTo now f b q' y (had ∨ y = p.nodeId) ∧
      (p.CheapestBut (p.Stays now) f x y ∨ y = x ∧ ∀ i, p.Stays now i → i = x) := by
  obtain ⟨earlier, visited, reached⟩ := left.reached
  have due := (faultDue_iff watch left.allStates x).2 faulty
  rcases (monitor_faults now).cases pass hall with ⟨-, other⟩ | ⟨named, called⟩
  · exact absurd ⟨due, handed.confirmed, handed.assigned⟩ other
  have unusable : (q.allStates x).usable = false := by
    rw [left.allStates, faulty.1.state watch]
    simp [ElevatorState.usable, faulty.2]
  have active (i : Fin kElevs) : (q.allStates i).active = true ↔ p.Stays now i := by
    rw [left.allStates]
    exact stays_iff watch i
  obtain ⟨y, goes, cheapest⟩ := dispatches.cheapestBut fits part (.fault watch visited reached)
    ⟨due, hall, named.2⟩ named.2.2 unusable (reassignCell_cases called).1
  refine ⟨y, handed.call ((monitor_faults now).node pass) rfl called goes, cheapest.imp ?_ ?_⟩
  · refine fun cheapest => cheapest.mono ((active y).1 cheapest.mem) fun i stays => ⟨(active i).2 stays, ?_⟩
    rw [left.allStates]
    exact stays.state watch
  · exact And.imp_right fun nobody i stays => nobody i ((active i).2 stays)

/-- It goes on to an elevator with a fault, and takes an order from that one. -/
theorem hand (left : FaultsLeft watched faulted now rest q)
    (watch : p.updateNumElevs.monitorWatchdogTimers now = some watched) (fits : CostsFit kFloors)
    (dispatches : p.Dispatches) (part : p.TakesPart) (hall : b ≠ .cab)
    (handed : p.HandedTo now f b q x had) (member : x ∈ rest) (faulty : p.Faulty now x) :
    ∃ rest' q' y, FaultsLeft watched faulted now rest' q' ∧ (∀ i, i ∈ rest' ↔ x < i) ∧
      p.HandedTo now f b q' y (had ∨ y = p.nodeId) ∧
      (p.CheapestBut (p.Stays now) f x y ∨ y = x ∧ ∀ i, p.Stays now i → i = x) := by
  obtain ⟨before, after, rfl, fresh⟩ := List.eq_append_cons_of_mem member
  obtain ⟨r, passed, here⟩ := left.skip
  have waits := handed.past watch hall left.allStates (fun member => absurd member fresh) passed
  obtain ⟨r', pass, next⟩ := @skip _ r _ _ _ after [x] here
  have iteration : r.monitorFaultOf now x = some r' := by
    simpa using pass
  obtain ⟨y, given⟩ := here.call watch fits dispatches part hall waits faulty iteration
  exact ⟨after, r', y, next, here.mem_iff, given⟩

end FaultsLeft

/-- An elevator is the cheapest one if it is the one. -/
theorem CheapestBut.iff {among : Fin kElevs → Prop} (cheapest : p.CheapestBut among f x y) :
    p.CheapestBut among f x z ↔ y = z := by
  refine ⟨cheapest.unique, ?_⟩
  rintro rfl
  exact cheapest

/-- An order can come to an elevator from one that stays in two ways. -/
theorem comesTo_iff (stays : p.Stays now x) (first : p.CheapestBut (p.Stays now) f x y) :
    p.ComesTo now f x z ↔
      y = z ∨ (x < y ∧ p.Faulty now y) ∧ p.CheapestBut (p.Stays now) f y z := by
  constructor
  · rintro (cheapest | ⟨first', faulty, later, second⟩)
    · exact .inl (first.unique cheapest)
    · obtain rfl := first'.unique first
      exact .inr ⟨⟨later.resolve_left stays.2, faulty⟩, second⟩
  · rintro (rfl | ⟨⟨later, faulty⟩, second⟩)
    · exact .once first
    · exact .twice first faulty (.inr later) second

/-- The node has had an order `MonitorFault` takes from an elevator with a fault exactly when it had it
before, the order has come to it, or it is the only one left. -/
theorem HandedTo.after_faults {had : Prop} (handed : p.HandedTo now f b watched x had)
    (watch : p.updateNumElevs.monitorWatchdogTimers now = some watched)
    (fault : watched.monitorFault now = some faulted) (fits : CostsFit kFloors)
    (dispatches : p.Dispatches) (part : p.TakesPart) (hall : b ≠ .cab) (faulty : p.Faulty now x) :
    ∃ e had', p.HandedTo now f b faulted e had' ∧ (e = p.nodeId → had') ∧
      (had' ↔ had ∨ p.ComesTo now f x p.nodeId ∨ ∀ i, p.Stays now i → i = x) := by
  have left : FaultsLeft watched faulted now (List.finRange kElevs) watched := ⟨⟨[], rfl, rfl⟩, fault⟩
  obtain ⟨rest₁, q₁, y, left₁, looked₁, handed₁, first | ⟨rfl, nobody⟩⟩ :=
    left.hand watch fits dispatches part hall handed (List.mem_finRange x) faulty
  · have several : ¬∀ i, p.Stays now i → i = x := fun nobody => first.other (nobody y first.mem)
    rw [comesTo_iff faulty.1 first, or_iff_left several]
    by_cases again : x < y ∧ p.Faulty now y
    · obtain ⟨rest₂, q₂, z, left₂, looked₂, handed₂, second | ⟨-, nobody⟩⟩ :=
        left₁.hand watch fits dispatches part hall handed₁ ((looked₁ y).2 again.1) again.2
      · rw [second.iff, and_iff_right again]
        by_cases back : y < z ∧ p.Faulty now z
        · -- the third elevator hands the order back to the second, which has been looked at
          have other : z ≠ x := by
            rintro rfl
            exact lt_asymm again.1 back.1
          obtain ⟨rest₃, q₃, w, left₃, looked₃, handed₃, third | ⟨-, nobody⟩⟩ :=
            left₂.hand watch fits dispatches part hall handed₂ ((looked₂ z).2 back.1) back.2
          · obtain rfl := third.unique (first.back second faulty.1 other)
            have last := handed₃.past watch hall left₃.allStates
              (fun member => absurd ((looked₃ w).1 member) (lt_asymm back.1)) left₃.ends
            refine ⟨w, _, last, .inr, (or_iff_left_of_imp ?_).trans or_assoc⟩
            exact fun own => .inl (.inr own)
          · exact absurd (nobody y first.mem) second.other.symm
        · have last := handed₂.past watch hall left₂.allStates
            (fun member faulty => back ⟨(looked₂ z).1 member, faulty⟩) left₂.ends
          exact ⟨z, _, last, .inr, or_assoc⟩
      · exact absurd (nobody x faulty.1) first.other.symm
    · have last := handed₁.past watch hall left₁.allStates
        (fun member faulty => again ⟨(looked₁ y).1 member, faulty⟩) left₁.ends
      refine ⟨y, _, last, .inr, or_congr_right ?_⟩
      exact (or_iff_left fun found => again found.1).symm
  · have last := handed₁.past watch hall left₁.allStates
      (fun member => absurd ((looked₁ y).1 member) (lt_irrefl y)) left₁.ends
    exact ⟨y, _, last, .inr, iff_of_true (.inr (nobody _ part.stays).symm) (.inr (.inr nobody))⟩

/-- The monitors leave a confirmed order with an elevator that stays and reports no fault. -/
theorem handedTo_of_sound (watch : p.updateNumElevs.monitorWatchdogTimers now = some watched)
    (fault : watched.monitorFault now = some faulted) (hall : b ≠ .cab)
    (confirmed : (p.orders f b).status = .confirmed) (assigned : (p.orders f b).assignedId = x.val)
    (heard : ¬p.Silent now x) (sound : ¬p.Faulty now x) : p.HandedTo now f b faulted x False := by
  have start : p.HandedTo now f b p x False := ⟨rfl, confirmed, assigned, False.elim, fun _ => rfl⟩
  have node : watched.nodeId = p.nodeId := (advances_monitorWatchdogTimers watch).nodeId
  exact (start.kept node (cell_of_watched watch hall assigned heard)).past watch hall rfl
    (fun _ => sound) fault

/-- From a silent elevator it can come to another one in two ways. -/
theorem comesTo_of_silent (silent : p.Silent now x) (first : p.CheapestBut (p.Stays now) f x y) :
    p.ComesTo now f x z ↔ y = z ∨ p.Faulty now y ∧ p.CheapestBut (p.Stays now) f y z := by
  constructor
  · rintro (cheapest | ⟨first', faulty, -, second⟩)
    · exact .inl (first.unique cheapest)
    · obtain rfl := first'.unique first
      exact .inr ⟨faulty, second⟩
  · rintro (rfl | ⟨faulty, second⟩)
    · exact .once first
    · exact .twice first faulty (.inl silent) second

/-- The node has had an order the monitors take from an elevator exactly when the order has come to it, or
the elevator is the only one left. -/
theorem handedTo_of_taken (watch : p.updateNumElevs.monitorWatchdogTimers now = some watched)
    (fault : watched.monitorFault now = some faulted) (fits : CostsFit kFloors)
    (dispatches : p.Dispatches) (part : p.TakesPart) (hall : b ≠ .cab)
    (confirmed : (p.orders f b).status = .confirmed) (assigned : (p.orders f b).assignedId = x.val)
    (taken : p.Silent now x ∨ p.Faulty now x) :
    ∃ e had, p.HandedTo now f b faulted e had ∧ (e = p.nodeId → had) ∧
      (had ↔ p.ComesTo now f x p.nodeId ∨ ∀ i, p.Stays now i → i = x) := by
  have node : watched.nodeId = p.nodeId := (advances_monitorWatchdogTimers watch).nodeId
  by_cases silent : p.Silent now x
  · obtain ⟨e, handed, first⟩ :=
      cheapest_of_silent fits dispatches part watch hall confirmed assigned silent
    have several : ¬∀ i, p.Stays now i → i = x := fun nobody => first.other (nobody e first.mem)
    rw [or_iff_left several]
    rw [comesTo_of_silent silent first]
    by_cases faulty : p.Faulty now e
    · obtain ⟨e', had, handed, own, same⟩ :=
        handed.after_faults watch fault fits dispatches part hall faulty
      refine ⟨e', had, handed, own, same.trans ⟨?_, ?_⟩⟩
      · rintro (self | (cheapest | @⟨y, next, -, -, back⟩) | nobody)
        · exact .inl self
        · exact .inr ⟨faulty, cheapest⟩
        · -- the cheapest of all is the cheapest but the second
          have again : p.CheapestBut (p.Stays now) f y e := by
            refine ⟨first.mem, next.other.symm, fun i stays _ => first.least i stays ?_⟩
            rintro rfl
            exact stays.2 silent
          exact .inl (again.unique back)
        · exact .inl (nobody _ part.stays).symm
      · rintro (self | ⟨-, cheapest⟩)
        · exact .inl self
        · exact .inr (.inl (.once cheapest))
    · refine ⟨e, _, handed.past watch hall rfl (fun _ => faulty) fault, id, ?_⟩
      exact (or_iff_left fun found => faulty found.1).symm
  · have start : p.HandedTo now f b p x False := ⟨rfl, confirmed, assigned, False.elim, fun _ => rfl⟩
    have here := start.kept node (cell_of_watched watch hall assigned silent)
    obtain ⟨e, had, handed, own, same⟩ := here.after_faults watch fault fits dispatches part hall
      (taken.resolve_left silent)
    exact ⟨e, had, handed, own, by rw [same, false_or]⟩

end Peers

end CppElevator
