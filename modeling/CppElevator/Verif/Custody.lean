import CppElevator.Library.Registers
import CppElevator.Verif.OrderGrowth
import CppElevator.Verif.OrderTimeouts

/-!
# How long a node keeps an order

A hall order that a node confirms to itself, or is given, comes with a timer, and no operation of the
node sets that timer back without a new version of the order. Whatever the node is sent, a step that
finds the timer run out gives the order a new version. The same order therefore never stays with a node
for longer than the time its timer was started with.
-/
namespace CppElevator

open Library

variable {kFloors : Nat}

/-- The clock goes on while a step lasts by no more than an obstructed node lets its timers be off. -/
def StepClock.Brisk (now : StepClock kFloors) : Prop :=
  ∀ call call', now call ≤ now call' + 5 * Config.kSampleTimeMs

/-- A clock that stands still is brisk. -/
theorem StepClock.brisk_still (now : Nat) : (StepClock.still now : StepClock kFloors).Brisk :=
  fun _ _ => Nat.le_add_right _ _

/-- The clock of an operation is brisk, if it is a step. -/
def SoloAction.Brisk : SoloAction kFloors → Prop
  | .step now => now.Brisk
  | _ => True

namespace Peers

open Config

variable {p p' : Peers kFloors} {now : StepClock kFloors} {f : Fin kFloors} {b : BtnType}

/-- An order is confirmed to the node. -/
def Holds (p : Peers kFloors) (f : Fin kFloors) (b : BtnType) : Prop :=
  (p.orders f b).status = .confirmed ∧ (p.orders f b).assignedId = p.nodeId.val

instance (p : Peers kFloors) (f : Fin kFloors) (b : BtnType) : Decidable (p.Holds f b) :=
  inferInstanceAs (Decidable (_ ∧ _))

/-- A call of `ReassignHallOrder` gives the order a new version. -/
theorem version_of_reassignCell {start : Nat} {floor : Fin kFloors} {cell cell' : Order × Timer}
    (done : p.reassignCell start floor cell = some cell') : cell.1.version < cell'.1.version := by
  rw [version_reassignCell done]
  exact Nat.lt_succ_self _

namespace Monitor

variable {starts : Fin kElevs → Fin kFloors × BtnType → Nat}
  {pass : Peers kFloors → Fin kElevs → Option (Peers kFloors)}
  {due : Peers kFloors → Fin kElevs → Bool} {caller : Peers kFloors → Fin kElevs → Peers kFloors}
  {q q' : Peers kFloors} {e : Fin kElevs} {elevs : List (Fin kElevs)}

/-- A pass over the elevators leaves a cell alone or gives its order a new version. -/
theorem cell_or_later (monitor : Monitor starts pass due caller) (done : elevs.foldlM pass q = some q')
    (hall : b ≠ .cab) :
    q'.cell (f, b) = q.cell (f, b) ∨ (q.orders f b).version < (q'.orders f b).version := by
  refine invariant_of_foldlM (fun r => r.cell (f, b) = q.cell (f, b) ∨
    (q.orders f b).version < (r.orders f b).version) ?_ done (.inl rfl)
  intro r r' i iteration before
  have moved : r'.cell (f, b) = r.cell (f, b) ∨
      (r.orders f b).version < (r'.orders f b).version := by
    rcases monitor.cases iteration hall with ⟨kept, -⟩ | ⟨-, called⟩
    · exact .inl kept
    · exact .inr (version_of_reassignCell called)
  rcases before with same | later
  · rcases moved with kept | newer
    · exact .inl (kept.trans same)
    · right
      rwa [show r.orders f b = q.orders f b from congrArg Prod.fst same] at newer
  · right
    rcases moved with kept | newer
    · rwa [show r'.orders f b = r.orders f b from congrArg Prod.fst kept]
    · exact later.trans newer

end Monitor

/-- A step that gives a confirmed order no new version has found its timer running and has left its
cell to the last pass. -/
theorem timed_of_step (done : p.step now = some p') (hall : b ≠ .cab)
    (confirmed : (p.orders f b).status = .confirmed)
    (same : (p'.orders f b).version = (p.orders f b).version) :
    ∃ timed : Peers kFloors, p' = timed.controlHallOrderTimers now ∧
      timed.cell (f, b) = p.cell (f, b) ∧ timed.nodeId = p.nodeId ∧
      (timed.allStates p.nodeId).obstruction = (p.allStates p.nodeId).obstruction ∧
      (p.orderTimers f b).expired (now (.timerExpired (f, b))) = false := by
  obtain ⟨watched, faulted, timed, watch, fault, timers, rfl⟩ := step_cases done
  have last : (timed.orders f b).version = (p.orders f b).version := by
    rw [← same, orders_of_controlHallOrderTimers timed now hall]
  have counted := advances_updateNumElevs p
  have beyondTimers := version_le_of_path ((advances_monitorHallOrderTimers timers).hall f b hall)
  have beyondReset := version_le_of_path ((advances_observeOrders faulted).trans
    ((advances_confirmHallOrders _ now).trans (advances_resetHallOrders _)) |>.hall f b hall)
  have beyondFault := version_le_of_path ((advances_monitorFault fault).hall f b hall)
  have afterWatch : watched.cell (f, b) = p.cell (f, b) := by
    rcases (monitor_watchdogs now).cell_or_later watch hall with kept | (newer : _ < _)
    · exact kept
    · change (p.orders f b).version < _ at newer
      omega
  have afterFault : faulted.cell (f, b) = p.cell (f, b) := by
    rcases (monitor_faults now).cell_or_later fault hall with kept | newer
    · exact kept.trans afterWatch
    · rw [show watched.orders f b = p.orders f b from congrArg Prod.fst afterWatch] at newer
      omega
  have held : (faulted.orders f b).status = .confirmed := by
    rwa [orders_of_cell afterFault]
  have before : (faulted.observeOrders.confirmHallOrders now).resetHallOrders.cell (f, b) =
    p.cell (f, b) := (cell_of_confirmed rfl held).trans afterFault
  have reached := orders_of_cell before
  have running : (p.orderTimers f b).expired (now (.timerExpired (f, b))) = false := by
    rcases monitorHallOrderTimers_cases (f := f) timers hall with ⟨-, idle⟩ | ⟨-, called⟩
    · rw [reached, orderTimers_of_cell before] at idle
      exact Bool.eq_false_iff.2 fun expired => idle ⟨expired, confirmed⟩
    · have newer := version_of_reassignCell called
      dsimp only at newer
      rw [reached] at newer
      change (p.orders f b).version < (timed.orders f b).version at newer
      omega
  have kept := cell_monitorHallOrderTimers timers hall (by
    rw [orderTimers_of_cell before]
    exact running)
  refine ⟨timed, rfl, kept.trans before, ?_, ?_, running⟩
  · exact (advances_untilTimers watch fault).trans (advances_monitorHallOrderTimers timers) |>.nodeId
  · rcases ((advances_untilTimers watch fault).trans
      (advances_monitorHallOrderTimers timers)).states p.nodeId with kept | timedOut
    · rw [kept]
    · rw [timedOut]
      rfl

/-- The last pass on an order the node holds whose timer runs: an obstructed node may shorten the time
that is left, and nothing else happens. -/
theorem orderTimers_of_held (now : StepClock kFloors) (holds : p.Holds f b) (hall : b ≠ .cab)
    (running : (p.orderTimers f b).active = true) :
    (p.controlHallOrderTimers now).orderTimers f b =
      if (p.allStates p.nodeId).obstruction = true ∧
          kObstructionReassignOrderTimeMs + 5 * kSampleTimeMs <
            (p.orderTimers f b).timeLeftMs (now (.timeLeft (f, b))) then
        .start (now (.obstructionStart (f, b))) kObstructionReassignOrderTimeMs
      else p.orderTimers f b := by
  rw [controlHallOrderTimers, orderTimers_mapHall _ _ _ hall]
  simp only [show (p.orders f b).status = .confirmed from holds.1, holds.2, running, and_self,
    Bool.true_eq_false, and_false, ↓reduceIte, not_true_eq_false, true_and]
  split_ifs <;> rfl

/-- The node holds an order, and the timer it has started for it runs. -/
structure InCustody (p : Peers kFloors) (f : Fin kFloors) (b : BtnType) (o : Order) (limit : Nat) :
    Prop where
  /-- The order is the node's. -/
  holds : p.Holds f b
  /-- It is the same as before. -/
  version : (p.orders f b).version = o.version
  /-- Nothing else has been decided about it. -/
  decision : (p.orders f b).decision = o.decision
  /-- The timer runs. -/
  running : (p.orderTimers f b).active = true
  /-- It runs out in time. -/
  due : (p.orderTimers f b).endTime ≤ limit

/-- A node that holds an order holds every order that is decided like it. -/
theorem Holds.of_decision {o : Order} (holds : p.Holds f b) (node : p'.nodeId = p.nodeId)
    (same : p.orders f b = o) (decision : (p'.orders f b).decision = o.decision) : p'.Holds f b := by
  obtain ⟨status, assignee⟩ := Order.decision_eq_iff.1 decision
  have confirmed : (p'.orders f b).status = .confirmed := by
    rw [status, ← same]
    exact holds.1
  refine ⟨confirmed, ?_⟩
  rw [assignee confirmed, node, ← same]
  exact holds.2

/-- A step keeps the order of a node whose timer has not run out, or there is news of it. An
obstructed node gives itself less time from then on. -/
theorem InCustody.step {o : Order} {limit : Nat} (custody : p.InCustody f b o limit)
    (hall : b ≠ .cab) (brisk : now.Brisk) (done : p.step now = some p') :
    (p'.InCustody f b o limit ∧ now (.timerExpired (f, b)) < limit ∧
      ((p.allStates p.nodeId).obstruction = true → ∀ ending, (∀ call, now call ≤ ending) →
        p'.InCustody f b o (ending + (kObstructionReassignOrderTimeMs + 5 * kSampleTimeMs)))) ∨
      o.Outdated (p'.orders f b) := by
  have grows := Order.knowledge_le_of_path ((advances_step done).hall f b hall)
  have node := (advances_step done).nodeId
  rcases Order.outdated_or_same grows with outdated | ⟨version, decision⟩
  · right
    rcases outdated with newer | ⟨same, later⟩
    · exact .inl (custody.version ▸ newer)
    · exact .inr ⟨custody.version ▸ same, custody.decision ▸ later⟩
  · left
    have holds := custody.holds.of_decision node rfl decision
    obtain ⟨timed, rfl, cell, node', obstruction, running⟩ :=
      timed_of_step done hall custody.holds.1 version
    have order : timed.orders f b = p.orders f b := congrArg Prod.fst cell
    have timer : timed.orderTimers f b = p.orderTimers f b := congrArg Prod.snd cell
    have early : now (.timerExpired (f, b)) < (p.orderTimers f b).endTime := by
      simpa [Timer.expired, custody.running] using running
    have held : timed.Holds f b := ⟨order ▸ custody.holds.1, by rw [order, node']; exact custody.holds.2⟩
    have controlled := orderTimers_of_held now held hall (timer ▸ custody.running)
    rw [timer, node', obstruction, Timer.timeLeftMs, if_pos custody.running] at controlled
    have due := custody.due
    have soon := brisk (.obstructionStart (f, b)) (.timeLeft (f, b))
    refine ⟨⟨holds, version.trans custody.version, decision.trans custody.decision, ?_, ?_⟩, by omega,
      fun blocked ending past =>
        ⟨holds, version.trans custody.version, decision.trans custody.decision, ?_, ?_⟩⟩
    · rw [controlled]
      split_ifs
      · rfl
      · exact custody.running
    · rw [controlled]
      split_ifs with shortens
      · change now (.obstructionStart (f, b)) + kObstructionReassignOrderTimeMs ≤ limit
        omega
      · exact due
    · rw [controlled]
      split_ifs
      · rfl
      · exact custody.running
    · rw [controlled]
      split_ifs with shortens
      · have bound := past (.obstructionStart (f, b))
        change now (.obstructionStart (f, b)) + kObstructionReassignOrderTimeMs ≤ _
        omega
      · have bound := past (.timeLeft (f, b))
        have short : ¬kObstructionReassignOrderTimeMs + 5 * kSampleTimeMs <
            (p.orderTimers f b).endTime - now (.timeLeft (f, b)) := fun long => shortens ⟨blocked, long⟩
        omega

/-- A timer is not set further ahead than a new assignment allows. -/
def TimerWithin (now : StepClock kFloors) (t t' : Timer) : Prop :=
  t'.endTime ≤ t.endTime ∨ ∃ call, t'.endTime ≤ now call + kReassignOrderTimeMs

/-- Timers set one after another. -/
theorem TimerWithin.trans {t t' t'' : Timer} (first : TimerWithin now t t')
    (second : TimerWithin now t' t'') : TimerWithin now t t'' := by
  rcases second with kept | set
  · exact first.imp kept.trans fun ⟨call, set⟩ => ⟨call, kept.trans set⟩
  · exact .inr set

/-- A timer that is left alone, or started for a new assignment. -/
theorem timerWithin_ite (call : ClockCall kFloors) (t : Timer) (c : Prop) [Decidable c] :
    TimerWithin now t (if c then .start (now call) kReassignOrderTimeMs else t) := by
  split_ifs
  · exact .inr ⟨call, le_rfl⟩
  · exact .inl le_rfl

/-- A call of `ReassignHallOrder`. -/
theorem timerWithin_reassignCell {floor : Fin kFloors} {cell cell' : Order × Timer}
    (call : ClockCall kFloors) (done : p.reassignCell (now call) floor cell = some cell') :
    TimerWithin now cell.2 cell'.2 := by
  obtain ⟨o, -, rfl⟩ := Option.map_eq_some_iff.1 done
  exact timerWithin_ite call cell.2 _

/-- A pass over the elevators. -/
theorem Monitor.timerWithin {starts : Fin kElevs → Fin kFloors × BtnType → ClockCall kFloors}
    {pass : Peers kFloors → Fin kElevs → Option (Peers kFloors)}
    {due : Peers kFloors → Fin kElevs → Bool} {caller : Peers kFloors → Fin kElevs → Peers kFloors}
    {elevs : List (Fin kElevs)} (monitor : Monitor (fun e key => now (starts e key)) pass due caller)
    (done : elevs.foldlM pass p = some p') (hall : b ≠ .cab) :
    TimerWithin now (p.orderTimers f b) (p'.orderTimers f b) := by
  refine invariant_of_foldlM (fun q => TimerWithin now (p.orderTimers f b) (q.orderTimers f b)) ?_
    done (.inl le_rfl)
  intro q q' e iteration before
  refine before.trans ?_
  rcases monitor.cases iteration hall with ⟨kept, -⟩ | ⟨-, called⟩
  · exact .inl (Nat.le_of_eq (congrArg Timer.endTime (orderTimers_of_cell kept)))
  · exact timerWithin_reassignCell (starts e (f, b)) called

/-- A step sets the timer of a hall order for a new assignment at the latest. -/
theorem timerWithin_step (done : p.step now = some p') (hall : b ≠ .cab) :
    TimerWithin now (p.orderTimers f b) (p'.orderTimers f b) := by
  obtain ⟨watched, faulted, timed, watch, fault, timers, rfl⟩ := step_cases done
  have watches : TimerWithin now (p.updateNumElevs.orderTimers f b) (watched.orderTimers f b) :=
    (monitor_watchdogs now).timerWithin watch hall
  have faults : TimerWithin now (watched.orderTimers f b) (faulted.orderTimers f b) :=
    (monitor_faults now).timerWithin fault hall
  have observes : faulted.observeOrders.orderTimers f b = faulted.orderTimers f b := by
    rw [observeOrders, orderTimers_mapHall _ _ _ hall]
    dsimp only
    split_ifs <;> rfl
  have confirms : TimerWithin now (faulted.observeOrders.orderTimers f b)
      ((faulted.observeOrders.confirmHallOrders now).orderTimers f b) := by
    rw [confirmHallOrders, orderTimers_mapHall _ _ _ hall]
    dsimp only
    split_ifs with blocked
    · exact .inl le_rfl
    · cases faulted.observeOrders.calculateElevatorCosts f with
      | nil => exact .inl le_rfl
      | cons best others =>
        dsimp only
        by_cases infinite : best.1 = intMax
        · rw [if_pos infinite]
          exact .inl le_rfl
        · rw [if_neg infinite]
          exact timerWithin_ite (.confirmStart (f, b)) _ _
  have resets := @orderTimers_resetHallOrders _ (faulted.observeOrders.confirmHallOrders now) f b hall
  have expires : TimerWithin now ((faulted.observeOrders.confirmHallOrders now).orderTimers f b)
      (timed.orderTimers f b) := by
    rw [← resets]
    generalize (faulted.observeOrders.confirmHallOrders now).resetHallOrders = q at timers ⊢
    have moved := (forHall_spec timers).2.2 f b hall
    change TimerWithin now (q.cell (f, b)).2 (timed.cell (f, b)).2
    generalize q.cell (f, b) = before at moved ⊢
    split_ifs at moved
    · exact .inl (Nat.le_of_eq (congrArg (fun c => c.2.endTime) (Option.some.inj moved).symm))
    · exact .inl (Nat.le_of_eq (congrArg (fun c => c.2.endTime) (Option.some.inj moved).symm))
    · exact @timerWithin_reassignCell _ _ _ _ (before.1, before.2.stop) _ (.timerStart (f, b)) moved
  have controls : TimerWithin now (timed.orderTimers f b)
      ((timed.controlHallOrderTimers now).orderTimers f b) := by
    rw [controlHallOrderTimers, orderTimers_mapHall _ _ _ hall]
    dsimp only
    split_ifs
    · exact .inr ⟨.controlStart (f, b), le_rfl⟩
    · exact .inl le_rfl
    · exact .inr ⟨.obstructionStart (f, b), Nat.add_le_add_left (by decide) _⟩
    · exact .inl le_rfl
  rw [observes] at confirms
  exact ((watches.trans faults).trans confirms).trans (expires.trans controls)

/-- No operation but a step sets the timer of a hall order. -/
theorem endTime_of_solo {action : SoloAction kFloors} (step : SoloStep p action p')
    (other : ∀ now, action ≠ .step now) :
    (p'.orderTimers f b).endTime = (p.orderTimers f b).endTime := by
  cases action with
  | press signals =>
    obtain rfl := Option.some.inj step
    rfl
  | publish own =>
    obtain rfl := Option.some.inj step
    rfl
  | step now => exact absurd rfl (other now)
  | clear floor b2c =>
    obtain rfl := Option.some.inj step
    simp only [clearOrders]
    split_ifs <;> rfl
  | receive now packet =>
    obtain rfl := Option.some.inj step
    unfold rxPacketProcessing
    dsimp only
    split_ifs <;> rfl

/-- An operation other than a step keeps an order in custody, or there is news of it. -/
theorem InCustody.operation {o : Order} {limit : Nat} (custody : p.InCustody f b o limit)
    (hall : b ≠ .cab) {action : SoloAction kFloors} (step : SoloStep p action p')
    (other : ∀ now, action ≠ .step now) :
    p'.InCustody f b o limit ∨ o.Outdated (p'.orders f b) := by
  have endTime := endTime_of_solo step other (f := f) (b := b)
  have due : (p'.orderTimers f b).endTime ≤ limit := endTime.trans_le custody.due
  rcases Order.outdated_or_same (step.knowledge_le f hall) with newer | ⟨version, decision⟩
  · right
    rcases newer with newer | ⟨same, later⟩
    · exact .inl (custody.version ▸ newer)
    · exact .inr ⟨custody.version ▸ same, custody.decision ▸ later⟩
  · left
    have holds := custody.holds.of_decision step.nodeId rfl decision
    refine ⟨holds, version.trans custody.version, decision.trans custody.decision, ?_, due⟩
    cases action with
    | press signals =>
      obtain rfl := Option.some.inj step
      exact custody.running
    | publish own =>
      obtain rfl := Option.some.inj step
      exact custody.running
    | step now => exact absurd rfl (other now)
    | clear floor b2c =>
      obtain rfl := Option.some.inj step
      have kept : ¬(f = floor ∧ b2c b = true) := by
        -- clearing the order would give it a new version
        rintro ⟨rfl, flag⟩
        have cleared : (p.clearOrders f b2c).orders f b = (p.orders f b).onClear := by
          simp only [clearOrders, flag, and_self, ↓reduceIte, if_neg hall, custody.holds.2]
        rw [cleared, Order.onClear_of_confirmed custody.holds.1] at version
        exact Nat.succ_ne_self _ version
      change ((p.clearOrders floor b2c).orderTimers f b).active = true
      simp only [clearOrders]
      rw [if_neg fun cleared => kept ⟨cleared.1, cleared.2.1⟩]
      exact custody.running
    | receive now packet =>
      obtain rfl := Option.some.inj step
      have timers : (p.rxPacketProcessing now packet).orderTimers = p.orderTimers := by
        unfold rxPacketProcessing
        dsimp only
        split_ifs <;> rfl
      rw [timers]
      exact custody.running

/-- Any operation keeps an order in custody, or there is news of it. -/
theorem InCustody.solo {o : Order} {limit : Nat} (custody : p.InCustody f b o limit)
    (hall : b ≠ .cab) {action : SoloAction kFloors} (brisk : action.Brisk)
    (step : SoloStep p action p') : p'.InCustody f b o limit ∨ o.Outdated (p'.orders f b) := by
  cases action with
  | step now =>
    rcases custody.step hall brisk step with ⟨kept, -⟩ | newer
    · exact .inl kept
    · exact .inr newer
  | press | publish | clear | receive =>
    exact custody.operation hall step fun now same => by cases same

/-- So does a whole run. -/
theorem InCustody.run {o : Order} {limit : Nat} (custody : p.InCustody f b o limit)
    (hall : b ≠ .cab) {trace : List (Transition (Peers kFloors) (SoloAction kFloors))}
    (run : Run SoloStep p trace p') (brisk : ∀ t ∈ trace, t.action.Brisk) :
    p'.InCustody f b o limit ∨ o.Outdated (p'.orders f b) := by
  refine run.invariant_of_admitted (fun t => t.action.Brisk)
    (fun q => q.InCustody f b o limit ∨ o.Outdated (q.orders f b)) ?_ brisk (.inl custody)
  intro q q' action step brisk before
  rcases before with kept | newer
  · exact kept.solo hall brisk step
  · exact .inr (newer.mono (step.knowledge_le f hall))

/-- What a step reads from the clock. -/
def stepReadings : SoloAction kFloors → Set Nat
  | .step now => Set.range now
  | _ => ∅

/-- An operation sets the timer of a hall order for a new assignment at the latest. -/
theorem setsWithin_of_solo {action : SoloAction kFloors} (step : SoloStep p action p')
    (hall : b ≠ .cab) : Run.SetsWithin stepReadings (fun q => (q.orderTimers f b).endTime)
      kReassignOrderTimeMs ⟨p, action, p'⟩ := by
  cases action with
  | step now =>
    rcases timerWithin_step step hall with kept | ⟨call, set⟩
    · exact .inl kept
    · exact .inr ⟨now call, ⟨call, rfl⟩, set⟩
  | press | publish | clear | receive =>
    exact .inl (Nat.le_of_eq (endTime_of_solo step fun now same => by cases same))

/-- A step takes every order the node then holds into custody. -/
theorem inCustody_of_step (done : p.step now = some p') (hall : b ≠ .cab) (holds : p'.Holds f b)
    {limit : Nat} (due : (p'.orderTimers f b).endTime ≤ limit) :
    p'.InCustody f b (p'.orders f b) limit := by
  refine ⟨holds, rfl, rfl, ?_, due⟩
  obtain ⟨_, _, timed, _, _, _, rfl⟩ := step_cases done
  refine (timed_controlHallOrderTimers timed now hall).2 ?_
  rwa [Holds, orders_of_controlHallOrderTimers timed now hall] at holds

/-- An order still in custody after a run and a further step is kept only until the limit. -/
theorem InCustody.kept {o : Order} {limit : Nat} (custody : p.InCustody f b o limit)
    (hall : b ≠ .cab) {trace : List (Transition (Peers kFloors) (SoloAction kFloors))}
    {q : Peers kFloors} (run : Run SoloStep p trace q) (brisk : ∀ t ∈ trace, t.action.Brisk)
    (last : now.Brisk) (done : q.step now = some p') (holds : p'.Holds f b)
    (same : (p'.orders f b).version = o.version) :
    p'.InCustody f b o limit ∧ now (.timerExpired (f, b)) < limit ∧
      ((q.allStates q.nodeId).obstruction = true → ∀ ending, (∀ call, now call ≤ ending) →
        p'.InCustody f b o (ending + (kObstructionReassignOrderTimeMs + 5 * kSampleTimeMs))) := by
  have node : p'.nodeId = p.nodeId := by
    rw [(advances_step done).nodeId]
    exact run.invariant (fun r => r.nodeId = p.nodeId) (fun step old => step.nodeId.trans old) rfl
  have decided : (p'.orders f b).decision = o.decision := by
    rw [← custody.decision]
    refine Order.decision_eq_iff.2 ⟨holds.1.trans custody.holds.1.symm, fun _ => ?_⟩
    rw [holds.2, custody.holds.2, node]
  rcases custody.run hall run brisk with kept | newer
  · rcases kept.step hall last done with kept | newer
    · exact kept
    · exact absurd newer (Order.not_outdated same decided)
  · have grows := Order.knowledge_le_of_path ((advances_step done).hall f b hall)
    exact absurd (newer.mono grows) (Order.not_outdated same decided)

end Peers

open Peers Config

/-- Whatever a node is sent: a hall order that it holds after a step, and still holds in the same
version after a later step, it has not kept for the reassignment time; and when that later step found
the node obstructed, it does not keep the order for the shorter time from then on either. The times are
counted from the last reading of the step they begin with, up to the reading at which the timer of the
order is looked at, and the clock hardly goes on while a step lasts. -/
theorem hall_order_custody {i : Fin kElevs} {f : Fin kFloors} {b : BtnType} (hall : b ≠ .cab)
    {trace between : List (Transition (Peers kFloors) (SoloAction kFloors))}
    {p p₁ p₂ p₃ : Peers kFloors} {since : Nat} {begun now : StepClock kFloors}
    (run : Run SoloStep { nodeId := i } trace p)
    (past : ∀ t ∈ trace, ∀ reading ∈ stepReadings t.action, reading ≤ since)
    (read : ∀ call, begun call ≤ since) (first : SoloStep p (.step begun) p₁) (holds : p₁.Holds f b)
    (meanwhile : Run SoloStep p₁ between p₂) (brisk : ∀ t ∈ between, t.action.Brisk)
    (soon : now.Brisk) (last : SoloStep p₂ (.step now) p₃)
    (kept : p₃.Holds f b) (same : (p₃.orders f b).version = (p₁.orders f b).version) :
    now (.timerExpired (f, b)) < since + kReassignOrderTimeMs ∧
      ((p₂.allStates i).obstruction = true → ∀ ending, (∀ call, now call ≤ ending) →
      ∀ (more : List (Transition (Peers kFloors) (SoloAction kFloors))) (p₄ p₅ : Peers kFloors)
        (later : StepClock kFloors), Run SoloStep p₃ more p₄ → (∀ t ∈ more, t.action.Brisk) →
        later.Brisk → SoloStep p₄ (.step later) p₅ → p₅.Holds f b →
        (p₅.orders f b).version = (p₃.orders f b).version → later (.timerExpired (f, b)) <
          ending + (kObstructionReassignOrderTimeMs + 5 * kSampleTimeMs)) := by
  have extended := run.snoc first
  have sets : ∀ t ∈ trace ++ [⟨p, .step begun, p₁⟩], Run.SetsWithin stepReadings
      (fun q : Peers kFloors => (q.orderTimers f b).endTime) kReassignOrderTimeMs t :=
    fun t member => setsWithin_of_solo (extended.steps t member) hall
  have readings : ∀ t ∈ trace ++ [⟨p, .step begun, p₁⟩], ∀ reading ∈ stepReadings t.action,
      reading ≤ since := by
    intro t member reading shown
    rcases List.mem_append.1 member with earlier | new
    · exact past t earlier reading shown
    · rw [List.mem_singleton.1 new] at shown
      obtain ⟨call, rfl⟩ := shown
      exact read call
  have due := extended.deadline_le_reading sets (Nat.zero_le _) readings
  have node : p₂.nodeId = i := by
    rw [← show p₁.nodeId = i from
      extended.invariant (fun r => r.nodeId = i) (fun step old => step.nodeId.trans old) rfl]
    exact meanwhile.invariant (fun r => r.nodeId = p₁.nodeId)
      (fun step old => step.nodeId.trans old) rfl
  have custody := inCustody_of_step first hall holds due
  obtain ⟨-, early, shortened⟩ := custody.kept hall meanwhile brisk soon last kept same
  refine ⟨early, fun blocked ending bound more p₄ p₅ later further calm prompt next held again => ?_⟩
  rw [← node] at blocked
  exact ((shortened blocked ending bound).kept hall further calm prompt next held
    (again.trans same)).2.1

/-- A node that is alone confirms a call to itself, and then becomes obstructed. -/
theorem hall_order_custody_obstructed : ∃ (p₂ p₃ : Peers Config.kFloors),
    SoloStep p₂ (.step (.still 140)) p₃ ∧ (p₂.allStates 0).obstruction = true ∧ p₃.Holds 1 .hallUp ∧
    ∀ (more : List (Transition (Peers Config.kFloors) (SoloAction Config.kFloors)))
      (p₄ p₅ : Peers Config.kFloors) (later : StepClock Config.kFloors), Run SoloStep p₃ more p₄ →
      (∀ t ∈ more, t.action.Brisk) → later.Brisk → SoloStep p₄ (.step later) p₅ →
      p₅.Holds 1 .hallUp → (p₅.orders 1 .hallUp).version = (p₃.orders 1 .hallUp).version →
      later (.timerExpired (1, .hallUp)) <
        140 + (kObstructionReassignOrderTimeMs + 5 * kSampleTimeMs) := by
  let called : List (SoloAction Config.kFloors) :=
    [.publish (.idleAt 0 0), .press (.only 1 .hallUp)]
  let obstructed : List (SoloAction Config.kFloors) :=
    [.publish { (.idleAt 0 0 : ElevatorState Config.kFloors) with obstruction := true }]
  have evaluated : (called.foldlM Peers.execSolo { nodeId := 0 }).any (fun p =>
      (p.execSolo (.step (.still 100))).any fun p₁ => decide (p₁.Holds 1 .hallUp) &&
        (obstructed.foldlM Peers.execSolo p₁).any fun p₂ =>
          (p₂.execSolo (.step (.still 140))).any fun p₃ =>
            decide (p₃.Holds 1 .hallUp ∧ (p₂.allStates 0).obstruction = true ∧
              (p₃.orders 1 .hallUp).version = (p₁.orders 1 .hallUp).version)) = true := by
    decide
  obtain ⟨trace, p, run, labels, checked⟩ := Run.of_check SoloStep id evaluated
  obtain ⟨p₁, first, checked⟩ := (Option.any_eq_true _ _).1 checked
  obtain ⟨holds, checked⟩ := Bool.and_eq_true_iff.1 checked
  obtain ⟨between, p₂, meanwhile, labels', checked⟩ := Run.of_check SoloStep id checked
  obtain ⟨p₃, last, checked⟩ := (Option.any_eq_true _ _).1 checked
  obtain ⟨kept, blocked, same⟩ := of_decide_eq_true checked
  have past : ∀ t ∈ trace, ∀ reading ∈ stepReadings t.action, reading ≤ 100 := by
    intro t member
    have listed : t.action ∈ called := labels ▸ List.mem_map_of_mem member
    generalize t.action = action at listed
    simp only [called, List.mem_cons, List.not_mem_nil, or_false] at listed
    rcases listed with rfl | rfl
    · exact fun reading none => absurd none (Set.notMem_empty reading)
    · exact fun reading none => absurd none (Set.notMem_empty reading)
  have brisk : ∀ t ∈ between, t.action.Brisk := by
    intro t member
    have listed : t.action ∈ obstructed := labels' ▸ List.mem_map_of_mem member
    rw [List.mem_singleton.1 listed]
    trivial
  exact ⟨p₂, p₃, last, blocked, kept, (hall_order_custody (by decide) run past (fun _ => le_rfl) first
    (of_decide_eq_true holds) meanwhile brisk (StepClock.brisk_still 140) last kept same).2 blocked 140
      fun _ => le_rfl⟩

end CppElevator
