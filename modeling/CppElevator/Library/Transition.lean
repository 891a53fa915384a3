import Mathlib.Data.List.Basic

/-!
# Runs of a transition system

A system is a relation between a state, an action and a next state. A run records every
transition it takes, so that a property of a run can speak about the steps taken as well as
about the states reached. The rules derive what holds after a run from what one step
preserves.
-/
namespace CppElevator.Library

/-- One step of a run, with the states around it. -/
structure Transition (State Action : Type*) where
  /-- State before the step. -/
  pre : State
  /-- Action of the step. -/
  action : Action
  /-- State after the step. -/
  post : State

variable {State Action : Type*} {Step : State → Action → State → Prop}

/-- A finite run with the transitions it takes, in order. -/
inductive Run (Step : State → Action → State → Prop) :
    State → List (Transition State Action) → State → Prop where
  /-- The run that takes no step. -/
  | nil (start : State) : Run Step start [] start
  /-- A run and one more step. -/
  | snoc {start last next : State} {trace : List (Transition State Action)} {action : Action} :
      Run Step start trace last → Step last action next →
      Run Step start (trace ++ [⟨last, action, next⟩]) next

namespace Run

/-- A run of one step. -/
theorem single {state next : State} {action : Action} (step : Step state action next) :
    Run Step state [⟨state, action, next⟩] next := .snoc (.nil state) step

/-- A run continues where another ends. -/
theorem append {start middle last : State} {before after : List (Transition State Action)}
    (left : Run Step start before middle) (right : Run Step middle after last) :
    Run Step start (before ++ after) last := by
  induction right with
  | nil => simpa using left
  | snoc _ step ih =>
    rw [← List.append_assoc]
    exact .snoc ih step

/-- A property of states kept by every admitted step holds after every run of admitted steps. -/
theorem invariant_of_admitted (Admitted : Transition State Action → Prop) (Inv : State → Prop)
    (keeps : ∀ {state next : State} {action : Action}, Step state action next →
      Admitted ⟨state, action, next⟩ → Inv state → Inv next)
    {start last : State} {trace : List (Transition State Action)}
    (run : Run Step start trace last) (admitted : ∀ t ∈ trace, Admitted t) (init : Inv start) :
    Inv last := by
  induction run with
  | nil => exact init
  | snoc _ step ih =>
    have before := ih (fun t member => admitted t (List.mem_append_left _ member))
    exact keeps step (admitted _ (List.mem_append_right _ (List.mem_singleton.2 rfl))) before

/-- A property of states kept by every step holds after every run. -/
theorem invariant (Inv : State → Prop)
    (keeps : ∀ {state next : State} {action : Action}, Step state action next →
      Inv state → Inv next)
    {start last : State} {trace : List (Transition State Action)}
    (run : Run Step start trace last) (init : Inv start) : Inv last :=
  run.invariant_of_admitted (fun _ => True) Inv (fun step _ => keeps step) (fun _ _ => trivial) init

/-- Actions carried out one after another are a run, and the state reached can be checked along
the way. -/
theorem of_check (Step : State → Action → State → Prop) {exec : State → Action → Option State}
    (executes : ∀ {state action next}, exec state action = some next → Step state action next)
    {check : State → Bool} {actions : List Action} {start : State}
    (passed : (actions.foldlM exec start).any check = true) :
    ∃ trace last, Run Step start trace last ∧ trace.map Transition.action = actions ∧
      check last = true := by
  induction actions generalizing start with
  | nil => exact ⟨[], start, .nil start, rfl, passed⟩
  | cons action actions ih =>
    rw [List.foldlM_cons] at passed
    obtain ⟨last, done, good⟩ := (Option.any_eq_true _ _).1 passed
    obtain ⟨next, step, rest⟩ := Option.bind_eq_some_iff.1 done
    obtain ⟨trace, last, run, labels, good⟩ := ih ((Option.any_eq_true _ _).2 ⟨last, rest, good⟩)
    exact ⟨_, last, (Run.single (executes step)).append run, by simp [labels], good⟩

/-- A run of steps that are all admitted is a run, and its transitions are. -/
theorem of_admitted {Admitted : Transition State Action → Prop} {start last : State}
    {trace : List (Transition State Action)}
    (run : Run (fun state action next => Step state action next ∧ Admitted ⟨state, action, next⟩)
      start trace last) : Run Step start trace last ∧ ∀ t ∈ trace, Admitted t := by
  induction run with
  | nil => exact ⟨.nil _, fun t member => absurd member List.not_mem_nil⟩
  | snoc _ step ih =>
    refine ⟨ih.1.snoc step.1, fun t member => ?_⟩
    rcases List.mem_append.1 member with earlier | last
    · exact ih.2 t earlier
    · rw [List.mem_singleton.1 last]
      exact step.2

/-- Actions carried out one after another, with every transition checked on the way. -/
theorem of_check_each (Step : State → Action → State → Prop)
    {exec : State → Action → Option State}
    (executes : ∀ {state action next}, exec state action = some next → Step state action next)
    {Admitted : Transition State Action → Prop} [DecidablePred Admitted] {check : State → Bool}
    {actions : List Action} {start : State}
    (passed : (actions.foldlM (fun state action => (exec state action).filter fun next =>
      decide (Admitted ⟨state, action, next⟩)) start).any check = true) :
    ∃ trace last, Run Step start trace last ∧ trace.map Transition.action = actions ∧
      (∀ t ∈ trace, Admitted t) ∧ check last = true := by
  obtain ⟨trace, last, run, labels, good⟩ := of_check
    (fun state action next => Step state action next ∧ Admitted ⟨state, action, next⟩)
    (fun executed => by
      obtain ⟨done, admitted⟩ := Option.filter_eq_some_iff.1 executed
      exact ⟨executes done, of_decide_eq_true admitted⟩) passed
  obtain ⟨run, admitted⟩ := of_admitted run
  exact ⟨trace, last, run, labels, admitted, good⟩

/-- The same, when the actions need not be known afterwards. -/
theorem of_check_admitted (Step : State → Action → State → Prop)
    {exec : State → Action → Option State}
    (executes : ∀ {state action next}, exec state action = some next → Step state action next)
    {Admitted : Transition State Action → Prop} [DecidablePred Admitted] {check : State → Bool}
    {actions : List Action} {start : State}
    (passed : (actions.foldlM (fun state action => (exec state action).filter fun next =>
      decide (Admitted ⟨state, action, next⟩)) start).any check = true) :
    ∃ trace last, Run Step start trace last ∧ (∀ t ∈ trace, Admitted t) ∧ check last = true := by
  obtain ⟨trace, last, run, -, admitted, good⟩ := of_check_each Step executes passed
  exact ⟨trace, last, run, admitted, good⟩

/-- With an invariant at hand, a property of single transitions holds of every transition of a
run of admitted steps. -/
theorem forall_transitions (Admitted Good : Transition State Action → Prop) (Inv : State → Prop)
    (keeps : ∀ {state next : State} {action : Action}, Step state action next →
      Admitted ⟨state, action, next⟩ → Inv state → Inv next ∧ Good ⟨state, action, next⟩)
    {start last : State} {trace : List (Transition State Action)}
    (run : Run Step start trace last) (admitted : ∀ t ∈ trace, Admitted t) (init : Inv start) :
    ∀ t ∈ trace, Good t := by
  induction run with
  | nil => exact fun t member => absurd member List.not_mem_nil
  | snoc before step ih =>
    have earlier := fun t member => admitted t (List.mem_append_left _ member)
    have reached := before.invariant_of_admitted Admitted Inv
      (fun step ok inv => (keeps step ok inv).1) earlier init
    intro t member
    rcases List.mem_append.1 member with member | member
    · exact ih earlier t member
    · rw [List.mem_singleton.1 member]
      exact (keeps step (admitted _ (List.mem_append_right _ (List.mem_singleton.2 rfl)))
        reached).2

/-- Every transition of a run is a step. -/
theorem steps {start last : State} {trace : List (Transition State Action)}
    (run : Run Step start trace last) : ∀ t ∈ trace, Step t.pre t.action t.post :=
  run.forall_transitions (fun _ => True) (fun t => Step t.pre t.action t.post) (fun _ => True)
    (fun step _ _ => ⟨trivial, step⟩) (fun _ _ => trivial) trivial

/-- What holds after one transition of a run and is kept by the transitions of the run holds in the
end. -/
theorem persists (Inv : State → Prop) {start last : State} {trace : List (Transition State Action)}
    (run : Run Step start trace last) (keeps : ∀ t ∈ trace, Inv t.pre → Inv t.post)
    {t : Transition State Action} (member : t ∈ trace) (holds : Inv t.post) : Inv last := by
  induction run with
  | nil => exact absurd member List.not_mem_nil
  | snoc _ _ ih =>
    rcases List.mem_append.1 member with earlier | new
    · have before := ih (fun t member => keeps t (List.mem_append_left _ member)) earlier
      exact keeps _ (List.mem_append_right _ (List.mem_singleton.2 rfl)) before
    · rwa [List.mem_singleton.1 new] at holds

/-- A system whose every step is matched by a run of another, under an invariant and through a
view of its states, has all its runs matched. -/
theorem simulates {State' Action' : Type*} {Step' : State' → Action' → State' → Prop}
    (view : State → State') (Inv : State → Prop)
    (matched : ∀ {state next : State} {action : Action}, Step state action next → Inv state →
      Inv next ∧ ∃ trace, Run Step' (view state) trace (view next))
    {start last : State} {trace : List (Transition State Action)}
    (run : Run Step start trace last) (init : Inv start) :
    Inv last ∧ ∃ trace', Run Step' (view start) trace' (view last) := by
  induction run with
  | nil => exact ⟨init, [], .nil _⟩
  | snoc _ step ih =>
    obtain ⟨inv, earlier, before⟩ := ih
    obtain ⟨inv', later, after⟩ := matched step inv
    exact ⟨inv', earlier ++ later, before.append after⟩

/-- A system whose every step is, under an invariant and through a view of its states, a step of
another has its runs as runs of the other. -/
theorem image {State' Action' : Type*} {Step' : State' → Action' → State' → Prop}
    (view : State → State') (label : Transition State Action → Action') (Inv : State → Prop)
    (matched : ∀ {state next : State} {action : Action}, Step state action next → Inv state →
      Inv next ∧ Step' (view state) (label ⟨state, action, next⟩) (view next))
    {start last : State} {trace : List (Transition State Action)}
    (run : Run Step start trace last) (init : Inv start) :
    Run Step' (view start) (trace.map fun t => ⟨view t.pre, label t, view t.post⟩) (view last) := by
  suffices both : Inv last ∧
      Run Step' (view start) (trace.map fun t => ⟨view t.pre, label t, view t.post⟩) (view last) from
    both.2
  induction run with
  | nil => exact ⟨init, .nil _⟩
  | snoc _ step ih =>
    obtain ⟨inv, before⟩ := ih
    obtain ⟨inv', step'⟩ := matched step inv
    rw [List.map_append]
    exact ⟨inv', before.snoc step'⟩

/-- A system whose every step is matched by a step of another, under a relation between their
states, has all its runs matched step by step. -/
theorem refines {State' Action' : Type*} {Step' : State' → Action' → State' → Prop}
    (Rel : State → State' → Prop) (label : Transition State Action → Action')
    (matched : ∀ {state next : State} {action : Action} {state' : State'},
      Step state action next → Rel state state' →
        ∃ next', Step' state' (label ⟨state, action, next⟩) next' ∧ Rel next next')
    {start last : State} {trace : List (Transition State Action)}
    (run : Run Step start trace last) {start' : State'} (init : Rel start start') :
    ∃ trace' last', Run Step' start' trace' last' ∧
      trace'.map Transition.action = trace.map label ∧ Rel last last' := by
  induction run with
  | nil => exact ⟨[], start', .nil start', rfl, init⟩
  | snoc _ step ih =>
    obtain ⟨trace', state', before, labels, related⟩ := ih
    obtain ⟨next', step', related'⟩ := matched step related
    exact ⟨_, next', before.snoc step', by simp [labels], related'⟩

/-- A run pays for its marked transitions out of what its start affords, when every step leaves
enough of what its state affords to pay for itself. -/
theorem spends (Affords : State → Nat → Prop) (marked : Transition State Action → Bool)
    (pays : ∀ {state next : State} {action : Action} {n : Nat}, Step state action next →
      Affords state n → ∃ m, Affords next m ∧ m + (marked ⟨state, action, next⟩).toNat ≤ n)
    {start last : State} {trace : List (Transition State Action)}
    (run : Run Step start trace last) {n : Nat} (init : Affords start n) :
    ∃ m, Affords last m ∧ m + trace.countP marked ≤ n := by
  induction run with
  | nil => exact ⟨n, init, by simp⟩
  | @snoc last next trace action _ step ih =>
    obtain ⟨m, affords, spent⟩ := ih
    obtain ⟨rest, left, paid⟩ := pays step affords
    refine ⟨rest, left, ?_⟩
    rw [List.countP_append, List.countP_singleton]
    cases mark : marked ⟨last, action, next⟩ <;> simp only [mark, Bool.toNat_true,
      Bool.toNat_false, Bool.false_eq_true, ↓reduceIte] at paid ⊢ <;> omega

/-- A system that can step under every action until it is done, each step leaving less than its
state affords, gets done under every schedule of actions. -/
theorem completes (Affords : State → Nat → Prop) (Done : State → Prop)
    (proceeds : ∀ {state : State} {n : Nat}, Affords state n → Done state ∨
      ∀ action, ∃ next m, Step state action next ∧ Affords next m ∧ m < n)
    (schedule : Nat → Action) {start : State} {n : Nat} (init : Affords start n) :
    ∃ trace last, Run Step start trace last ∧
      trace.map Transition.action = (List.range trace.length).map schedule ∧ Done last := by
  induction n using Nat.strongRecOn generalizing start schedule with
  | ind n ih =>
    rcases proceeds init with done | proceed
    · exact ⟨[], start, .nil start, rfl, done⟩
    obtain ⟨next, m, step, affords, less⟩ := proceed (schedule 0)
    obtain ⟨trace, last, run, labels, done⟩ := ih m less (fun i => schedule (i + 1)) affords
    refine ⟨_, last, (Run.single step).append run, ?_, done⟩
    simp [labels, List.range_succ_eq_map]

end Run

end CppElevator.Library
