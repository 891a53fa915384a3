import CppElevator.Library.Transition

/-!
# What a run leaves in a register

A register is a reading of the states of a system. Three ways in which steps treat a register say
what a whole run makes of it: a bound gives way by a fixed amount a step, a register updated by the
actions alone follows them, and a deadline is kept or set a fixed time ahead of the clock. A toggle is
a register of the second kind: it turns over at the rising edges of a signal.
-/
namespace CppElevator.Library

variable {State Action : Type*} {Step : State → Action → State → Prop}

/-- The clock read by the actions of a run never goes back. -/
def Timely (clock : Action → Option Nat) (actions : List Action) : Prop :=
  (actions.filterMap clock).Pairwise (· ≤ ·)

instance (clock : Action → Option Nat) (actions : List Action) : Decidable (Timely clock actions) :=
  inferInstanceAs (Decidable ((actions.filterMap clock).Pairwise (· ≤ ·)))

/-- What a run has read is behind what it reads next. -/
theorem timely_append_singleton {clock : Action → Option Nat} {actions : List Action}
    {action : Action} : Timely clock (actions ++ [action]) ↔
      Timely clock actions ∧
        ∀ earlier ∈ actions, ∀ past ∈ clock earlier, ∀ now ∈ clock action, past ≤ now := by
  simp only [Timely, List.filterMap_append, List.pairwise_append, List.mem_filterMap,
    Option.mem_def]
  constructor
  · rintro ⟨before, -, ordered⟩
    exact ⟨before, fun earlier member past read now reads => ordered past ⟨earlier, member, read⟩
      now ⟨action, List.mem_singleton.2 rfl, reads⟩⟩
  · rintro ⟨before, ordered⟩
    refine ⟨before, ?_, ?_⟩
    · cases read : clock action <;> simp [read]
    · rintro past ⟨earlier, member, read⟩ now ⟨last, single, reads⟩
      rw [List.mem_singleton.1 single] at reads
      exact ordered earlier member past read now reads

/-- The number of rising edges of a signal after a previous reading. -/
def risingEdges : Bool → List Bool → Nat
  | _, [] => 0
  | prev, reading :: readings => (reading && !prev).toNat + risingEdges reading readings

/-- A toggle that turns over at the rising edges of a signal tells their parity. -/
theorem foldl_toggle (readings : List Bool) (prev toggle : Bool) :
    (readings.foldl (fun register reading => (reading, register.2 ^^ (reading && !register.1)))
      (prev, toggle)).2 = (toggle ^^ decide (risingEdges prev readings % 2 = 1)) := by
  induction readings generalizing prev toggle with
  | nil => simp [risingEdges]
  | cons reading readings ih =>
    rw [List.foldl_cons, ih, risingEdges]
    rcases Nat.mod_two_eq_zero_or_one (risingEdges reading readings) with even | odd
    · cases reading <;> cases prev <;> simp [Nat.add_mod, even]
    · cases reading <;> cases prev <;> simp [Nat.add_mod, odd]

namespace Run

/-- A bound that each step lets give way by a fixed amount, gives way by that amount times the
number of steps. -/
theorem bounded (Below : State → Nat → Prop) (c : Nat)
    (gives : ∀ {state next : State} {action : Action} {n : Nat}, Step state action next →
      Below state n → Below next (n + c))
    {start last : State} {trace : List (Transition State Action)}
    (run : Run Step start trace last) {n : Nat} (init : Below start n) :
    Below last (n + trace.length * c) := by
  induction run with
  | nil => simpa using init
  | @snoc _ _ trace _ _ step ih =>
    have more := gives step ih
    rw [List.length_append, List.length_singleton, Nat.add_mul, Nat.one_mul, ← Nat.add_assoc]
    exact more

/-- A register that every step updates by its action alone has followed the actions. -/
theorem follows {Register : Type*} (register : State → Register)
    (update : Register → Action → Register)
    (updates : ∀ {state next : State} {action : Action}, Step state action next →
      register next = update (register state) action)
    {start last : State} {trace : List (Transition State Action)}
    (run : Run Step start trace last) :
    register last = (trace.map Transition.action).foldl update (register start) := by
  induction run with
  | nil => rfl
  | snoc _ step ih => rw [updates step, ih, List.map_append, List.foldl_append]; rfl

/-- A step keeps a register or sets it a fixed time ahead of the clock. -/
def KeepsOrSets (clock : Action → Option Nat) (due : State → Nat) (duration : Nat)
    (t : Transition State Action) : Prop :=
  due t.post = due t.pre ∨ ∃ now ∈ clock t.action, due t.post = now + duration

variable {clock : Action → Option Nat} {readings : Action → Set Nat} {due : State → Nat}
  {duration : Nat} {start last : State} {trace : List (Transition State Action)}

/-- A step sets a register, if it raises it, at most a fixed time ahead of a reading of the clock. -/
def SetsWithin (readings : Action → Set Nat) (due : State → Nat) (duration : Nat)
    (t : Transition State Action) : Prop :=
  due t.post ≤ due t.pre ∨ ∃ now ∈ readings t.action, due t.post ≤ now + duration

/-- A register that is kept or set a fixed time ahead. -/
theorem KeepsOrSets.within {t : Transition State Action} (sets : KeepsOrSets clock due duration t) :
    SetsWithin (fun action => {now | now ∈ clock action}) due duration t := by
  rcases sets with kept | ⟨now, read, set⟩
  · exact .inl (Nat.le_of_eq kept)
  · exact .inr ⟨now, read, Nat.le_of_eq set⟩

/-- A deadline is never set further ahead than its duration allows. -/
theorem deadline_le_reading (run : Run Step start trace last)
    (sets : ∀ t ∈ trace, SetsWithin readings due duration t) (init : due start ≤ duration) {now : Nat}
    (later : ∀ t ∈ trace, ∀ past ∈ readings t.action, past ≤ now) : due last ≤ now + duration := by
  induction run with
  | nil => omega
  | @snoc _ _ trace _ _ _ ih =>
    have before := ih (fun t member => sets t (List.mem_append_left _ member))
      (fun t member => later t (List.mem_append_left _ member))
    have single {t : Transition State Action} : t ∈ trace ++ [t] :=
      List.mem_append_right _ (List.mem_singleton.2 rfl)
    rcases sets _ single with kept | ⟨past, read, set⟩
    · exact Nat.le_trans kept before
    · have bound := later _ single past read
      dsimp only at set
      omega

/-- Under a clock that never goes back, a deadline only moves ahead: whatever it was set to, it is
at least that in the end. -/
theorem deadline_mono (run : Run Step start trace last)
    (sets : ∀ t ∈ trace, KeepsOrSets clock due duration t) (init : due start ≤ duration)
    (timely : Timely clock (trace.map Transition.action)) :
    ∀ t ∈ trace, due t.post ≤ due last := by
  induction run with
  | nil => exact fun t member => absurd member List.not_mem_nil
  | @snoc last next trace action before _ ih =>
    rw [List.map_append, List.map_singleton, timely_append_singleton] at timely
    have earlier : ∀ t ∈ trace, KeepsOrSets clock due duration t := fun t member =>
      sets t (List.mem_append_left _ member)
    have ahead : due last ≤ due next := by
      rcases sets _ (List.mem_append_right _ (List.mem_singleton.2 rfl)) with
        kept | ⟨now, read, set⟩
      · exact Nat.le_of_eq kept.symm
      · have reach := before.deadline_le_reading (fun t member => (earlier t member).within) init
          fun t member past read' =>
            timely.2 t.action (List.mem_map_of_mem member) past read' now read
        exact Nat.le_trans reach (Nat.le_of_eq set.symm)
    intro t member
    rcases List.mem_append.1 member with old | new
    · exact Nat.le_trans (ih earlier timely.1 t old) ahead
    · obtain rfl := List.mem_singleton.1 new
      exact Nat.le_refl _

end Run

end CppElevator.Library
