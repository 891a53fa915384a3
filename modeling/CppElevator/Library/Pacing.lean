import Mathlib.Data.List.Chain
import Mathlib.Data.List.TakeWhile

/-!
# Events that keep a pace

The instants of a repeated event, oldest first, and last the deadline of the next one or the present.
A loop that waits for deadlines a period apart keeps its events apart; one that is never late by more
than a fixed time keeps them close together. If few of the events in a row come to nothing, one that
did not is then recent.
-/
namespace CppElevator.Library

/-- Two instants are at least a period apart for every instant between them. -/
def Spaced (period : Nat) (instants : List Nat) : Prop :=
  ∀ i j x y, i < j → instants[i]? = some x → instants[j]? = some y → x + period * (j - i - 1) ≤ y

/-- One instant is apart from no other. -/
theorem spaced_singleton (period x : Nat) : Spaced period [x] := by
  intro i j y z before first second
  have inside := (List.getElem?_eq_some_iff.1 second).1
  rw [List.length_singleton] at inside
  omega

/-- The first of the instants. -/
theorem Spaced.left {period : Nat} {instants later : List Nat} (spaced : Spaced period (instants ++ later)) :
    Spaced period instants := by
  intro i j x y before first second
  have within := (List.getElem?_eq_some_iff.1 first).1
  have inside := (List.getElem?_eq_some_iff.1 second).1
  apply spaced i j x y before
  · rwa [List.getElem?_append_left within]
  · rwa [List.getElem?_append_left inside]

/-- The loop is started again, a period after its last event at least. -/
theorem Spaced.restart {period due : Nat} {instants : List Nat} (spaced : Spaced period instants)
    (after : ∀ x ∈ instants, x + period ≤ due) : Spaced period (instants ++ [due]) := by
  intro i j x y before first second
  have inside := (List.getElem?_eq_some_iff.1 second).1
  simp only [List.length_append, List.length_singleton] at inside
  have within : i < instants.length := by omega
  rw [List.getElem?_append_left within] at first
  rcases Nat.lt_or_ge j instants.length with earlier | last
  · rw [List.getElem?_append_left earlier] at second
    exact spaced i j x y before first second
  · have end_ : j = instants.length := by omega
    have at_ : y = due := by simpa [end_] using second.symm
    subst at_
    -- the last event is at least a period before, and `x` as far from it as the events between
    have known : x + period * (instants.length - 1 - i - 1) ≤ y - period := by
      rcases Nat.lt_or_ge i (instants.length - 1) with sooner | final
      · have final : instants.length - 1 < instants.length := by omega
        have reached := spaced i (instants.length - 1) x _ sooner first (List.getElem?_eq_getElem final)
        have margin := after _ (List.getElem_mem final)
        omega
      · have none : instants.length - 1 - i - 1 = 0 := by omega
        have margin := after x (List.mem_of_getElem? first)
        rw [none]
        omega
    have margin := after x (List.mem_of_getElem? first)
    rcases Nat.lt_or_ge i (instants.length - 1) with sooner | final
    · have more : j - i - 1 = instants.length - 1 - i - 1 + 1 := by omega
      rw [more, Nat.mul_succ]
      omega
    · have none : j - i - 1 = 0 := by omega
      rw [none]
      omega

/-- The event that was due by a deadline happens, and the next deadline is a period later at least. -/
theorem Spaced.next {period due instant due' : Nat} {instants : List Nat}
    (spaced : Spaced period (instants ++ [due])) (waited : due ≤ instant) (ahead : instant ≤ due')
    (later : due + period ≤ due') : Spaced period (instants ++ [instant] ++ [due']) := by
  have old {i x : Nat} (inside : i < instants.length) (first : (instants ++ [instant] ++ [due'])[i]? =
      some x) : x + period * (instants.length - i - 1) ≤ due := by
    apply spaced i instants.length x due inside
    · rwa [List.append_assoc, List.getElem?_append_left inside,
        ← List.getElem?_append_left inside] at first
    · simp
  intro i j x y before first second
  have inside := (List.getElem?_eq_some_iff.1 second).1
  simp only [List.length_append, List.length_singleton] at inside
  rcases Nat.lt_trichotomy j instants.length with earlier | here | last
  · apply spaced i j x y before
    · have within : i < instants.length := before.trans earlier
      rwa [List.append_assoc, List.getElem?_append_left within,
        ← List.getElem?_append_left within] at first
    · rwa [List.append_assoc, List.getElem?_append_left earlier,
        ← List.getElem?_append_left earlier] at second
  · have known := old (here ▸ before) first
    have at_ : y = instant := by simpa [here] using second.symm
    subst here at_
    exact known.trans waited
  · have end_ : j = instants.length + 1 := by omega
    have at_ : y = due' := by simpa [end_] using second.symm
    subst at_
    rcases Nat.lt_or_ge i instants.length with within | reached
    · have known := old within first
      have more : j - i - 1 = instants.length - i - 1 + 1 := by omega
      rw [more, Nat.mul_succ]
      omega
    · have here : i = instants.length := by omega
      have from_ : x = instant := by simpa [here] using first.symm
      have none : j - i - 1 = 0 := by omega
      rw [none, from_]
      omega

/-- Every instant comes at most a gap after the one before. -/
def Beats (gap : Nat) (instants : List Nat) : Prop :=
  List.IsChain (fun earlier later => later ≤ earlier + gap) instants

namespace Beats

variable {gap : Nat} {instants : List Nat} {x y : Nat}

/-- An event comes before its deadline. -/
theorem sooner (beats : Beats gap (instants ++ [x])) (before : y ≤ x) : Beats gap (instants ++ [y]) := by
  unfold Beats at *
  rw [List.isChain_append] at *
  refine ⟨beats.1, List.isChain_singleton _, fun last member first same => ?_⟩
  obtain rfl : y = first := by simpa using same
  exact before.trans (beats.2.2 last member x rfl)

/-- One more event. -/
theorem next (beats : Beats gap (instants ++ [x])) (close : y ≤ x + gap) :
    Beats gap (instants ++ [x] ++ [y]) := by
  unfold Beats at *
  rw [List.append_assoc, List.cons_append, List.nil_append, List.isChain_append_cons_cons]
  exact ⟨beats, close, List.isChain_singleton _⟩

/-- The last of a number of events. -/
theorem last_le (beats : Beats gap (x :: instants ++ [y])) : y ≤ x + gap * (instants.length + 1) := by
  unfold Beats at beats
  induction instants generalizing x with
  | nil => simpa using beats
  | cons z instants ih =>
    rw [List.cons_append, List.cons_append, List.isChain_cons_cons] at beats
    have rest := ih beats.2
    have first := beats.1
    rw [List.length_cons, Nat.mul_succ]
    omega

/-- If a loop has been running for long enough, some `lost + 1` of its events in a row are all at least
a delay ago, and none of them is much longer ago. -/
theorem recent {Event : Type*} (time : Event → Nat) {events : List Event} {start now delay lost : Nat}
    (beats : Beats gap (start :: events.map time ++ [now]))
    (begun : start + gap * (lost + 1) + delay < now) :
    ∃ before block after, events = before ++ block ++ after ∧ block.length = lost + 1 ∧
      ∀ event ∈ block, time event + delay ≤ now ∧ now ≤ time event + gap * (lost + 1) + delay := by
  obtain ⟨old, rest, split, ago, next⟩ : ∃ old rest, events = old ++ rest ∧
      (∀ event ∈ old, time event + delay ≤ now) ∧
      ∀ event ∈ rest.head?, now < time event + delay := by
    let past (event : Event) : Bool := decide (time event + delay ≤ now)
    refine ⟨events.takeWhile past, events.dropWhile past, List.takeWhile_append_dropWhile.symm, ?_, ?_⟩
    · intro event member
      have holds : past event = true := List.mem_takeWhile_imp member
      exact of_decide_eq_true holds
    · intro event first
      have fails := List.head?_dropWhile_not past events
      rw [Option.mem_def.1 first] at fails
      have late : past event = false := by simpa using fails
      exact Nat.lt_of_not_le (of_decide_eq_false late)
  -- the first event that is less than the delay ago, or the present
  obtain ⟨y, tail, follows, recent⟩ : ∃ y tail, rest.map time ++ [now] = y :: tail ∧ now ≤ y + delay := by
    cases rest with
    | nil => exact ⟨now, [], rfl, Nat.le_add_right _ _⟩
    | cons event rest => exact ⟨time event, rest.map time ++ [now], rfl, (next event rfl).le⟩
  have until_ : Beats gap (start :: old.map time ++ [y]) := by
    rw [split, List.map_append, List.cons_append, List.append_assoc, follows, ← List.cons_append] at beats
    exact (List.isChain_split.1 beats).1
  have enough : lost + 1 ≤ old.length := by
    by_contra few
    have reached := until_.last_le
    have less : gap * ((old.map time).length + 1) ≤ gap * (lost + 1) := by
      apply Nat.mul_le_mul_left
      rw [List.length_map]
      omega
    omega
  refine ⟨old.take (old.length - (lost + 1)), old.drop (old.length - (lost + 1)), rest, ?_, ?_, ?_⟩
  · rw [List.take_append_drop, split]
  · rw [List.length_drop]
    omega
  · intro event member
    refine ⟨ago event (List.mem_of_mem_drop member), ?_⟩
    obtain ⟨before, after, block⟩ := List.append_of_mem member
    have short : after.length ≤ lost := by
      have length := congrArg List.length block
      simp only [List.length_drop, List.length_append, List.length_cons] at length
      omega
    have since : Beats gap (time event :: after.map time ++ [y]) := by
      have pieces : old = old.take (old.length - (lost + 1)) ++ before ++ event :: after := by
        rw [List.append_assoc, ← block, List.take_append_drop]
      rw [pieces, List.map_append, List.map_cons, ← List.cons_append, List.append_assoc] at until_
      exact (List.isChain_split.1 until_).2
    have reached := since.last_le
    have less : gap * ((after.map time).length + 1) ≤ gap * (lost + 1) := by
      apply Nat.mul_le_mul_left
      rw [List.length_map]
      omega
    omega

end Beats

end CppElevator.Library
