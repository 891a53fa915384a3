import CppElevator.Library.Transition
import Mathlib.Data.Finset.Card
import Mathlib.Data.Fintype.Prod

/-!
# The scanning car

A car in a building of any height that serves its calls by sweeping: it keeps its heading while a
call lies ahead, turns when every call lies behind, and rests when none is left. A call is a floor
and a button; for each heading one button is `against` it, and its calls may be passed on the way.
Every call is served within three legs: one to either end of the building, whatever is called; one
back, on which only calls against the heading are left behind; and one for these. The measure
counts the floors left on the legs, the calls, and the stages between two floors.
-/
namespace CppElevator.Library

/-- A direction of travel. -/
inductive Heading where
  | up
  | down
  deriving DecidableEq, Repr

namespace Heading

variable {n : Nat}

/-- The other direction. -/
def flip : Heading → Heading
  | .up => .down
  | .down => .up

/-- A floor lies further on. -/
def Ahead : Heading → Fin n → Fin n → Prop
  | .up, floor, other => floor < other
  | .down, floor, other => other < floor

/-- A floor is the next one. -/
def Next : Heading → Fin n → Fin n → Prop
  | .up, floor, next => next.val = floor.val + 1
  | .down, floor, next => floor.val = next.val + 1

/-- Floors left on the way to the end of the building. -/
def reach : Heading → Fin n → Nat
  | .up, floor => n - 1 - floor.val
  | .down, floor => floor.val

@[simp]
theorem flip_flip (h : Heading) : h.flip.flip = h := by cases h <;> rfl

/-- The two directions differ. -/
theorem flip_ne (h : Heading) : h.flip ≠ h := by cases h <;> decide

/-- No floor lies ahead in both directions. -/
theorem not_ahead_of_flip {h : Heading} {floor other : Fin n} (behind : h.flip.Ahead floor other) :
    ¬h.Ahead floor other := by
  cases h <;> exact lt_asymm behind

/-- A floor ahead is the next one or still ahead of it. -/
theorem Next.eq_or_ahead {h : Heading} {floor next other : Fin n} (adjacent : h.Next floor next)
    (ahead : h.Ahead floor other) : other = next ∨ h.Ahead next other := by
  cases h <;> simp only [Next, Ahead, Fin.lt_def, Fin.ext_iff] at * <;> omega

/-- Where a floor lies ahead there is a next one. -/
theorem exists_next {h : Heading} {floor other : Fin n} (ahead : h.Ahead floor other) :
    ∃ next, h.Next floor next := by
  cases h with
  | up => exact ⟨⟨floor.val + 1, lt_of_le_of_lt (Fin.lt_def.1 ahead) other.isLt⟩, rfl⟩
  | down =>
    have positive : 0 < floor.val := Nat.zero_lt_of_lt (Fin.lt_def.1 ahead)
    exact ⟨⟨floor.val - 1, by omega⟩, by simp only [Next]; omega⟩

/-- A floor with another ahead of it, reached from the one before, is above the bottom floor. -/
theorem Next.inside {h : Heading} {floor next other : Fin n} (adjacent : h.Next floor next)
    (ahead : h.Ahead next other) : 0 < next.val := by
  cases h <;> simp only [Next, Ahead, Fin.lt_def] at * <;> omega

/-- The next floor is one nearer to the end. -/
theorem Next.reach {h : Heading} {floor next : Fin n} (adjacent : h.Next floor next) :
    h.reach next + 1 = h.reach floor := by
  have := next.isLt
  cases h <;> simp only [Next, Heading.reach] at * <;> omega

/-- The two ends are as far apart as the building is high. -/
theorem reach_flip (h : Heading) (floor : Fin n) : h.flip.reach floor + h.reach floor = n - 1 := by
  have := floor.isLt
  cases h <;> simp only [flip, reach] <;> omega

end Heading

/-- What a scanning car is doing. -/
inductive Phase where
  /-- Standing with calls it has not looked at. -/
  | waiting
  /-- Standing with the door held open; whether the calls left have been looked at. -/
  | held (noted : Bool)
  /-- Moving. -/
  | moving
  /-- Standing without calls. -/
  | resting
  deriving DecidableEq, Repr

/-- Whether a phase ends with a decision about the direction. -/
def Phase.decides : Phase → Bool
  | .waiting => true
  | .held noted => noted
  | _ => false

/-- Steps a car can take before it moves on or serves a call. -/
def Phase.stage : Phase → Nat
  | .waiting => 3
  | .held noted => if noted then 2 else 3
  | .moving => 1
  | .resting => 0

/-- Stages left at a door held open. -/
theorem Phase.stage_held_le (noted : Bool) : (held noted).stage ≤ 3 := by
  cases noted <;> decide

/-- Two stages at least are left at a door held open. -/
theorem Phase.le_stage_held (noted : Bool) : 2 ≤ (held noted).stage := by
  cases noted <;> decide

/-- Two stages at least are left before a decision. -/
theorem Phase.stage_of_decides {phase : Phase} (decides : phase.decides = true) :
    2 ≤ phase.stage := by
  cases phase with
  | waiting => decide
  | held noted => exact le_stage_held noted
  | moving => cases decides
  | resting => cases decides

/-- A scanning car. -/
structure Scan (n : Nat) (Button : Type*) where
  /-- Floor the car has reached last. -/
  floor : Fin n
  /-- Direction of the last movement. -/
  heading : Option Heading
  /-- Calls to serve. -/
  calls : Finset (Fin n × Button)
  /-- What the car is doing. -/
  phase : Phase

section

variable {n : Nat} {Button : Type*} (against : Heading → Button)

/-- A step of a scanning car; the label says whether it reaches a floor. -/
inductive ScanStep : Scan n Button → Bool → Scan n Button → Prop where
  /-- A standing car serves calls. -/
  | serves {s : Scan n Button} {calls : Finset (Fin n × Button)}
      (stands : s.phase = .waiting ∨ ∃ noted, s.phase = .held noted) (fewer : calls ⊂ s.calls) :
      ScanStep s false { s with calls := calls, phase := .held false }
  /-- A car at its open door looks at the calls left. -/
  | notes {s : Scan n Button} (unseen : s.phase = .held false) :
      ScanStep s false { s with phase := .held true }
  /-- A car without a heading takes one. -/
  | starts {s : Scan n Button} {h : Heading} {call : Fin n × Button}
      (decides : s.phase.decides = true) (fresh : s.heading = none) (called : call ∈ s.calls)
      (ahead : h.Ahead s.floor call.1) :
      ScanStep s false { s with heading := some h, phase := .moving }
  /-- A car keeps its heading. -/
  | departs {s : Scan n Button} {h : Heading} {call : Fin n × Button}
      (decides : s.phase.decides = true) (heading : s.heading = some h) (called : call ∈ s.calls)
      (ahead : h.Ahead s.floor call.1) : ScanStep s false { s with phase := .moving }
  /-- A car turns. -/
  | turns {s : Scan n Button} {h : Heading} {call : Fin n × Button}
      (decides : s.phase.decides = true) (heading : s.heading = some h) (called : call ∈ s.calls)
      (behind : ∀ c ∈ s.calls, h.flip.Ahead s.floor c.1) :
      ScanStep s false { s with heading := some h.flip, phase := .moving }
  /-- A car without calls rests. -/
  | rests {s : Scan n Button} (decides : s.phase.decides = true) (empty : s.calls = ∅) :
      ScanStep s false { s with phase := .resting }
  /-- A car passes a floor at which every call is against its heading. -/
  | passes {s : Scan n Button} {h : Heading} {next : Fin n} {call : Fin n × Button}
      (moving : s.phase = .moving) (heading : s.heading = some h) (adjacent : h.Next s.floor next)
      (against_ : ∀ c ∈ s.calls, c.1 = next → c.2 = against h) (called : call ∈ s.calls)
      (ahead : h.Ahead next call.1) : ScanStep s true { s with floor := next }
  /-- A car stops at a floor and leaves there no call but those against its heading. -/
  | stops {s : Scan n Button} {h : Heading} {next : Fin n} {calls : Finset (Fin n × Button)}
      {noted : Bool} (moving : s.phase = .moving) (heading : s.heading = some h)
      (adjacent : h.Next s.floor next) (fewer : calls ⊆ s.calls)
      (against_ : ∀ c ∈ calls, c.1 = next → c.2 = against h) :
      ScanStep s true { s with floor := next, calls := calls, phase := .held noted }

end

/-- The legs on which a car serves its calls. -/
inductive Leg where
  | first
  | second
  | third
  deriving DecidableEq, Repr

/-- Legs still to come. -/
def Leg.left : Leg → Nat
  | .first => 2
  | .second => 1
  | .third => 0

namespace Scan

variable {n : Nat} {Button : Type*} (against : Heading → Button) {s s' : Scan n Button}

/-- What the calls of a car say about the leg it is on: nothing on the first; on the second every
call lies ahead or is against the heading; on the third every call lies ahead and is served on
the way. -/
def OnLeg (s : Scan n Button) : Leg → Prop
  | .first => True
  | .second => ∃ h, s.heading = some h ∧ ∀ c ∈ s.calls, h.Ahead s.floor c.1 ∨ c.2 = against h
  | .third => ∃ h, s.heading = some h ∧
      ∀ c ∈ s.calls, h.Ahead s.floor c.1 ∧ c.2 = against h.flip

/-- Floors left on the legs of a car. -/
def floorsLeft (s : Scan n Button) (leg : Leg) : Nat :=
  leg.left * (n - 1) + s.heading.elim (n - 1) (fun h => h.reach s.floor)

/-- Steps a car on a leg may take at most. -/
def stepsLeft (s : Scan n Button) (leg : Leg) : Nat :=
  4 * (s.floorsLeft leg + s.calls.card) + s.phase.stage

/-- A car has at most three times the way between the ends before it. -/
theorem floorsLeft_le (s : Scan n Button) (leg : Leg) : s.floorsLeft leg ≤ 3 * (n - 1) := by
  have reach : s.heading.elim (n - 1) (fun h => h.reach s.floor) ≤ n - 1 := by
    cases s.heading with
    | none => exact le_rfl
    | some h => exact (Nat.le_add_left _ _).trans_eq (h.reach_flip s.floor)
  cases leg <;> simp only [floorsLeft, Leg.left] <;> omega

/-- Calls that are served stay served on the leg. -/
theorem OnLeg.fewer {leg : Leg} (on : s.OnLeg against leg) (heading : s'.heading = s.heading)
    (floor : s'.floor = s.floor) (fewer : s'.calls ⊆ s.calls) : s'.OnLeg against leg := by
  unfold OnLeg at *
  rw [heading, floor]
  cases leg with
  | first => exact trivial
  | second =>
    obtain ⟨h, eq, calls⟩ := on
    exact ⟨h, eq, fun c called => calls c (fewer called)⟩
  | third =>
    obtain ⟨h, eq, calls⟩ := on
    exact ⟨h, eq, fun c called => calls c (fewer called)⟩

/-- A floor at which only calls against the heading are left does not end a leg. -/
theorem OnLeg.next (distinct : Function.Injective against) {leg : Leg} {h : Heading}
    (on : s.OnLeg against leg) (heading : s.heading = some h) (heading' : s'.heading = some h)
    (adjacent : h.Next s.floor s'.floor) (fewer : s'.calls ⊆ s.calls)
    (against_ : ∀ c ∈ s'.calls, c.1 = s'.floor → c.2 = against h) : s'.OnLeg against leg := by
  cases leg with
  | first => exact trivial
  | second =>
    obtain ⟨h', eq, calls⟩ := on
    obtain rfl := Option.some.inj (heading.symm.trans eq)
    refine ⟨h, heading', fun c called => ?_⟩
    rcases calls c (fewer called) with ahead | other
    · rcases adjacent.eq_or_ahead ahead with here | further
      · exact .inr (against_ c called here)
      · exact .inl further
    · exact .inr other
  | third =>
    obtain ⟨h', eq, calls⟩ := on
    obtain rfl := Option.some.inj (heading.symm.trans eq)
    refine ⟨h, heading', fun c called => ?_⟩
    obtain ⟨ahead, along⟩ := calls c (fewer called)
    rcases adjacent.eq_or_ahead ahead with here | further
    · exact absurd (distinct (along.symm.trans (against_ c called here))) h.flip_ne
    · exact ⟨further, along⟩

/-- A car that turns is on its next leg: it has one to turn into, since on the third every call
lies ahead. -/
theorem OnLeg.turn {leg : Leg} {h : Heading} {call : Fin n × Button} (on : s.OnLeg against leg)
    (heading : s.heading = some h) (called : call ∈ s.calls)
    (behind : ∀ c ∈ s.calls, h.flip.Ahead s.floor c.1) (phase : Phase) :
    ∃ leg', leg'.left + 1 = leg.left ∧
      ({ s with heading := some h.flip, phase := phase } : Scan n Button).OnLeg against leg' := by
  cases leg with
  | first => exact ⟨.second, rfl, h.flip, rfl, fun c called => .inl (behind c called)⟩
  | second =>
    obtain ⟨h', eq, calls⟩ := on
    obtain rfl := Option.some.inj (heading.symm.trans eq)
    refine ⟨.third, rfl, h.flip, rfl, fun c called => ⟨behind c called, ?_⟩⟩
    rw [Heading.flip_flip]
    exact (calls c called).resolve_left (Heading.not_ahead_of_flip (behind c called))
  | third =>
    obtain ⟨h', eq, calls⟩ := on
    obtain rfl := Option.some.inj (heading.symm.trans eq)
    exact absurd (calls call called).1 (Heading.not_ahead_of_flip (behind call called))

end Scan

section

variable {n : Nat} {Button : Type*} {against : Heading → Button} {s s' : Scan n Button}
  {arrival : Bool}

/-- Every step of a car leaves it on a leg, reaches a floor only at the cost of one left, and
leaves fewer steps. -/
theorem ScanStep.progress (distinct : Function.Injective against)
    (step : ScanStep against s arrival s') {leg : Leg} (on : s.OnLeg against leg) :
    ∃ leg', s'.OnLeg against leg' ∧ s'.floorsLeft leg' + arrival.toNat ≤ s.floorsLeft leg ∧
      s'.stepsLeft leg' < s.stepsLeft leg := by
  cases step with
  | serves stands fewer =>
    refine ⟨leg, on.fewer against rfl rfl fewer.1, le_rfl, ?_⟩
    have served := Finset.card_lt_card fewer
    have before : 2 ≤ s.phase.stage := by
      rcases stands with waiting | ⟨noted, held⟩
      · rw [waiting]
        decide
      · rw [held]
        exact Phase.le_stage_held noted
    have after := Phase.stage_held_le false
    simp only [Scan.stepsLeft, Scan.floorsLeft]
    omega
  | notes unseen =>
    refine ⟨leg, on.fewer against rfl rfl subset_rfl, le_rfl, ?_⟩
    simp [Scan.stepsLeft, Scan.floorsLeft, Phase.stage, unseen]
  | @starts h _ decides fresh _ _ =>
    -- a car without a heading is on the first leg, and any end is within reach
    have first : leg = .first := by
      cases leg with
      | first => rfl
      | second =>
        obtain ⟨_, heading, _⟩ := on
        cases fresh.symm.trans heading
      | third =>
        obtain ⟨_, heading, _⟩ := on
        cases fresh.symm.trans heading
    subst first
    have reach := h.reach_flip s.floor
    have before := Phase.stage_of_decides decides
    have after : Phase.moving.stage = 1 := rfl
    refine ⟨.first, trivial, ?_, ?_⟩ <;>
      simp only [Scan.stepsLeft, Scan.floorsLeft, fresh, Option.elim, Bool.toNat_false] at * <;> omega
  | departs decides heading _ _ =>
    have before := Phase.stage_of_decides decides
    have after : Phase.moving.stage = 1 := rfl
    refine ⟨leg, on.fewer against rfl rfl subset_rfl, le_rfl, ?_⟩
    simp only [Scan.stepsLeft, Scan.floorsLeft]
    omega
  | @turns h _ decides heading called behind =>
    obtain ⟨leg', left, on'⟩ := on.turn against heading called behind .moving
    have reach := h.reach_flip s.floor
    have before := Phase.stage_of_decides decides
    have after : Phase.moving.stage = 1 := rfl
    have legs : leg.left * (n - 1) = leg'.left * (n - 1) + (n - 1) := by
      rw [← left, Nat.add_mul, Nat.one_mul]
    refine ⟨leg', on', ?_, ?_⟩ <;>
      simp only [Scan.stepsLeft, Scan.floorsLeft, heading, Option.elim, Bool.toNat_false] at * <;> omega
  | rests decides empty =>
    have before := Phase.stage_of_decides decides
    have after : Phase.resting.stage = 0 := rfl
    refine ⟨leg, on.fewer against rfl rfl subset_rfl, le_rfl, ?_⟩
    simp only [Scan.stepsLeft, Scan.floorsLeft]
    omega
  | passes moving heading adjacent against_ _ _ =>
    have reach := adjacent.reach
    refine ⟨leg, on.next against distinct heading heading adjacent subset_rfl against_, ?_, ?_⟩ <;>
      simp only [Scan.stepsLeft, Scan.floorsLeft, heading, Option.elim, Bool.toNat_true] at * <;>
      omega
  | @stops h next calls noted moving heading adjacent fewer against_ =>
    have reach := adjacent.reach
    have served := Finset.card_le_card fewer
    have before : s.phase.stage = 1 := by rw [moving, Phase.stage]
    have after := Phase.stage_held_le noted
    refine ⟨leg, on.next against distinct heading heading adjacent fewer against_, ?_, ?_⟩ <;>
      simp only [Scan.stepsLeft, Scan.floorsLeft, heading, Option.elim, Bool.toNat_true] at * <;>
      omega

/-- A scanning car reaches at most three times as many floors as lie between the ends. -/
theorem scan_arrivals_le (distinct : Function.Injective against)
    {trace : List (Transition (Scan n Button) Bool)} (run : Run (ScanStep against) s trace s') :
    trace.countP Transition.action ≤ 3 * (n - 1) := by
  obtain ⟨m, _, spent⟩ := run.spends
    (fun s m => ∃ leg, s.OnLeg against leg ∧ s.floorsLeft leg = m) Transition.action
    (fun step ⟨leg, on, eq⟩ => by
      obtain ⟨leg', on', floors, _⟩ := step.progress distinct on
      exact ⟨_, ⟨leg', on', rfl⟩, eq ▸ floors⟩)
    ⟨.first, trivial, rfl⟩
  exact (Nat.le_add_left _ _).trans (spent.trans (s.floorsLeft_le .first))

/-- A scanning car takes only so many steps. -/
theorem scan_length_le (distinct : Function.Injective against)
    {trace : List (Transition (Scan n Button) Bool)} (run : Run (ScanStep against) s trace s') :
    trace.length ≤ s.stepsLeft .first := by
  obtain ⟨m, _, spent⟩ := run.spends
    (fun s m => ∃ leg, s.OnLeg against leg ∧ s.stepsLeft leg = m) (fun _ => true)
    (fun step ⟨leg, on, eq⟩ => by
      obtain ⟨leg', on', _, steps⟩ := step.progress distinct on
      exact ⟨_, ⟨leg', on', rfl⟩, eq ▸ steps⟩)
    ⟨.first, trivial, rfl⟩
  rw [List.countP_true] at spent
  exact (Nat.le_add_left _ _).trans spent

end

/-- A car at rest takes no step. -/
theorem ScanStep.busy {n : Nat} {Button : Type*} {against : Heading → Button} {s s' : Scan n Button}
    {arrival : Bool} (step : ScanStep against s arrival s') : s.phase ≠ .resting := by
  intro resting
  cases step with
  | serves stands =>
    rcases stands with waiting | ⟨noted, held⟩
    · cases waiting.symm.trans resting
    · cases held.symm.trans resting
  | notes unseen => cases unseen.symm.trans resting
  | starts decides | departs decides | turns decides | rests decides =>
    rw [resting] at decides
    cases decides
  | passes moving | stops moving => cases moving.symm.trans resting

/-- Until a car rests it has a step to take. -/
theorem Scan.stepsLeft_pos {n : Nat} {Button : Type*} {s : Scan n Button} (busy : s.phase ≠ .resting)
    (leg : Leg) : 1 ≤ s.stepsLeft leg := by
  have stage : 1 ≤ s.phase.stage := by
    cases phase : s.phase with
    | waiting | moving => decide
    | held noted => exact (by decide : 1 ≤ 2).trans (Phase.le_stage_held noted)
    | resting => exact absurd phase busy
  exact stage.trans (Nat.le_add_left _ _)

/-- How calls that are made or taken back from outside may change what a car is doing: a standing car has
calls to look at or none, and an open door has to be looked at again. -/
inductive Phase.Recalled : Phase → Phase → Prop where
  | moving : Recalled .moving .moving
  | held (noted noted' : Bool) : Recalled (.held noted) (.held noted')
  | kept : Recalled .waiting .waiting
  | emptied : Recalled .waiting .resting
  | called : Recalled .resting .waiting
  | still : Recalled .resting .resting

/-- A busy car is set back by one stage at most. -/
theorem Phase.Recalled.stage_le {phase phase' : Phase} (recalled : phase.Recalled phase')
    (busy : phase ≠ .resting) : phase'.stage ≤ phase.stage + 1 := by
  cases recalled with
  | moving | kept | emptied => decide
  | held noted noted' =>
    have before := Phase.le_stage_held noted
    have after := Phase.stage_held_le noted'
    omega
  | called | still => exact absurd rfl busy

/-- Calls are made or taken back from outside. -/
structure Scan.Recalled {n : Nat} {Button : Type*} (s s' : Scan n Button) : Prop where
  /-- The car stays where it is. -/
  floor : s'.floor = s.floor
  /-- It has not turned. -/
  heading : s'.heading = s.heading
  /-- What it is doing. -/
  phase : s.phase.Recalled s'.phase
  /-- Nothing changes with the same calls. -/
  same : s'.calls = s.calls → s'.phase = s.phase

namespace Scan.Recalled

variable {n : Nat} {Button : Type*} {against : Heading → Button} {s s' : Scan n Button}

/-- The calls may also stay the same. -/
theorem refl (s : Scan n Button) : s.Recalled s where
  floor := rfl
  heading := rfl
  phase := by
    cases s.phase with
    | waiting => exact .kept
    | held noted => exact .held noted noted
    | moving => exact .moving
    | resting => exact .still
  same _ := rfl

/-- A car at rest without calls stays at rest if none is made. -/
theorem rests (recalled : s.Recalled s') (fewer : s'.calls ⊆ s.calls) (resting : s.phase = .resting)
    (empty : s.calls = ∅) : s'.phase = .resting := by
  have none : s'.calls = s.calls := by
    rw [empty] at fewer ⊢
    exact Finset.subset_empty.1 fewer
  exact (recalled.same none).trans resting

/-- Calls that are taken back from a busy car leave it on its leg, with no more steps to take. -/
theorem progress (recalled : s.Recalled s') (fewer : s'.calls ⊆ s.calls) (busy : s.phase ≠ .resting)
    {leg : Leg} (on : s.OnLeg against leg) :
    s'.OnLeg against leg ∧ s'.stepsLeft leg ≤ s.stepsLeft leg := by
  refine ⟨on.fewer against recalled.heading recalled.floor fewer, ?_⟩
  have floors : s'.floorsLeft leg = s.floorsLeft leg := by
    unfold Scan.floorsLeft
    rw [recalled.heading, recalled.floor]
  unfold Scan.stepsLeft
  by_cases same : s'.calls = s.calls
  · rw [floors, same, recalled.same same]
  · have card := Finset.card_lt_card (Finset.ssubset_iff_subset_ne.2 ⟨fewer, same⟩)
    have stage := recalled.phase.stage_le busy
    omega

end Scan.Recalled

end CppElevator.Library
