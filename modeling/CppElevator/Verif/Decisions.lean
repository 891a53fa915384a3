import CppElevator.Library.Scan
import CppElevator.Verif.ControllerEvents

/-!
# The decisions of the controller

What `ChooseDirection`, `ShouldStop` and `ClearCurrentFloor` say about the calls in the request
table, for both directions of travel at once. A decision is one a scanning car may take; a floor
is passed only when every call there is against the direction of travel; and no other call is left
at a floor where the car stops.
-/
namespace CppElevator

open Library RequestTable

variable {kFloors : Nat}

/-- The direction of travel, if the car has moved. -/
def Inertia.heading : Inertia → Option Heading
  | .up => some .up
  | .down => some .down
  | .none => Option.none

/-- The motor command of a direction. -/
def Library.Heading.motorDir : Heading → MotorDir
  | .up => .up
  | .down => .down

/-- The hall button for the other direction. -/
def hallAgainst : Heading → BtnType
  | .up => .hallDown
  | .down => .hallUp

/-- The hall buttons differ. -/
theorem hallAgainst_injective : Function.Injective hallAgainst := by
  intro left right same
  cases left <;> cases right <;> first | rfl | cases same

/-- A motor command for a direction turns the car into it. -/
@[simp]
theorem Inertia.heading_turned (inertia : Inertia) (h : Heading) :
    (inertia.turned h.motorDir).heading = some h := by cases h <;> rfl

namespace BoolTable

/-- The buttons set in a table. -/
def calls (t : BoolTable kFloors) : Finset (Fin kFloors × BtnType) :=
  Finset.univ.filter fun c => t c.1 c.2 = true

@[simp]
theorem mem_calls {t : BoolTable kFloors} {c : Fin kFloors × BtnType} :
    c ∈ t.calls ↔ t c.1 c.2 = true := by simp [calls]

/-- The calls determine the table. -/
theorem eq_of_calls_eq {left right : BoolTable kFloors} (same : left.calls = right.calls) :
    left = right := by
  funext f b
  have cell : (f, b) ∈ left.calls ↔ (f, b) ∈ right.calls := by rw [same]
  rw [mem_calls, mem_calls] at cell
  exact Bool.eq_iff_iff.2 cell

/-- A larger table has all the calls. -/
theorem calls_mono {left right : BoolTable kFloors} (fewer : left ≤ right) : left.calls ⊆ right.calls := by
  intro c called
  rw [mem_calls] at called ⊢
  exact Bool.le_iff_imp.1 (fewer c.1 c.2) called

/-- A table has at most three calls to a floor. -/
theorem card_calls_le (t : BoolTable kFloors) : t.calls.card ≤ 3 * kFloors := by
  have buttons : Fintype.card BtnType = 3 := rfl
  have all := Finset.card_le_univ t.calls
  rwa [Fintype.card_prod, Fintype.card_fin, buttons, Nat.mul_comm] at all

/-- The table without the given buttons of a floor. -/
def cleared (t : BoolTable kFloors) (floor : Fin kFloors) (b2c : ButtonFlags) : BoolTable kFloors :=
  fun f b => t f b && !(decide (f = floor) && b2c b)

/-- Clearing nothing leaves the table as it is. -/
@[simp]
theorem cleared_kNoClear (t : BoolTable kFloors) (floor : Fin kFloors) :
    t.cleared floor kNoClear = t := by
  funext f b
  simp [cleared, kNoClear, ButtonFlags.zeros]

/-- Clearing makes no call. -/
theorem calls_cleared_subset (t : BoolTable kFloors) (floor : Fin kFloors) (b2c : ButtonFlags) :
    (t.cleared floor b2c).calls ⊆ t.calls := by
  intro c called
  simp only [mem_calls, cleared, Bool.and_eq_true] at called ⊢
  exact called.1

end BoolTable

namespace RequestTable

variable {t : BoolTable kFloors} {floor : Fin kFloors}

/-- A floor of the building is inside the table. -/
@[simp]
theorem value_floor (t : BoolTable kFloors) (floor : Fin kFloors) (btn : BtnType) :
    value t floor.val btn = t floor btn := by
  have range : (0 : Int) ≤ floor.val ∧ (floor.val : Int) < kFloors := ⟨by omega, by omega⟩
  simp [value]

/-- A request is at a floor exactly when a call is there. -/
theorem isRequestHere_iff_calls :
    isRequestHere t floor.val = true ↔ ∃ c ∈ t.calls, c.1 = floor := by
  rw [isRequestHere_iff]
  constructor
  · rintro ⟨f, same, b, set⟩
    exact ⟨(f, b), BoolTable.mem_calls.2 set, Fin.ext (Int.ofNat.inj same)⟩
  · rintro ⟨⟨f, b⟩, called, rfl⟩
    exact ⟨f, rfl, b, BoolTable.mem_calls.1 called⟩

/-- A request is above a floor exactly when a call lies ahead on the way up. -/
theorem isRequestAbove_iff_calls :
    isRequestAbove t floor.val = true ↔ ∃ c ∈ t.calls, Heading.up.Ahead floor c.1 := by
  rw [isRequestAbove_iff]
  constructor
  · rintro ⟨f, above, b, set⟩
    exact ⟨(f, b), BoolTable.mem_calls.2 set, Fin.lt_def.2 (by simpa using above)⟩
  · rintro ⟨⟨f, b⟩, called, ahead⟩
    exact ⟨f, by simpa using Fin.lt_def.1 ahead, b, BoolTable.mem_calls.1 called⟩

/-- A request is below a floor exactly when a call lies ahead on the way down. -/
theorem isRequestBelow_iff_calls :
    isRequestBelow t floor.val = true ↔ ∃ c ∈ t.calls, Heading.down.Ahead floor c.1 := by
  rw [isRequestBelow_iff]
  constructor
  · rintro ⟨f, below, b, set⟩
    exact ⟨(f, b), BoolTable.mem_calls.2 set, Fin.lt_def.2 (by simpa using below)⟩
  · rintro ⟨⟨f, b⟩, called, ahead⟩
    exact ⟨f, by simpa using Fin.lt_def.1 ahead, b, BoolTable.mem_calls.1 called⟩

end RequestTable

/-- The decisions a scanning car may take at a floor. -/
inductive Decides (heading : Option Heading) (calls : Finset (Fin kFloors × BtnType))
    (floor : Fin kFloors) : DirMovPair → Prop where
  /-- Take a heading. -/
  | starts {h : Heading} {c : Fin kFloors × BtnType} (fresh : heading = none) (called : c ∈ calls)
      (ahead : h.Ahead floor c.1) : Decides heading calls floor ⟨h.motorDir, .moving⟩
  /-- Keep the heading. -/
  | departs {h : Heading} {c : Fin kFloors × BtnType} (kept : heading = some h) (called : c ∈ calls)
      (ahead : h.Ahead floor c.1) : Decides heading calls floor ⟨h.motorDir, .moving⟩
  /-- Turn. -/
  | turns {h : Heading} {c : Fin kFloors × BtnType} (left : heading = some h) (called : c ∈ calls)
      (behind : ∀ c ∈ calls, h.flip.Ahead floor c.1) :
      Decides heading calls floor ⟨h.flip.motorDir, .moving⟩
  /-- Open the door for a call at the floor when none lies ahead. -/
  | opens {c : Fin kFloors × BtnType} (called : c ∈ calls) (here : c.1 = floor)
      (done : ∀ h, heading = some h → ∀ c ∈ calls, ¬h.Ahead floor c.1) :
      Decides heading calls floor ⟨.stop, .doorOpen⟩
  /-- Rest. -/
  | rests (empty : calls = ∅) : Decides heading calls floor ⟨.stop, .idle⟩

namespace Controller

/-- Every decision of the controller is one of these. -/
theorem decides_chooseDirection (c : Controller kFloors) (floor : Fin kFloors) :
    Decides c.inertia.heading c.requests.calls floor (c.chooseDirection floor.val) := by
  have nowhere (here : ¬isRequestHere c.requests floor.val = true)
      (above : ¬isRequestAbove c.requests floor.val = true)
      (below : ¬isRequestBelow c.requests floor.val = true) : c.requests.calls = ∅ := by
    rw [eq_zeros_of_no_request (Bool.of_not_eq_true here) (Bool.of_not_eq_true above)
      (Bool.of_not_eq_true below)]
    ext
    simp [BoolTable.zeros]
  -- the calls that are left when two of the three tests have failed
  have elsewhere (here : ¬isRequestHere c.requests floor.val = true) (h : Heading)
      (ahead : ∀ c' ∈ c.requests.calls, ¬h.Ahead floor c'.1) :
      ∀ c' ∈ c.requests.calls, h.flip.Ahead floor c'.1 := by
    intro c' called
    have apart : c'.1 ≠ floor := fun same =>
      here (isRequestHere_iff_calls.2 ⟨c', called, same⟩)
    have other := ahead c' called
    cases h <;> simp only [Heading.Ahead, Heading.flip, not_lt] at other ⊢
    · exact lt_of_le_of_ne other apart
    · exact lt_of_le_of_ne other apart.symm
  have noneAbove (above : ¬isRequestAbove c.requests floor.val = true) :
      ∀ c' ∈ c.requests.calls, ¬Heading.up.Ahead floor c'.1 := fun c' called ahead =>
    above (isRequestAbove_iff_calls.2 ⟨c', called, ahead⟩)
  have noneBelow (below : ¬isRequestBelow c.requests floor.val = true) :
      ∀ c' ∈ c.requests.calls, ¬Heading.down.Ahead floor c'.1 := fun c' called ahead =>
    below (isRequestBelow_iff_calls.2 ⟨c', called, ahead⟩)
  unfold chooseDirection
  cases dir : c.inertia with
  | up =>
    dsimp only
    split_ifs with above here below
    · obtain ⟨c', called, ahead⟩ := isRequestAbove_iff_calls.1 above
      exact .departs rfl called ahead
    · obtain ⟨c', called, same⟩ := isRequestHere_iff_calls.1 here
      refine .opens called same fun h heading => ?_
      obtain rfl := Option.some.inj heading
      exact noneAbove above
    · obtain ⟨c', called, _⟩ := isRequestBelow_iff_calls.1 below
      exact .turns rfl called (elsewhere here .up (noneAbove above))
    · exact .rests (nowhere here above below)
  | down =>
    dsimp only
    split_ifs with below here above
    · obtain ⟨c', called, ahead⟩ := isRequestBelow_iff_calls.1 below
      exact .departs rfl called ahead
    · obtain ⟨c', called, same⟩ := isRequestHere_iff_calls.1 here
      refine .opens called same fun h heading => ?_
      obtain rfl := Option.some.inj heading
      exact noneBelow below
    · obtain ⟨c', called, _⟩ := isRequestAbove_iff_calls.1 above
      exact .turns rfl called (elsewhere here .down (noneBelow below))
    · exact .rests (nowhere here above below)
  | none =>
    dsimp only
    split_ifs with here above below
    · obtain ⟨c', called, same⟩ := isRequestHere_iff_calls.1 here
      exact .opens called same (fun h heading => by cases heading)
    · obtain ⟨c', called, ahead⟩ := isRequestAbove_iff_calls.1 above
      exact .starts rfl called ahead
    · obtain ⟨c', called, ahead⟩ := isRequestBelow_iff_calls.1 below
      exact .starts rfl called ahead
    · exact .rests (nowhere here above below)

/-- A floor is passed only on the way to a call ahead, and when every call there is against the
direction of travel. -/
theorem of_shouldStop_false {c : Controller kFloors} {floor : Fin kFloors}
    (passes : c.shouldStop floor.val = false) : ∃ h, c.inertia.heading = some h ∧
      (∃ call ∈ c.requests.calls, h.Ahead floor call.1) ∧
      ∀ call ∈ c.requests.calls, call.1 = floor → call.2 = hallAgainst h := by
  cases dir : c.inertia with
  | none => simp [shouldStop, dir] at passes
  | up =>
    simp only [shouldStop, dir, value_floor, Bool.or_eq_false_iff, Bool.not_eq_false'] at passes
    obtain ⟨⟨along, cab⟩, above⟩ := passes
    refine ⟨.up, rfl, isRequestAbove_iff_calls.1 above, ?_⟩
    rintro ⟨f, b⟩ called rfl
    rw [BoolTable.mem_calls] at called
    cases b with
    | hallUp => exact absurd (along.symm.trans called) Bool.false_ne_true
    | hallDown => rfl
    | cab => exact absurd (cab.symm.trans called) Bool.false_ne_true
  | down =>
    simp only [shouldStop, dir, value_floor, Bool.or_eq_false_iff, Bool.not_eq_false'] at passes
    obtain ⟨⟨along, cab⟩, below⟩ := passes
    refine ⟨.down, rfl, isRequestBelow_iff_calls.1 below, ?_⟩
    rintro ⟨f, b⟩ called rfl
    rw [BoolTable.mem_calls] at called
    cases b with
    | hallUp => rfl
    | hallDown => exact absurd (along.symm.trans called) Bool.false_ne_true
    | cab => exact absurd (cab.symm.trans called) Bool.false_ne_true

/-- A stop serves every button of the floor but the one against the direction of travel. -/
theorem clearCurrentFloor_or_against (c : Controller kFloors) (floor : Int) (b : BtnType) :
    c.clearCurrentFloor floor b = true ∨ ∃ h, c.inertia.heading = some h ∧ b = hallAgainst h := by
  cases dir : c.inertia <;> cases b <;>
    simp [clearCurrentFloor, dir, Inertia.heading, hallAgainst]

/-- The calls a stop leaves at its floor are against the direction of travel. -/
theorem against_of_left {c : Controller kFloors} {floor : Fin kFloors} {call : Fin kFloors × BtnType}
    (left : call ∈ (c.requests.cleared floor (c.clearCurrentFloor floor.val)).calls)
    (here : call.1 = floor) : ∃ h, c.inertia.heading = some h ∧ call.2 = hallAgainst h := by
  simp only [BoolTable.mem_calls, BoolTable.cleared, here, decide_true, Bool.true_and,
    Bool.and_eq_true, Bool.not_eq_true'] at left
  exact (c.clearCurrentFloor_or_against floor.val call.2).resolve_left (by simp [left.2])

/-- A stop at a floor with a call serves one when no call lies ahead. -/
theorem exists_served {c : Controller kFloors} {floor : Fin kFloors} {call : Fin kFloors × BtnType}
    (called : call ∈ c.requests.calls) (here : call.1 = floor)
    (done : ∀ h, c.inertia.heading = some h → ∀ call ∈ c.requests.calls, ¬h.Ahead floor call.1) :
    ∃ b, c.requests floor b = true ∧ c.clearCurrentFloor floor.val b = true := by
  obtain ⟨f, b⟩ := call
  subst here
  rw [BoolTable.mem_calls] at called
  cases dir : c.inertia with
  | none => exact ⟨b, called, by simp [clearCurrentFloor, dir]⟩
  | up =>
    have above : isRequestAbove c.requests f.val = false := by
      rw [← Bool.not_eq_true, isRequestAbove_iff_calls]
      rintro ⟨other, called, ahead⟩
      exact done .up (by rw [dir]; rfl) other called ahead
    by_cases along : c.requests f .hallUp = true
    · exact ⟨.hallUp, along, by simp [clearCurrentFloor, dir]⟩
    · exact ⟨b, called, by cases b <;> simp [clearCurrentFloor, dir, above, along]⟩
  | down =>
    have below : isRequestBelow c.requests f.val = false := by
      rw [← Bool.not_eq_true, isRequestBelow_iff_calls]
      rintro ⟨other, called, ahead⟩
      exact done .down (by rw [dir]; rfl) other called ahead
    by_cases along : c.requests f .hallDown = true
    · exact ⟨.hallDown, along, by simp [clearCurrentFloor, dir]⟩
    · exact ⟨b, called, by cases b <;> simp [clearCurrentFloor, dir, below, along]⟩

/-- A decision to open the door is one to serve a call. -/
theorem calls_served_ssubset {c : Controller kFloors} {floor : Fin kFloors}
    (opens : c.chooseDirection floor.val = ⟨.stop, .doorOpen⟩) :
    (c.requests.cleared floor (c.clearCurrentFloor floor.val)).calls ⊂ c.requests.calls := by
  have decides := c.decides_chooseDirection floor
  generalize c.chooseDirection floor.val = pair at opens decides
  cases decides with
  | opens called here done =>
    obtain ⟨b, set, serves⟩ := exists_served called here done
    refine Finset.ssubset_iff_subset_ne.2
      ⟨c.requests.calls_cleared_subset floor _, fun same => ?_⟩
    have kept : (floor, b) ∈ c.requests.calls := BoolTable.mem_calls.2 set
    rw [← same] at kept
    simp [BoolTable.cleared, serves] at kept
  | _ => exact absurd (congrArg DirMovPair.movingState opens) (by simp)

end Controller

end CppElevator
