import CppElevator.Peers

/-!
# Costs

The cost of an active elevator stays below the cost of an inactive one: the distance, the orders
and the flags add up to less than the largest `int` in every building of a reasonable height. The
elevator with the least cost is therefore active whenever some elevator is.
-/
namespace CppElevator

open Config

variable {kFloors : Nat}

/-- No cost in a building of this height reaches the cost of an inactive elevator. -/
def CostsFit (kFloors : Nat) : Prop := 18 * (kFloors : Int) + 2122 < intMax

/-- The configured building is one of them. -/
theorem costsFit_config : CostsFit Config.kFloors := by
  unfold CostsFit intMax
  decide

/-- The floor is one `SetFloor` lets through, or the default. -/
def ElevatorState.Placed (s : ElevatorState kFloors) : Prop := -1 ≤ s.floor ∧ s.floor < kFloors

/-- A loop that adds at most `step` in each iteration. -/
theorem foldl_bounds {α : Type*} {body : Int → α → Int} {step : Int}
    (adds : ∀ cost a, cost ≤ body cost a ∧ body cost a ≤ cost + step) (listed : List α) (cost : Int) :
    cost ≤ listed.foldl body cost ∧ listed.foldl body cost ≤ cost + step * listed.length := by
  induction listed generalizing cost with
  | nil => simp
  | cons a listed ih =>
    obtain ⟨lower, upper⟩ := adds cost a
    obtain ⟨lower', upper'⟩ := ih (body cost a)
    have length : step * ((a :: listed).length : Int) = step + step * listed.length := by
      rw [List.length_cons, Int.natCast_add, Int.mul_add, Int.natCast_one, Int.mul_one, Int.add_comm]
    rw [List.foldl_cons, length]
    omega

/-- The orders of an elevator cost at most five for each button. -/
theorem requestPenalty_bounds (reqs : BoolTable kFloors) :
    0 ≤ requestPenalty reqs ∧ requestPenalty reqs ≤ 15 * kFloors := by
  have button (f : Fin kFloors) (cost : Int) (b : BtnType) :
      cost ≤ (if reqs f b then cost + kPenaltyPerOrder else cost) ∧
        (if reqs f b then cost + kPenaltyPerOrder else cost) ≤ cost + 5 := by
    unfold kPenaltyPerOrder
    split_ifs <;> omega
  have floor (cost : Int) (f : Fin kFloors) :=
    foldl_bounds (button f) [.hallUp, .hallDown, .cab] cost
  have all := foldl_bounds floor (List.finRange kFloors) 0
  rw [List.length_finRange] at all
  simp only [List.length_cons, List.length_nil] at all
  unfold requestPenalty
  push_cast at all
  omega

/-- Of the two directional penalties at most one applies. -/
theorem directionPenalty_bounds (s : ElevatorState kFloors) (floor : Fin kFloors) :
    0 ≤ directionPenalty s floor ∧ directionPenalty s floor ≤ 10 := by
  unfold directionPenalty kPenaltyWrongDir
  dsimp only
  split_ifs <;> omega

/-- The cost of an active elevator that knows its floor stays below that of an inactive one. -/
theorem elevatorCost_lt {s : ElevatorState kFloors} (fits : CostsFit kFloors)
    (active : s.active = true) (placed : s.Placed) (floor : Fin kFloors) :
    elevatorCost s floor < intMax := by
  obtain ⟨lower, upper⟩ := placed
  have inside := floor.isLt
  have requests := requestPenalty_bounds s.requests
  have direction := directionPenalty_bounds s floor
  have distance : ((s.floor - floor.val).natAbs : Int) ≤ kFloors := by omega
  unfold CostsFit at fits
  rw [elevatorCost, if_pos active]
  unfold kPenaltyFloorDiff kPenaltyObstruction kPenaltyFault kPenaltyStopped kPenaltyDoorOpen
  split_ifs <;> omega

/-- No usable elevator in a building of this height costs as much as an obstruction. -/
def UsableFits (kFloors : Nat) : Prop := 18 * (kFloors : Int) + 9 < kPenaltyObstruction

/-- The configured building is one of them. -/
theorem usableFits_config : UsableFits Config.kFloors := by
  unfold UsableFits kPenaltyObstruction
  decide

/-- What an elevator that nothing keeps from serving can cost at most: the whole height, every
button, the open door and one wrong direction. -/
theorem elevatorCost_of_usable {s : ElevatorState kFloors} (usable : s.usable = true)
    (inside : 0 ≤ s.floor ∧ s.floor < kFloors) (floor : Fin kFloors) :
    elevatorCost s floor ≤ 18 * kFloors + 9 := by
  obtain ⟨lower, upper⟩ := inside
  have within := floor.isLt
  simp only [ElevatorState.usable, Bool.and_eq_true, Bool.not_eq_true'] at usable
  obtain ⟨⟨⟨active, unobstructed⟩, running⟩, sound⟩ := usable
  have requests := requestPenalty_bounds s.requests
  have direction := directionPenalty_bounds s floor
  have distance : ((s.floor - floor.val).natAbs : Int) ≤ kFloors - 1 := by omega
  rw [elevatorCost, if_pos active]
  simp only [unobstructed, sound, running, Bool.false_eq_true, ↓reduceIte]
  unfold kPenaltyFloorDiff kPenaltyDoorOpen
  split_ifs <;> omega

/-- An elevator that is not usable costs as much as an obstruction, whatever else it does. -/
theorem elevatorCost_of_not_usable {s : ElevatorState kFloors} (unusable : s.usable = false)
    (floor : Fin kFloors) : kPenaltyObstruction ≤ elevatorCost s floor := by
  have requests := requestPenalty_bounds s.requests
  have direction := directionPenalty_bounds s floor
  have distance : (0 : Int) ≤ (s.floor - floor.val).natAbs := Int.natCast_nonneg _
  unfold ElevatorState.usable at unusable
  unfold elevatorCost kPenaltyFloorDiff kPenaltyObstruction kPenaltyFault kPenaltyStopped
    kPenaltyDoorOpen intMax
  cases active : s.active
  · simp
  · cases obstructed : s.obstruction <;> cases stopped : s.stopped <;> cases faulty : s.fault <;>
      simp only [active, obstructed, stopped, faulty, Bool.not_true, Bool.not_false, Bool.and_true,
        Bool.and_false, Bool.true_eq_false, Bool.false_eq_true, ↓reduceIte] at unusable ⊢ <;>
      split_ifs <;> omega

/-- Costs are compared in one of the two ways. -/
instance : Std.Total CostLe := ⟨fun left right => by
  unfold CostLe
  omega⟩

/-- The order of costs is transitive. -/
instance : IsTrans (Int × Fin kElevs) CostLe := ⟨fun first second third => by
  unfold CostLe
  omega⟩

namespace Peers

/-- Every elevator is listed with its cost. -/
theorem mem_calculateElevatorCosts (p : Peers kFloors) (floor : Fin kFloors) (e : Fin kElevs) :
    (elevatorCost (p.allStates e) floor, e) ∈ p.calculateElevatorCosts floor :=
  (List.mem_insertionSort CostLe).2 (List.mem_map.2 ⟨e, List.mem_finRange e, rfl⟩)

/-- Nobody comes before the first. -/
theorem calculateElevatorCosts_first {p : Peers kFloors} {floor : Fin kFloors}
    {best : Int × Fin kElevs} {others : List (Int × Fin kElevs)}
    (costs : p.calculateElevatorCosts floor = best :: others) (e : Fin kElevs) :
    CostLe best (elevatorCost (p.allStates e) floor, e) := by
  have sorted : (best :: others).Pairwise CostLe := by
    rw [← costs]
    exact List.pairwise_insertionSort CostLe _
  have listed := p.mem_calculateElevatorCosts floor e
  rw [costs] at listed
  rcases List.mem_cons.1 listed with same | later
  · rw [same]
    exact refl_of CostLe best
  · exact List.rel_of_pairwise_cons sorted later

/-- The first cost is the least. -/
theorem calculateElevatorCosts_head {p : Peers kFloors} {floor : Fin kFloors}
    {best : Int × Fin kElevs} {others : List (Int × Fin kElevs)}
    (costs : p.calculateElevatorCosts floor = best :: others) (e : Fin kElevs) :
    best.1 ≤ elevatorCost (p.allStates e) floor := by
  rcases calculateElevatorCosts_first costs e with lower | ⟨same, _⟩
  · exact lower.le
  · exact same.le

/-- The costs list somebody. -/
theorem calculateElevatorCosts_ne_nil (p : Peers kFloors) (floor : Fin kFloors) :
    p.calculateElevatorCosts floor ≠ [] :=
  List.ne_nil_of_mem (p.mem_calculateElevatorCosts floor 0)

end Peers

end CppElevator
