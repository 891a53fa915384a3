import CppElevator.Verif.Costs
import CppElevator.Verif.Passes

/-!
# Usable elevators come first

`ConfirmHallOrders` takes the elevator with the least cost, and `ReassignHallOrder` leaves an
unusable assignee for the next one in the list; neither asks whether the elevator it takes is
usable. The sizes of the penalties answer for both: in a building of the configured height nothing
a usable elevator has to do costs as much as the least reason for not being usable.
-/
namespace CppElevator

open Config

variable {kFloors : Nat}

namespace Peers

/-- Every active elevator of the view has a state its receivers accept. -/
def ActiveValid (p : Peers kFloors) : Prop :=
  ∀ e, (p.allStates e).active = true → (p.allStates e).valid = true

/-- Some elevator of the view is usable. -/
def SomeUsable (p : Peers kFloors) : Prop := ∃ e, (p.allStates e).usable = true

/-- The costs of an order at a floor, as they have to be listed. -/
structure Ranked (p : Peers kFloors) (floor : Fin kFloors) (costs : List (Int × Fin kElevs)) :
    Prop where
  /-- Every elevator is listed exactly once. -/
  once : (costs.map Prod.snd).Perm (List.finRange kElevs)
  /-- With its own cost. -/
  cost : ∀ c ∈ costs, c.1 = elevatorCost (p.allStates c.2) floor
  /-- By cost, and those of one cost by identity. -/
  sorted : costs.Pairwise fun left right => left.1 < right.1 ∨ left.1 = right.1 ∧ left.2 < right.2
  /-- No active elevator reaches the cost of the inactive ones. -/
  finite : ∀ c ∈ costs, (p.allStates c.2).active = true → c.1 < intMax
  /-- The first is usable, if any is. -/
  first : p.SomeUsable → ∃ best others, costs = best :: others ∧
    (p.allStates best.2).usable = true

variable {p : Peers kFloors}

/-- An active elevator of such a view is at a floor of the building. -/
theorem ActiveValid.inside (valid : p.ActiveValid) {e : Fin kElevs}
    (active : (p.allStates e).active = true) :
    0 ≤ (p.allStates e).floor ∧ (p.allStates e).floor < kFloors := by
  have checked := valid e active
  simp only [ElevatorState.valid, Bool.and_eq_true, decide_eq_true_eq] at checked
  exact ⟨checked.1.2, checked.2⟩

/-- The floor is therefore one `SetFloor` lets through. -/
theorem ActiveValid.placed (valid : p.ActiveValid) {e : Fin kElevs}
    (active : (p.allStates e).active = true) : (p.allStates e).Placed := by
  obtain ⟨lower, upper⟩ := valid.inside active
  exact ⟨by omega, upper⟩

/-- A usable elevator is active. -/
theorem active_of_usable {e : Fin kElevs} (usable : (p.allStates e).usable = true) :
    (p.allStates e).active = true := by
  simp only [ElevatorState.usable, Bool.and_eq_true] at usable
  exact usable.1.1.1

/-- A usable elevator costs less than one that is not. -/
theorem ActiveValid.usable_lt (valid : p.ActiveValid) (fits : UsableFits kFloors)
    (floor : Fin kFloors) {e other : Fin kElevs} (usable : (p.allStates e).usable = true)
    (unusable : (p.allStates other).usable = false) :
    elevatorCost (p.allStates e) floor < elevatorCost (p.allStates other) floor :=
  calc elevatorCost (p.allStates e) floor
      ≤ 18 * kFloors + 9 := elevatorCost_of_usable usable (valid.inside (active_of_usable usable)) _
    _ < kPenaltyObstruction := fits
    _ ≤ elevatorCost (p.allStates other) floor := elevatorCost_of_not_usable unusable _

/-- The list is the elevators with their costs, sorted. -/
theorem perm_calculateElevatorCosts (p : Peers kFloors) (floor : Fin kFloors) :
    (p.calculateElevatorCosts floor).Perm
      ((List.finRange kElevs).map fun e => (elevatorCost (p.allStates e) floor, e)) :=
  List.perm_insertionSort CostLe _

/-- Each elevator is in the list once. -/
theorem ids_calculateElevatorCosts (p : Peers kFloors) (floor : Fin kFloors) :
    ((p.calculateElevatorCosts floor).map Prod.snd).Perm (List.finRange kElevs) := by
  have ids := (p.perm_calculateElevatorCosts floor).map Prod.snd
  rwa [List.map_map, show Prod.snd ∘ (fun e => (elevatorCost (p.allStates e) floor, e)) = id from rfl,
    List.map_id] at ids

/-- `CalculateElevatorCosts` lists the costs as they have to be. -/
theorem ActiveValid.ranked (valid : p.ActiveValid) (costsFit : CostsFit kFloors)
    (usableFits : UsableFits kFloors) (floor : Fin kFloors) :
    p.Ranked floor (p.calculateElevatorCosts floor) := by
  have once := p.ids_calculateElevatorCosts floor
  have cost : ∀ c ∈ p.calculateElevatorCosts floor,
      c.1 = elevatorCost (p.allStates c.2) floor := by
    intro c member
    obtain ⟨e, -, rfl⟩ := List.mem_map.1 ((p.perm_calculateElevatorCosts floor).mem_iff.1 member)
    rfl
  refine ⟨once, cost, ?_, fun c member active => ?_, fun ⟨e, usable⟩ => ?_⟩
  · -- two entries of one cost differ in the elevator
    have distinct : (p.calculateElevatorCosts floor).Pairwise fun left right => left.2 ≠ right.2 :=
      List.pairwise_map.1 (once.nodup_iff.2 (List.nodup_finRange kElevs))
    refine List.Pairwise.imp₂ (fun left right below apart => ?_)
      (List.pairwise_insertionSort CostLe _) distinct
    rcases below with lower | ⟨same, before⟩
    · exact .inl lower
    · exact .inr ⟨same, lt_of_le_of_ne before apart⟩
  · rw [cost c member]
    exact elevatorCost_lt costsFit active (valid.placed active) floor
  · cases costs : p.calculateElevatorCosts floor with
    | nil => exact absurd costs (p.calculateElevatorCosts_ne_nil floor)
    | cons best others =>
      refine ⟨best, others, rfl, ?_⟩
      by_contra unusable
      have least := calculateElevatorCosts_head costs e
      rw [cost best (by rw [costs]; exact List.mem_cons_self)] at least
      have dearer := valid.usable_lt usableFits floor usable (Bool.eq_false_iff.2 unusable)
      exact absurd dearer (not_lt.2 least)

/-- `ConfirmHallOrders` gives an order to the first elevator of the list. -/
theorem confirmHallOrders_changed {now : StepClock kFloors} {f : Fin kFloors} {b : BtnType}
    (changed : (p.confirmHallOrders now).orders f b ≠ p.orders f b) :
    ∃ best others, p.calculateElevatorCosts f = best :: others ∧
      (p.confirmHallOrders now).orders f b = (p.orders f b).onConfirm best.2.val := by
  by_cases cab : b = .cab
  · subst cab
    exact absurd rfl changed
  · have requested : (p.orders f b).status = .requested := by
      by_contra other
      apply changed
      rw [confirmHallOrders, orders_mapHall _ _ _ cab]
      exact congrArg Prod.fst (if_pos (.inr other))
    obtain ⟨best, others, costs⟩ := List.exists_cons_of_ne_nil (p.calculateElevatorCosts_ne_nil f)
    rcases confirmHallOrders_cases now cab requested costs with ⟨-, kept⟩ | ⟨-, -, confirmed⟩
    · exact absurd (orders_of_cell kept) changed
    · exact ⟨best, others, costs, orders_of_cell confirmed⟩

/-- Away from an unusable assignee an order goes to the first elevator of the list, if it is another
one with a finite cost. -/
theorem newAssignee_of_first {floor : Fin kFloors} {prev : Fin kElevs} {best : Int × Fin kElevs}
    {others : List (Int × Fin kElevs)} (costs : p.calculateElevatorCosts floor = best :: others)
    (unusable : (p.allStates prev).usable = false) (apart : best.2 ≠ prev) (finite : best.1 ≠ intMax) :
    p.newAssignee floor prev = some best.2 := by
  have found : (p.calculateElevatorCosts floor).find?
      (fun c => decide (c.2 ≠ prev ∧ c.1 ≠ intMax)) = some best := by
    rw [costs]
    exact List.find?_cons_of_pos (decide_eq_true ⟨apart, finite⟩)
  unfold newAssignee
  dsimp only
  rw [if_pos unusable, found]
  rfl

end Peers

open Peers

/-- In a view whose active elevators are valid, every list of costs is complete and sorted and has a
usable elevator first if there is one. `ConfirmHallOrders` then confirms to a usable elevator, and
so does `ReassignHallOrder` when it takes an order from an unusable one. -/
theorem usable_elevator_preferred (p : Peers Config.kFloors) (valid : p.ActiveValid)
    (floor : Fin Config.kFloors) :
    p.Ranked floor (p.calculateElevatorCosts floor) ∧
    (∀ now b, (p.confirmHallOrders now).orders floor b ≠ p.orders floor b →
      ∃ e : Fin kElevs,
        (p.confirmHallOrders now).orders floor b = (p.orders floor b).onConfirm e.val ∧
          (p.SomeUsable → (p.allStates e).usable = true)) ∧
    (1 < p.numElevs → ∀ (o : Order) (prev : Fin kElevs), o.assignedId = prev.val →
      (p.allStates prev).usable = false → p.SomeUsable →
        ∃ e : Fin kElevs, p.reassignHallOrder floor o = some (o.onReassignment e.val) ∧
          (p.allStates e).usable = true) := by
  have ranked := valid.ranked costsFit_config usableFits_config floor
  refine ⟨ranked, fun now b changed => ?_, fun several o prev assigned unusable somebody => ?_⟩
  · obtain ⟨best, others, costs, confirmed⟩ := confirmHallOrders_changed changed
    refine ⟨best.2, confirmed, fun somebody => ?_⟩
    obtain ⟨first, rest, listed, usable⟩ := ranked.first somebody
    rw [costs] at listed
    rwa [(List.cons.inj listed).1]
  · obtain ⟨best, others, costs, usable⟩ := ranked.first somebody
    have apart : best.2 ≠ prev := by
      intro same
      rw [same, unusable] at usable
      cases usable
    have listed : best ∈ p.calculateElevatorCosts floor := by
      rw [costs]
      exact List.mem_cons_self
    have finite : best.1 ≠ intMax := (ranked.finite best listed (active_of_usable usable)).ne
    refine ⟨best.2, ?_, usable⟩
    have range : 0 ≤ o.assignedId ∧ o.assignedId < kElevs := by
      have bound := prev.isLt
      omega
    have named : (⟨o.assignedId.toNat, toNat_lt range⟩ : Fin kElevs) = prev := by
      ext
      simp [assigned]
    rw [reassignHallOrder, dif_pos range]
    dsimp only
    rw [if_neg several.ne', named, newAssignee_of_first costs unusable apart finite]
    rfl

/-- An obstructed elevator stands where it is called; the only other one has the door open, every
order of the building and the wrong direction. -/
def busyElsewhere : Peers Config.kFloors where
  nodeId := 0
  numElevs := 2
  allStates e :=
    if e = 0 then { id := 0, floor := 0, active := true, obstruction := true }
    else if e = 1 then
      { id := 1, floor := 3, active := true, obstruction := false, requests := fun _ _ => true,
        doorOpen := true, motorDir := .up, inertia := .up }
    else {}

/-- It is preferred all the same. -/
theorem usable_elevator_preferred_busy :
    busyElsewhere.Ranked 0 (busyElsewhere.calculateElevatorCosts 0) ∧
      ∃ e : Fin kElevs, busyElsewhere.reassignHallOrder 0 { assignedId := 0, status := .confirmed } =
          some (({ assignedId := 0, status := .confirmed } : Order).onReassignment e.val) ∧
        (busyElsewhere.allStates e).usable = true := by
  have valid : busyElsewhere.ActiveValid := by
    unfold ActiveValid
    decide
  obtain ⟨ranked, -, reassigned⟩ := usable_elevator_preferred busyElsewhere valid 0
  exact ⟨ranked, reassigned (by decide) _ 0 rfl rfl ⟨1, rfl⟩⟩

end CppElevator
