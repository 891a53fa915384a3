import CppElevator.OrderSync

/-!
# Elementary facts about orders

How the merge and the local transitions change the version, the status and the mask of one
order. The invariants of the cluster are built from these.
-/
namespace CppElevator.Order

/-- A newer copy is taken whole. -/
theorem onUpdate_of_lt {o rcv : Order} (older : o.version < rcv.version) :
    o.onUpdate rcv = rcv := by
  simp [onUpdate, older]

/-- An older copy is ignored. -/
theorem onUpdate_of_gt {o rcv : Order} (newer : rcv.version < o.version) :
    o.onUpdate rcv = o := by
  simp [onUpdate, newer.not_gt, newer.ne]

/-- Copies of one version keep it and join their masks. -/
theorem onUpdate_of_eq {o rcv : Order} (same : rcv.version = o.version) :
    (o.onUpdate rcv).version = o.version ∧
      (o.onUpdate rcv).observedMask = o.observedMask ||| rcv.observedMask := by
  simp only [onUpdate, same, lt_irrefl, ↓reduceIte]
  split_ifs <;> exact ⟨rfl, rfl⟩

/-- Copies of one version keep the higher status. -/
theorem onUpdate_status_of_eq {o rcv : Order} (same : rcv.version = o.version) :
    (o.onUpdate rcv).status =
      if o.status.toNat < rcv.status.toNat then rcv.status else o.status := by
  simp only [onUpdate, same, lt_irrefl, ↓reduceIte]
  split_ifs <;> rfl

/-- A merge takes status and version together from one of the two copies. -/
theorem onUpdate_status_version (o rcv : Order) :
    ((o.onUpdate rcv).status = o.status ∧ (o.onUpdate rcv).version = o.version) ∨
      ((o.onUpdate rcv).status = rcv.status ∧ (o.onUpdate rcv).version = rcv.version) := by
  rcases lt_trichotomy o.version rcv.version with older | same | newer
  · exact .inr ⟨by rw [onUpdate_of_lt older], by rw [onUpdate_of_lt older]⟩
  · rw [onUpdate_status_of_eq same.symm, (onUpdate_of_eq same.symm).1]
    split_ifs
    · exact .inr ⟨rfl, same⟩
    · exact .inl ⟨rfl, rfl⟩
  · exact .inl ⟨by rw [onUpdate_of_gt newer], by rw [onUpdate_of_gt newer]⟩

/-- A merge never lowers the version. -/
theorem version_le_onUpdate (o rcv : Order) : o.version ≤ (o.onUpdate rcv).version := by
  rcases lt_trichotomy o.version rcv.version with older | same | newer
  · rw [onUpdate_of_lt older]
    exact older.le
  · rw [(onUpdate_of_eq same.symm).1]
  · rw [onUpdate_of_gt newer]

/-- A merge reaches the version received. -/
theorem rcv_version_le_onUpdate (o rcv : Order) : rcv.version ≤ (o.onUpdate rcv).version := by
  rcases lt_trichotomy o.version rcv.version with older | same | newer
  · rw [onUpdate_of_lt older]
  · rw [(onUpdate_of_eq same.symm).1, same]
  · rw [onUpdate_of_gt newer]
    exact newer.le

/-- A request is taken from an order that is not under way. -/
theorem onRequest_of_open {o : Order} (elevId : Nat) (open_ : o.status = .none ∨ o.status = .clear) :
    o.onRequest elevId =
      { o with status := .requested, version := o.version + 1,
               observedMask := 0#32 ||| (1#32 <<< elevId) } := if_pos open_

/-- A request of an order under way changes nothing. -/
theorem onRequest_of_underway {o : Order} (elevId : Nat)
    (underway : ¬(o.status = .none ∨ o.status = .clear)) : o.onRequest elevId = o :=
  if_neg underway

/-- A requested order is confirmed. -/
theorem onConfirm_of_requested {o : Order} (elevId : Int) (requested : o.status = .requested) :
    o.onConfirm elevId =
      { o with status := .confirmed, assignedId := elevId, version := o.version + 1 } :=
  if_pos requested

/-- A confirmed order is cleared. -/
theorem onClear_of_confirmed {o : Order} (confirmed : o.status = .confirmed) :
    o.onClear = { o with status := .clear, version := o.version + 1 } := if_pos confirmed

/-- Only a confirmed order is cleared. -/
theorem onClear_of_not_confirmed {o : Order} (other : o.status ≠ .confirmed) : o.onClear = o :=
  if_neg other

/-- An order confirmed after a request was not changed by it. -/
theorem onRequest_of_confirmed {o : Order} {elevId : Nat}
    (confirmed : (o.onRequest elevId).status = .confirmed) : o.onRequest elevId = o := by
  by_cases open_ : o.status = .none ∨ o.status = .clear
  · rw [onRequest_of_open elevId open_] at confirmed
    cases confirmed
  · exact onRequest_of_underway elevId open_

/-- No order is confirmed after a clearing. -/
theorem onClear_status_ne (o : Order) : o.onClear.status ≠ .confirmed := by
  by_cases confirmed : o.status = .confirmed
  · rw [onClear_of_confirmed confirmed]
    exact nofun
  · rwa [onClear_of_not_confirmed confirmed]

/-- A cleared order is reset. -/
theorem onReset_of_clear {o : Order} (clear : o.status = .clear) :
    o.onReset = { o with status := .none, version := o.version + 1 } := if_pos clear

/-- Only a cleared order is reset. -/
theorem onReset_of_not_clear {o : Order} (other : o.status ≠ .clear) : o.onReset = o :=
  if_neg other

/-- Every elevator has a bit in the mask. -/
theorem elev_fits (e : Fin kElevs) : e.val < 32 := e.isLt.trans (by decide)

/-- A bit of the mask in terms of its words. -/
theorem observedBy_iff {o : Order} {e : Nat} (fits : e < 32) :
    o.observedBy e = true ↔ o.observedMask.getLsbD e = true := by
  have bit (i : Nat) : (o.observedMask &&& (1#32 <<< e)).getLsbD i =
      (o.observedMask.getLsbD i && decide (i = e)) := by
    rw [BitVec.getLsbD_and, BitVec.getLsbD_shiftLeft, BitVec.getLsbD_one]
    by_cases same : i = e
    · subst same
      simp [fits]
    · by_cases inside : i < 32
      · simp only [inside, decide_true, Bool.true_and, same, decide_false, Bool.and_false]
        by_cases below : i < e
        · simp [below]
        · simp [show i - e ≠ 0 by omega]
      · simp [inside, same]
  simp only [observedBy, decide_eq_true_eq]
  constructor
  · intro nonzero
    by_contra clear
    apply nonzero
    apply BitVec.eq_of_getLsbD_eq
    intro i _
    rw [bit, BitVec.getLsbD_zero]
    by_cases same : i = e
    · subst same
      simpa using clear
    · simp [same]
  · intro set zero
    have read := bit e
    rw [zero, BitVec.getLsbD_zero, set] at read
    simp at read

/-- The bits of a union of masks are those of either. -/
theorem observedBy_or {o left right : Order} {e : Nat} (fits : e < 32)
    (mask : o.observedMask = left.observedMask ||| right.observedMask) :
    o.observedBy e = true ↔ left.observedBy e = true ∨ right.observedBy e = true := by
  rw [observedBy_iff fits, observedBy_iff fits, observedBy_iff fits, mask, BitVec.getLsbD_or,
    Bool.or_eq_true]

/-- The bits after a word with one bit is added. -/
theorem observedBy_bit {o : Order} {mask : BitVec 32} {n e : Nat} (fits : e < 32) (fitsN : n < 32)
    (added : o.observedMask = mask ||| (1#32 <<< n)) :
    o.observedBy e = true ↔ mask.getLsbD e = true ∨ e = n := by
  rw [observedBy_iff fits, added, BitVec.getLsbD_or, Bool.or_eq_true, BitVec.getLsbD_shiftLeft,
    BitVec.getLsbD_one]
  constructor
  · rintro (set | set)
    · exact .inl set
    · simp only [Bool.and_eq_true, decide_eq_true_eq, Bool.not_eq_true'] at set
      right
      have notBelow : ¬e < n := by simpa using set.1.2
      have zero : e - n = 0 := by simpa using set.2
      omega
  · rintro (set | rfl)
    · exact .inl set
    · simp [fits]

end CppElevator.Order
