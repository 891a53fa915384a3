import Mathlib.Order.Bounds.Basic
import Mathlib.Data.List.Basic

/-!
# Merges read as joins

A replica merges copies it receives into its own. When some reading of the replica into a
join-semilattice turns every merge into a join, the reading after any sequence of merges is
the least upper bound of the readings merged, so it depends on their set alone. The readings
here need not be injective: replicas with one reading may differ in data no reader uses.

`Versioned` is the semilattice of a last-writer-wins merge: the higher version is taken whole,
and payloads of one version are joined.
-/
namespace CppElevator.Library

variable {State Knowledge : Type*} [SemilatticeSup Knowledge]

/-- A merge of states whose reading is the join of the readings. -/
structure JoinReading (merge : State → State → State) (read : State → Knowledge) : Prop where
  /-- One merge joins the two readings. -/
  read_merge : ∀ state received, read (merge state received) = read state ⊔ read received

namespace JoinReading

variable {merge : State → State → State} {read : State → Knowledge}

/-- The reading after a sequence of merges is the least upper bound of the readings of the
start and of every received state. -/
theorem isLUB_foldl (reading : JoinReading merge read) (start : State) (received : List State) :
    IsLUB (insert (read start) (read '' {state | state ∈ received}))
      (read (received.foldl merge start)) := by
  induction received generalizing start with
  | nil => simp [isLUB_singleton]
  | cons head tail ih =>
    have step := ih (merge start head)
    rw [reading.read_merge] at step
    constructor
    · rintro known (rfl | ⟨state, member, rfl⟩)
      · exact le_sup_left.trans (step.1 (Set.mem_insert _ _))
      · rcases List.mem_cons.1 member with rfl | member
        · exact le_sup_right.trans (step.1 (Set.mem_insert _ _))
        · exact step.1 (Set.mem_insert_of_mem _ ⟨state, member, rfl⟩)
    · intro bound upper
      apply step.2
      rintro known (rfl | ⟨state, member, rfl⟩)
      · exact sup_le (upper (Set.mem_insert _ _))
          (upper (Set.mem_insert_of_mem _ ⟨head, List.mem_cons_self, rfl⟩))
      · exact upper (Set.mem_insert_of_mem _ ⟨state, List.mem_cons_of_mem _ member, rfl⟩)

/-- Sequences with the same members lead to the same reading, whatever their order and
repetitions. -/
theorem foldl_read_eq (reading : JoinReading merge read) (start : State)
    {left right : List State} (same : ∀ state, state ∈ left ↔ state ∈ right) :
    read (left.foldl merge start) = read (right.foldl merge start) := by
  have members : {state | state ∈ left} = {state | state ∈ right} := Set.ext same
  have bound := reading.isLUB_foldl start left
  rw [members] at bound
  exact bound.unique (reading.isLUB_foldl start right)

/-- A merge of states with equal readings has one reading. -/
theorem read_merge_congr (reading : JoinReading merge read) {left right rcv rcv' : State}
    (states : read left = read right) (received : read rcv = read rcv') :
    read (merge left rcv) = read (merge right rcv') := by
  rw [reading.read_merge, reading.read_merge, states, received]

/-- Two replicas that merge each other's state have one reading. -/
theorem read_merge_comm (reading : JoinReading merge read) (left right : State) :
    read (merge left right) = read (merge right left) := by
  rw [reading.read_merge, reading.read_merge, sup_comm]

/-- Merges may be grouped in any way. -/
theorem read_merge_assoc (reading : JoinReading merge read) (first second third : State) :
    read (merge (merge first second) third) = read (merge first (merge second third)) := by
  simp only [reading.read_merge, sup_assoc]

/-- Merging a copy of the own state changes nothing a reader sees. -/
theorem read_merge_self (reading : JoinReading merge read) (state : State) :
    read (merge state state) = read state := by
  rw [reading.read_merge, sup_idem]

/-- Merging a copy the state is already above changes nothing a reader sees. -/
theorem read_merge_of_le (reading : JoinReading merge read) {state received : State}
    (below : read received ≤ read state) : read (merge state received) = read state := by
  rw [reading.read_merge, sup_eq_left.2 below]

end JoinReading

/-- What every operation lets grow, a sequence of operations lets grow. -/
theorem read_le_foldl {Reading Operation : Type*} [Preorder Reading] {read : State → Reading}
    {apply : State → Operation → State}
    (grows : ∀ state operation, read state ≤ read (apply state operation)) (start : State)
    (operations : List Operation) : read start ≤ read (operations.foldl apply start) := by
  induction operations generalizing start with
  | nil => exact le_rfl
  | cons operation operations ih => exact (grows start operation).trans (ih (apply start operation))

/-- A payload with the version that decides which of two payloads is newer. -/
@[ext]
structure Versioned (Payload : Type*) where
  /-- Number of changes behind the payload. -/
  version : ℕ
  /-- Content of that version. -/
  payload : Payload

namespace Versioned

variable {Payload : Type*} [SemilatticeSup Payload]

/-- A newer version is above every older one; within a version the payloads decide. -/
instance : PartialOrder (Versioned Payload) where
  le left right := left.version < right.version ∨
    left.version = right.version ∧ left.payload ≤ right.payload
  le_refl value := .inr ⟨rfl, le_rfl⟩
  le_trans first second third := by
    rintro (older | ⟨same, below⟩) (older' | ⟨same', below'⟩)
    · exact .inl (older.trans older')
    · exact .inl (same' ▸ older)
    · exact .inl (same ▸ older')
    · exact .inr ⟨same.trans same', below.trans below'⟩
  le_antisymm left right := by
    rintro (older | ⟨same, below⟩) (older' | ⟨same', below'⟩)
    · omega
    · omega
    · omega
    · exact Versioned.ext same (le_antisymm below below')

/-- The newer value, or the joined payloads of one version. -/
def join (left right : Versioned Payload) : Versioned Payload :=
  if left.version < right.version then right
  else if right.version < left.version then left
  else ⟨left.version, left.payload ⊔ right.payload⟩

/-- The left value is below the join. -/
theorem le_join_left (left right : Versioned Payload) : left ≤ left.join right := by
  unfold join
  split_ifs with older newer
  · exact .inl older
  · exact le_rfl
  · exact .inr ⟨rfl, le_sup_left⟩

/-- The right value is below the join. -/
theorem le_join_right (left right : Versioned Payload) : right ≤ left.join right := by
  unfold join
  split_ifs with older newer
  · exact le_rfl
  · exact .inl newer
  · exact .inr ⟨le_antisymm (not_lt.1 older) (not_lt.1 newer), le_sup_right⟩

/-- The join is the least value above both. -/
theorem join_le {left right bound : Versioned Payload} (hl : left ≤ bound) (hr : right ≤ bound) :
    left.join right ≤ bound := by
  unfold join
  split_ifs with older newer
  · exact hr
  · exact hl
  · have same : right.version = left.version := le_antisymm (not_lt.1 older) (not_lt.1 newer)
    rcases hl with below | ⟨level, payload⟩
    · exact .inl below
    · rcases hr with below | ⟨_, payload'⟩
      · exact .inl (same ▸ below)
      · exact .inr ⟨level, sup_le payload payload'⟩

/-- Versioned payloads join like a last-writer-wins register. -/
instance : SemilatticeSup (Versioned Payload) where
  sup := join
  le_sup_left := le_join_left
  le_sup_right := le_join_right
  sup_le _ _ _ := join_le

/-- The join keeps the newer value. -/
theorem sup_of_lt {left right : Versioned Payload} (older : left.version < right.version) :
    left ⊔ right = right := if_pos older

/-- The join keeps a value against an older one. -/
theorem sup_of_gt {left right : Versioned Payload} (newer : right.version < left.version) :
    left ⊔ right = left := by
  change left.join right = left
  rw [join, if_neg newer.le.not_gt, if_pos newer]

/-- The join of one version joins the payloads. -/
theorem sup_of_eq {left right : Versioned Payload} (same : right.version = left.version) :
    left ⊔ right = ⟨left.version, left.payload ⊔ right.payload⟩ := by
  change left.join right = _
  rw [join, if_neg same.le.not_gt, if_neg same.ge.not_gt]

end Versioned

end CppElevator.Library
