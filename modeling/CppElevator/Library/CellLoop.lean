import Mathlib.Logic.Function.Basic
import Mathlib.Data.List.Nodup

/-!
# Loops over the cells of a table

A loop visits the cells of a table one after another and may fail at any of them. When the
body reads and writes only the cell it visits, the loop is the pointwise application of the
body: it succeeds exactly when every visited cell does, and every cell then holds what the
body made of its own old content.
-/
namespace CppElevator.Library

/-- What every iteration a fallible loop reaches keeps, the loop keeps. -/
theorem invariant_of_reached {State Key : Type*} {body : State → Key → Option State}
    (Inv : State → Prop) {keys : List Key} {state last : State}
    (keeps : ∀ {earlier key later reached next}, keys = earlier ++ key :: later →
      earlier.foldlM body state = some reached → body reached key = some next → Inv reached →
        Inv next) (done : keys.foldlM body state = some last) (init : Inv state) : Inv last := by
  induction keys generalizing state with
  | nil =>
    obtain rfl := Option.some.inj done
    exact init
  | cons key keys ih =>
    rw [List.foldlM_cons] at done
    obtain ⟨next, first, rest⟩ := Option.bind_eq_some_iff.1 done
    refine ih (fun {earlier other later reached after} split before => ?_) rest
      (@keeps [] key keys state next rfl rfl first init)
    refine @keeps (key :: earlier) other later reached after ?_ ?_
    · rw [split, List.cons_append]
    · rw [List.foldlM_cons, first]
      exact before

/-- What every iteration of a fallible loop keeps, the loop keeps. -/
theorem invariant_of_foldlM {State Key : Type*} {body : State → Key → Option State}
    (Inv : State → Prop)
    (keeps : ∀ {state next key}, body state key = some next → Inv state → Inv next)
    {keys : List Key} {state last : State} (done : keys.foldlM body state = some last)
    (init : Inv state) : Inv last :=
  invariant_of_reached Inv (fun _ _ iteration before => keeps iteration before) done init

/-- A measure that each iteration raises by a fixed amount at most, the loop raises by that amount times
the number of iterations at most. -/
theorem measure_le_of_foldlM {State Key : Type*} {body : State → Key → Option State}
    (measure : State → Nat) (c : Nat)
    (raises : ∀ {state next key}, body state key = some next → measure next ≤ measure state + c)
    {keys : List Key} {state last : State} (done : keys.foldlM body state = some last) :
    measure last ≤ measure state + keys.length * c := by
  induction keys generalizing state with
  | nil =>
    obtain rfl := Option.some.inj done
    omega
  | cons key keys ih =>
    obtain ⟨next, first, rest⟩ := Option.bind_eq_some_iff.1 (List.foldlM_cons.symm.trans done)
    have once := raises first
    have others := ih rest
    have total : (keys.length + 1) * c = keys.length * c + c := Nat.succ_mul _ _
    rw [List.length_cons]
    omega

/-- A loop whose every reached iteration succeeds, succeeds. -/
theorem foldlM_total {State Key : Type*} {body : State → Key → Option State} {keys : List Key}
    {state : State} (succeeds : ∀ earlier key later reached, keys = earlier ++ key :: later →
      earlier.foldlM body state = some reached → ∃ next, body reached key = some next) :
    ∃ last, keys.foldlM body state = some last := by
  induction keys generalizing state with
  | nil => exact ⟨state, rfl⟩
  | cons key keys ih =>
    obtain ⟨next, first⟩ := succeeds [] key keys state rfl rfl
    obtain ⟨last, rest⟩ := @ih next fun earlier other later reached split before =>
      succeeds (key :: earlier) other later reached (by rw [split, List.cons_append])
        (by rw [List.foldlM_cons, first]; exact before)
    exact ⟨last, by rw [List.foldlM_cons, first]; exact rest⟩

/-- A loop over distinct keys whose iterations change the register of their key alone has changed
every register it visited once. -/
theorem registers_of_foldlM {State Key Register : Type*} [DecidableEq Key]
    (register : State → Key → Register) (change : Key → Register → Register)
    {body : State → Key → Option State} {keys : List Key} {state last : State}
    (done : keys.foldlM body state = some last) (distinct : keys.Nodup)
    (changes : ∀ {state next key}, body state key = some next →
      register next key = change key (register state key))
    (frame : ∀ {state next key other}, body state key = some next → other ≠ key →
      register next other = register state other) (key : Key) :
    register last key = if key ∈ keys then change key (register state key) else register state key := by
  induction keys generalizing state with
  | nil =>
    obtain rfl := Option.some.inj done
    simp
  | cons first keys ih =>
    obtain ⟨fresh, distinct⟩ := List.nodup_cons.1 distinct
    rw [List.foldlM_cons] at done
    obtain ⟨next, iteration, rest⟩ := Option.bind_eq_some_iff.1 done
    rw [ih rest distinct]
    by_cases here : key = first
    · subst here
      rw [if_neg fresh, if_pos List.mem_cons_self]
      exact changes iteration
    · simp only [frame iteration here, List.mem_cons, here, false_or]

variable {Key Cell : Type*} [DecidableEq Key]

/-- Apply a fallible body to the listed cells of a table, in order. -/
def loopCells (body : Key → Cell → Option Cell) (keys : List Key) (table : Key → Cell) :
    Option (Key → Cell) :=
  keys.foldlM (fun t key => (body key (t key)).map (Function.update t key)) table

/-- The loop visits its first cell and goes on with the others. -/
theorem loopCells_cons (body : Key → Cell → Option Cell) (key : Key) (keys : List Key)
    (table : Key → Cell) :
    loopCells body (key :: keys) table =
      (body key (table key)).bind fun cell =>
        loopCells body keys (Function.update table key cell) := by
  cases visited : body key (table key) <;> simp [loopCells, List.foldlM_cons, visited]

/-- A successful loop over distinct cells holds in every visited cell the body's result on the
old cell, and leaves every other cell as it was. -/
theorem loopCells_spec {body : Key → Cell → Option Cell} {keys : List Key}
    (distinct : keys.Nodup) {table table' : Key → Cell}
    (done : loopCells body keys table = some table') :
    (∀ key ∈ keys, body key (table key) = some (table' key)) ∧
      ∀ key ∉ keys, table' key = table key := by
  induction keys generalizing table with
  | nil =>
    obtain rfl := Option.some.inj done
    simp
  | cons key keys ih =>
    obtain ⟨fresh, distinct⟩ := List.nodup_cons.1 distinct
    rw [loopCells_cons] at done
    obtain ⟨cell, visited, rest⟩ := Option.bind_eq_some_iff.1 done
    obtain ⟨listed, others⟩ := ih distinct rest
    constructor
    · intro other member
      rcases List.mem_cons.1 member with rfl | member
      · rw [others _ fresh, Function.update_self]
        exact visited
      · have apart : other ≠ key := fun same => fresh (same ▸ member)
        simpa only [Function.update_of_ne apart] using listed other member
    · intro other absent
      obtain ⟨apart, absent⟩ := not_or.1 (fun h => absent (List.mem_cons.2 h))
      rw [others _ absent, Function.update_of_ne apart]

/-- A loop over distinct cells succeeds when the body succeeds on every old cell. -/
theorem loopCells_total {body : Key → Cell → Option Cell} {keys : List Key}
    (distinct : keys.Nodup) {table : Key → Cell}
    (succeeds : ∀ key ∈ keys, ∃ cell, body key (table key) = some cell) :
    ∃ table', loopCells body keys table = some table' := by
  induction keys generalizing table with
  | nil => exact ⟨table, rfl⟩
  | cons key keys ih =>
    obtain ⟨fresh, distinct⟩ := List.nodup_cons.1 distinct
    obtain ⟨cell, visited⟩ := succeeds key List.mem_cons_self
    obtain ⟨table', rest⟩ := @ih distinct (Function.update table key cell) fun other member => by
      have apart : other ≠ key := fun same => fresh (same ▸ member)
      rw [Function.update_of_ne apart]
      exact succeeds other (List.mem_cons_of_mem _ member)
    exact ⟨table', by rw [loopCells_cons, visited]; exact rest⟩

end CppElevator.Library
