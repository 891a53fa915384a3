import Mathlib.Algebra.GroupWithZero.Nat
import Mathlib.Data.Fintype.Pi

/-!
# Shared types and configuration

The enumerations of `common/types.hpp`, the constants of `common/config.hpp` that the
modelled code reads, and the timer of `common/timer.hpp`. The building height is a
parameter of every table type, because the control code makes no use of its value;
`Config.kFloors` is the height the repository configures. A table is a function of a
floor and a button, so a loop over its cells is a definition by cell.
-/
namespace CppElevator

/-- `config::kElevs`. -/
abbrev kElevs : Nat := 4

/-- There are elevators. -/
instance : NeZero kElevs := ⟨by decide⟩

namespace Config

/-- `config::kFloors`, the height of the configured building. -/
abbrev kFloors : Nat := 4

/-- The configured building has floors. -/
instance : NeZero kFloors := ⟨by decide⟩

/-- `config::kBetweenFloors`, the floor sensor's reading away from every floor. -/
def kBetweenFloors : Int := -1

/-- `config::kSampleTimeMs`. -/
def kSampleTimeMs : Nat := 40
/-- `config::kDoorOpenTimeMs`. -/
def kDoorOpenTimeMs : Nat := 3000
/-- `config::kReassignOrderTimeMs`. -/
def kReassignOrderTimeMs : Nat := 25000
/-- `config::kObstructionReassignOrderTimeMs`. -/
def kObstructionReassignOrderTimeMs : Nat := 4800
/-- `config::kWatchdogTimeMs`. -/
def kWatchdogTimeMs : Nat := 600
/-- `config::kFaultTimeoutMs`. -/
def kFaultTimeoutMs : Nat := 5000
/-- `config::kStartupTimeMs`. -/
def kStartupTimeMs : Nat := 2 * kWatchdogTimeMs

/-- `config::kPenaltyDoorOpen`. -/
def kPenaltyDoorOpen : Int := 2
/-- `config::kPenaltyFloorDiff`. -/
def kPenaltyFloorDiff : Int := 3
/-- `config::kPenaltyPerOrder`. -/
def kPenaltyPerOrder : Int := 5
/-- `config::kPenaltyWrongDir`. -/
def kPenaltyWrongDir : Int := 10
/-- `config::kPenaltyObstruction`. -/
def kPenaltyObstruction : Int := 100
/-- `config::kPenaltyFault`. -/
def kPenaltyFault : Int := 1000
/-- `config::kPenaltyStopped`. -/
def kPenaltyStopped : Int := 1000

end Config

/-- `Inertia`, the direction of the last movement. -/
inductive Inertia where
  | up
  | down
  | none
  deriving DecidableEq, Repr

/-- `MotorDir`. -/
inductive MotorDir where
  | down
  | stop
  | up
  | err
  deriving DecidableEq, Repr

/-- `MovingState`, the mode of the controller's state machine. -/
inductive MovingState where
  | idle
  | doorOpen
  | moving
  | err
  deriving DecidableEq, Repr

/-- `DirMovPair`, a decision of the controller. -/
structure DirMovPair where
  /-- Motor command of the decision. -/
  motorDir : MotorDir
  /-- Mode the decision enters. -/
  movingState : MovingState
  deriving DecidableEq, Repr

/-- `BtnType`, in the column order of the tables. -/
inductive BtnType where
  | hallUp
  | hallDown
  | cab
  deriving DecidableEq, Repr

/-- The buttons of a floor, in column order. -/
instance : Fintype BtnType :=
  ⟨{.hallUp, .hallDown, .cab}, fun b => by cases b <;> decide⟩

/-- `OrderStatus`. -/
inductive OrderStatus where
  | none
  | requested
  | confirmed
  | clear
  deriving DecidableEq, Repr

/-- The underlying byte of an order status; merges compare statuses by it. -/
def OrderStatus.toNat : OrderStatus → Nat
  | .none => 0
  | .requested => 1
  | .confirmed => 2
  | .clear => 3

/-- The byte determines the status. -/
theorem OrderStatus.toNat_injective : Function.Injective OrderStatus.toNat := by
  intro left right h
  cases left <;> cases right <;> first | rfl | cases h

/-- A number inside an array is an index of it. -/
theorem toNat_lt {n : Nat} {i : Int} (range : 0 ≤ i ∧ i < n) : i.toNat < n := by omega

/-- `ButtonFlags`, one flag for each button of a floor. -/
abbrev ButtonFlags := BtnType → Bool

/-- `BoolTable`, one flag for each button of each floor. -/
abbrev BoolTable (kFloors : Nat) := Fin kFloors → BtnType → Bool

/-- A value-initialised `ButtonFlags{}`. -/
def ButtonFlags.zeros : ButtonFlags := fun _ => false

/-- A value-initialised `BoolTable{}`. -/
def BoolTable.zeros {kFloors : Nat} : BoolTable kFloors := fun _ _ => false

/-- The table with one button set. -/
def BoolTable.only {kFloors : Nat} (floor : Fin kFloors) (btn : BtnType) : BoolTable kFloors :=
  fun f b => decide (f = floor) && decide (b = btn)

/-- `Timer`. Instants are milliseconds of the steady clock; the caller passes the reading that
the source takes from `Clock::now()`. -/
structure Timer where
  /-- Deadline of the last start. -/
  endTime : Nat := 0
  /-- Whether the timer runs or has run out without being stopped. -/
  active : Bool := false
  deriving DecidableEq, Repr

namespace Timer

/-- `Timer::Start`. -/
def start (now durationMs : Nat) : Timer := { endTime := now + durationMs, active := true }

/-- `Timer::Stop`; the deadline stays as it is. -/
def stop (t : Timer) : Timer := { t with active := false }

/-- `Timer::Expired`. -/
def expired (t : Timer) (now : Nat) : Bool := t.active && decide (t.endTime ≤ now)

/-- `Timer::TimeLeftMs`. -/
def timeLeftMs (t : Timer) (now : Nat) : Nat := if t.active then t.endTime - now else 0

/-- A started timer is active. -/
@[simp]
theorem start_active (now durationMs : Nat) : (start now durationMs).active = true := rfl

/-- A stopped timer is inactive. -/
@[simp]
theorem stop_active (t : Timer) : t.stop.active = false := rfl

/-- Only an active timer expires. -/
theorem active_of_expired {t : Timer} {now : Nat} (h : t.expired now = true) :
    t.active = true := by
  simp only [expired, Bool.and_eq_true] at h
  exact h.1

end Timer

end CppElevator
