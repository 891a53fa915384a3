import CppElevator.Elevator

/-!
# Calls to the hardware

The writing calls of `hardware.cpp`. Each is one message of four bytes to the elevator server, behind
the assertions of its function; `none` stands for the process ending in one of them or in `Abort`.
-/
namespace CppElevator

variable {kFloors : Nat}

/-- The value of a motor direction. -/
def MotorDir.toInt : MotorDir → Int
  | .down => -1
  | .stop => 0
  | .up => 1
  | .err => 2

/-- The value of a button type. -/
def BtnType.toNat : BtnType → Nat
  | .hallUp => 0
  | .hallDown => 1
  | .cab => 2

/-- A writing call of `hardware.cpp`. -/
inductive HardwareCall where
  /-- One of the calls the elevator and its controller make. -/
  | command (command : Command)
  /-- `set_btn_lamp`. -/
  | btnLamp (btn : BtnType) (floor : Int) (value : Bool)
  deriving DecidableEq

namespace HardwareCall

/-- The message of a call in a building of a given height. -/
def message (kFloors : Nat) : HardwareCall → Option (List UInt8)
  | .command (.motorDir dir) =>
    -- `MotorDir Err has no defined actuator`
    if dir = .err then none else some [1, .ofInt dir.toInt, 0, 0]
  | .btnLamp btn floor value =>
    if 0 ≤ floor ∧ floor < kFloors then
      some [2, .ofNat btn.toNat, .ofInt floor, .ofNat value.toNat]
    else none
  | .command (.floorIndicator floor) =>
    if 0 ≤ floor ∧ floor < kFloors then some [3, .ofInt floor, 0, 0] else none
  | .command (.doorOpenLamp value) => some [4, .ofNat value.toNat, 0, 0]
  | .command (.stopLamp value) => some [5, .ofNat value.toNat, 0, 0]

end HardwareCall

/-- What the panel of an elevator shows: the last value written of each kind. -/
structure Panel (kFloors : Nat) where
  /-- Direction of the motor. -/
  motorDir : MotorDir
  /-- Door lamp. -/
  doorOpenLamp : Bool
  /-- Stop lamp. -/
  stopLamp : Bool
  /-- Floor indicator. -/
  floorIndicator : Int
  /-- Button lamps. -/
  btnLamps : Int → BtnType → Bool

namespace Panel

/-- The panel after a call. -/
def write (p : Panel kFloors) : HardwareCall → Panel kFloors
  | .command (.motorDir dir) => { p with motorDir := dir }
  | .command (.doorOpenLamp value) => { p with doorOpenLamp := value }
  | .command (.stopLamp value) => { p with stopLamp := value }
  | .command (.floorIndicator floor) => { p with floorIndicator := floor }
  | .btnLamp btn floor value =>
    { p with btnLamps := fun f b => if f = floor ∧ b = btn then value else p.btnLamps f b }

/-- Make a call. -/
def call (p : Panel kFloors) (c : HardwareCall) : Option (Panel kFloors) :=
  (c.message kFloors).map fun _ => p.write c

/-- Make calls in order. -/
def calls (p : Panel kFloors) (cs : List HardwareCall) : Option (Panel kFloors) := cs.foldlM call p

end Panel

namespace Elevator

/-- The calls of `Elevator::Init`: `InitToFloor` and the floor indicator. -/
def initCalls (floor : Int) : List HardwareCall :=
  [.command (.motorDir .down), .command (.motorDir .stop)] ++
    if floor = Config.kBetweenFloors then [] else [.command (.floorIndicator floor)]

end Elevator

end CppElevator
