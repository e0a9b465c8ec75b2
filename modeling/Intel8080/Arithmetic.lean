import Intel8080.Flags

/-!
# Arithmetic and logic

Each operation takes the flags it reads and the operands, and gives the result with the flags it
leaves. None of them touches the machine, so they can be chained over the bytes of longer numbers
by passing the flags on.

Embedded here are the operations `add`, `adc`, `sub`, `sbb`, `and`, `or`, `xor`, `cmp`, `inr`,
`dcr`, `dad`, `daa` and the four rotations, and the choice among the first eight by an opcode.
-/
namespace Intel8080

namespace Arithmetic

/-- Adds two bytes and a carry. -/
def addWithCarry (f : Flags) (acc operand : UInt8) (carryIn : Bool) : UInt8 × Flags :=
  let sum := acc.toNat + operand.toNat + carryIn.toNat
  let result := UInt8.ofNat sum
  let halfSum := acc.toNat % 16 + operand.toNat % 16 + carryIn.toNat
  (result, { f with auxCarry := 15 < halfSum, carry := 255 < sum }.withResult result)

/-- Subtracts by adding the complement; the carry out is the inverted borrow. -/
def subWithBorrow (f : Flags) (acc operand : UInt8) (borrowIn : Bool) : UInt8 × Flags :=
  let (result, f) := addWithCarry f acc (~~~operand) (!borrowIn)
  (result, { f with carry := !f.carry })

def add (f : Flags) (acc operand : UInt8) : UInt8 × Flags := addWithCarry f acc operand false

def adc (f : Flags) (acc operand : UInt8) : UInt8 × Flags := addWithCarry f acc operand f.carry

def sub (f : Flags) (acc operand : UInt8) : UInt8 × Flags := subWithBorrow f acc operand false

def sbb (f : Flags) (acc operand : UInt8) : UInt8 × Flags := subWithBorrow f acc operand f.carry

/-- The flags of a subtraction whose result is dropped. -/
def cmp (f : Flags) (acc operand : UInt8) : Flags := (sub f acc operand).2

/-- Bitwise and. The auxiliary carry is bit 3 of either operand. -/
def and (f : Flags) (acc operand : UInt8) : UInt8 × Flags :=
  let result := acc &&& operand
  (result, { f with auxCarry := (acc ||| operand) &&& 0x08 != 0, carry := false }.withResult result)

/-- Bitwise or; clears both carries. -/
def or (f : Flags) (acc operand : UInt8) : UInt8 × Flags :=
  let result := acc ||| operand
  (result, { f with auxCarry := false, carry := false }.withResult result)

/-- Bitwise exclusive or; clears both carries. -/
def xor (f : Flags) (acc operand : UInt8) : UInt8 × Flags :=
  let result := acc ^^^ operand
  (result, { f with auxCarry := false, carry := false }.withResult result)

/-- Adds one; the carry is kept. -/
def inr (f : Flags) (value : UInt8) : UInt8 × Flags :=
  let result := value + 1
  (result, { f with auxCarry := result &&& 0x0F == 0 }.withResult result)

/-- Subtracts one; the carry is kept. The auxiliary carry is clear only if bit 3 borrowed. -/
def dcr (f : Flags) (value : UInt8) : UInt8 × Flags :=
  let result := value - 1
  (result, { f with auxCarry := result &&& 0x0F != 0x0F }.withResult result)

/-- Adds two words; only the carry changes. -/
def dad (f : Flags) (hl operand : UInt16) : UInt16 × Flags :=
  (hl + operand, { f with carry := 65535 < hl.toNat + operand.toNat })

/-- Rotates left; bit 7 goes to the carry and to bit 0. -/
def rlc (f : Flags) (acc : UInt8) : UInt8 × Flags :=
  ((acc <<< 1) ||| (acc >>> 7), { f with carry := acc &&& 0x80 != 0 })

/-- Rotates right; bit 0 goes to the carry and to bit 7. -/
def rrc (f : Flags) (acc : UInt8) : UInt8 × Flags :=
  ((acc >>> 1) ||| (acc <<< 7), { f with carry := acc &&& 0x01 != 0 })

def ral (f : Flags) (acc : UInt8) : UInt8 × Flags :=
  ((acc <<< 1) ||| f.carry.toUInt8, { f with carry := acc &&& 0x80 != 0 })

def rar (f : Flags) (acc : UInt8) : UInt8 × Flags :=
  ((acc >>> 1) ||| (f.carry.toUInt8 <<< 7), { f with carry := acc &&& 0x01 != 0 })

/-- The low step of the decimal adjustment: six is added when the low digit is above nine or
carried, and the auxiliary carry says whether it was. -/
def adjustLow (f : Flags) (acc : UInt8) : UInt8 × Flags :=
  if 9 < acc.toNat % 16 || f.auxCarry then (acc + 0x06, { f with auxCarry := true })
  else (acc, { f with auxCarry := false })

/-- The high step: sixty is added when the high digit is above nine or carried. A carry that is
set stays set. -/
def adjustHigh (f : Flags) (acc : UInt8) : UInt8 × Flags :=
  if 9 < acc.toNat / 16 || f.carry then
    (acc + 0x60, { f with carry := f.carry || 255 < acc.toNat + 0x60 })
  else (acc, f)

/-- Adjusts a sum of packed decimal bytes. The high step looks at what the low step left. -/
def daa (f : Flags) (acc : UInt8) : UInt8 × Flags :=
  let (low, f) := adjustLow f acc
  let (result, f) := adjustHigh f low
  (result, f.withResult result)

end Arithmetic

/-- An operation on the accumulator, in the order of its three-bit number. -/
inductive AccumulatorOp where
  | add | adc | sub | sbb | and | xor | or | cmp
  deriving DecidableEq, Repr

namespace AccumulatorOp

/-- The operation in bits 5 to 3 of an opcode. -/
def ofOpcode (opcode : UInt8) : AccumulatorOp :=
  match opcode >>> 3 &&& 7 with
  | 0 => .add | 1 => .adc | 2 => .sub | 3 => .sbb | 4 => .and | 5 => .xor | 6 => .or | _ => .cmp

/-- The new accumulator and flags. A comparison keeps the accumulator. -/
def apply (op : AccumulatorOp) (f : Flags) (acc operand : UInt8) : UInt8 × Flags :=
  match op with
  | .add => Arithmetic.add f acc operand
  | .adc => Arithmetic.adc f acc operand
  | .sub => Arithmetic.sub f acc operand
  | .sbb => Arithmetic.sbb f acc operand
  | .and => Arithmetic.and f acc operand
  | .xor => Arithmetic.xor f acc operand
  | .or => Arithmetic.or f acc operand
  | .cmp => (acc, Arithmetic.cmp f acc operand)

def registerName : AccumulatorOp → String
  | .add => "ADD" | .adc => "ADC" | .sub => "SUB" | .sbb => "SBB"
  | .and => "ANA" | .xor => "XRA" | .or => "ORA" | .cmp => "CMP"

/-- The mnemonic with an immediate operand. -/
def immediateName : AccumulatorOp → String
  | .add => "ADI" | .adc => "ACI" | .sub => "SUI" | .sbb => "SBI"
  | .and => "ANI" | .xor => "XRI" | .or => "ORI" | .cmp => "CPI"

end AccumulatorOp

end Intel8080
