import Intel8080.Flags

/-!
# Branch conditions

Eight conditions, each the set or clear state of one flag.

Embedded here are the conditions with `from_opcode` and `holds`.
-/
namespace Intel8080

/-- A condition, in the order of its three-bit number. -/
inductive Condition where
  | notZero | zero | noCarry | carry | parityOdd | parityEven | plus | minus
  deriving DecidableEq, Repr

namespace Condition

/-- All conditions in the order of their numbers. -/
def all : List Condition :=
  [.notZero, .zero, .noCarry, .carry, .parityOdd, .parityEven, .plus, .minus]

/-- The condition in bits 5 to 3 of an opcode. -/
def ofOpcode (opcode : UInt8) : Condition :=
  match opcode >>> 3 &&& 7 with
  | 0 => .notZero | 1 => .zero | 2 => .noCarry | 3 => .carry
  | 4 => .parityOdd | 5 => .parityEven | 6 => .plus | _ => .minus

def holds (c : Condition) (f : Flags) : Bool :=
  match c with
  | .notZero => !f.zero
  | .zero => f.zero
  | .noCarry => !f.carry
  | .carry => f.carry
  | .parityOdd => !f.parity
  | .parityEven => f.parity
  | .plus => !f.sign
  | .minus => f.sign

/-- The letters that end the mnemonic of a conditional transfer. -/
def suffix : Condition → String
  | .notZero => "NZ" | .zero => "Z" | .noCarry => "NC" | .carry => "C"
  | .parityOdd => "PO" | .parityEven => "PE" | .plus => "P" | .minus => "M"

end Condition

end Intel8080
