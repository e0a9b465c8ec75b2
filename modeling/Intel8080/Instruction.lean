import Intel8080.Memory
import Intel8080.Opcode

/-!
# Instructions

An instruction is an opcode at an address with the operand bytes that follow it. Operand bytes
past the top of memory come from the bottom. The text of an instruction puts the operand after the
mnemonic in hexadecimal: behind a comma if the mnemonic names a register, else behind a space.

Embedded here are `decode`, `bytes` and `size` of an instruction, and the `text` that a listing
gives it.
-/
namespace Intel8080

inductive Operand where
  | none
  | byte (value : UInt8)
  | word (value : UInt16)
  deriving DecidableEq, Repr

structure Instruction where
  address : UInt16
  opcode : UInt8
  operand : Operand
  deriving DecidableEq, Repr

namespace Instruction

/-- The instruction at an address. -/
def decode (mem : Memory) (address : UInt16) : Instruction :=
  let opcode := mem.read address
  let operand := match Opcode.size opcode with
    | 2 => .byte (mem.read (address + 1))
    | 3 => .word (mem.readWord (address + 1))
    | _ => .none
  ⟨address, opcode, operand⟩

def mnemonic (i : Instruction) : String := Opcode.mnemonic i.opcode

def size (i : Instruction) : Nat := Opcode.size i.opcode

/-- The bytes of the instruction as they stand in memory. -/
def bytes (i : Instruction) : List UInt8 :=
  match i.operand with
  | .none => [i.opcode]
  | .byte b => [i.opcode, b]
  | .word w => [i.opcode, lowByte w, highByte w]

/-- What stands between mnemonic and operand. -/
def separator (mnemonic : String) : String := if mnemonic.toList.contains ' ' then "," else " "

def text (i : Instruction) : String :=
  let m := i.mnemonic
  match i.operand with
  | .none => m
  | .byte b => m ++ separator m ++ "$" ++ byteHex b
  | .word w => m ++ separator m ++ "$" ++ wordHex w

end Instruction

end Intel8080
