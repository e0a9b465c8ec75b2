import Intel8080.Flags
import Intel8080.Word

/-!
# Registers

Seven byte registers, the program counter, the stack pointer and the flags. Instructions name
registers by three bits and pairs by two; the pair number three is the stack pointer for the
arithmetic instructions and the accumulator with its flags for the stack instructions. The
operand `M` is the byte of memory at `HL`; it is resolved where memory is at hand.

Embedded here are the registers with their pairs, `psw`, `advance_pc` and `reset`, and the operands
with `from_bits`.
-/
namespace Intel8080

/-- A byte operand, in the order of its three-bit number. -/
inductive Reg where
  | b | c | d | e | h | l
  /-- The byte of memory at `HL`. -/
  | m
  | a
  deriving DecidableEq, Repr

/-- The operand numbered by the low three bits. -/
def Reg.ofBits (bits : UInt8) : Reg :=
  match bits &&& 7 with
  | 0 => .b | 1 => .c | 2 => .d | 3 => .e | 4 => .h | 5 => .l | 6 => .m | _ => .a

def Reg.name : Reg → String
  | .b => "B" | .c => "C" | .d => "D" | .e => "E" | .h => "H" | .l => "L" | .m => "M" | .a => "A"

/-- A pair operand of the word arithmetic. -/
inductive Pair where
  | bc | de | hl | sp
  deriving DecidableEq, Repr

/-- The pair numbered by the low two bits. -/
def Pair.ofBits (bits : UInt8) : Pair :=
  match bits &&& 3 with
  | 0 => .bc | 1 => .de | 2 => .hl | _ => .sp

/-- A pair operand of push and pop. -/
inductive StackPair where
  | bc | de | hl
  /-- The accumulator as high byte and the packed flags as low byte. -/
  | psw
  deriving DecidableEq, Repr

/-- The pair numbered by the low two bits. -/
def StackPair.ofBits (bits : UInt8) : StackPair :=
  match bits &&& 3 with
  | 0 => .bc | 1 => .de | 2 => .hl | _ => .psw

/-- A pair that holds an address for the indirect loads and stores of the accumulator. -/
inductive Pointer where
  | bc | de
  deriving DecidableEq, Repr

/-- The pair that bit 4 of an opcode tells. -/
def Pointer.ofOpcode (opcode : UInt8) : Pointer := if opcode &&& 0x10 == 0 then .bc else .de

structure Registers where
  b : UInt8
  c : UInt8
  d : UInt8
  e : UInt8
  h : UInt8
  l : UInt8
  a : UInt8
  pc : UInt16
  sp : UInt16
  flags : Flags
  deriving DecidableEq, Repr

namespace Registers

def zero : Registers := ⟨0, 0, 0, 0, 0, 0, 0, 0, 0, .clear⟩

instance : Inhabited Registers := ⟨zero⟩

def bc (r : Registers) : UInt16 := wordOf r.b r.c
def de (r : Registers) : UInt16 := wordOf r.d r.e
def hl (r : Registers) : UInt16 := wordOf r.h r.l

/-- The accumulator over the packed flags. -/
def psw (r : Registers) : UInt16 := wordOf r.a r.flags.toByte

def setBc (r : Registers) (w : UInt16) : Registers := { r with b := highByte w, c := lowByte w }
def setDe (r : Registers) (w : UInt16) : Registers := { r with d := highByte w, e := lowByte w }
def setHl (r : Registers) (w : UInt16) : Registers := { r with h := highByte w, l := lowByte w }

def setPsw (r : Registers) (w : UInt16) : Registers :=
  { r with a := highByte w, flags := .ofByte (lowByte w) }

def pair (r : Registers) : Pair → UInt16
  | .bc => r.bc | .de => r.de | .hl => r.hl | .sp => r.sp

def setPair (r : Registers) (p : Pair) (w : UInt16) : Registers :=
  match p with
  | .bc => r.setBc w | .de => r.setDe w | .hl => r.setHl w | .sp => { r with sp := w }

def stackPair (r : Registers) : StackPair → UInt16
  | .bc => r.bc | .de => r.de | .hl => r.hl | .psw => r.psw

def setStackPair (r : Registers) (p : StackPair) (w : UInt16) : Registers :=
  match p with
  | .bc => r.setBc w | .de => r.setDe w | .hl => r.setHl w | .psw => r.setPsw w

def pointer (r : Registers) : Pointer → UInt16
  | .bc => r.bc | .de => r.de

def advancePc (r : Registers) : Registers := { r with pc := r.pc + 1 }

end Registers

end Intel8080
