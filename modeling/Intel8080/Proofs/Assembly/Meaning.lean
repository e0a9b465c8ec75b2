import Intel8080.Instruction
import Intel8080.Proofs.Assembly.Text

/-!
# What the assembler texts mean

The meaning of the data instructions, given by nothing but the text of the mnemonic and the operand
behind it: registers are found by their letters, pairs by their first letters, operations by their
verbs. Opcodes and their bit fields play no part. Memory is a function of the address, so a store
is the usual update of a function. The byte that holds the flags on the stack is written out bit by
bit. The results and flags of arithmetic come from `Arithmetic`.
-/
namespace Intel8080

/-- All that data instructions read and write. -/
@[ext]
structure DataPath where
  a : UInt8
  b : UInt8
  c : UInt8
  d : UInt8
  e : UInt8
  h : UInt8
  l : UInt8
  sp : UInt16
  flags : Flags
  mem : UInt16 → UInt8
  interruptsEnabled : Bool

namespace Assembly

/-- The flags as a byte of the stack, from bit 7 down to bit 0: sign, zero, a zero bit, auxiliary
carry, a zero bit, parity, a one bit, carry. -/
def flagByte (f : Flags) : UInt8 :=
  UInt8.ofNat (128 * f.sign.toNat + 64 * f.zero.toNat + 16 * f.auxCarry.toNat + 4 * f.parity.toNat +
    2 + f.carry.toNat)

/-- The flags that a byte of the stack holds. Bits 5, 3 and 1 are not looked at. -/
def flagsOfByte (b : UInt8) : Flags where
  sign := b.toNat.testBit 7
  zero := b.toNat.testBit 6
  auxCarry := b.toNat.testBit 4
  parity := b.toNat.testBit 2
  carry := b.toNat.testBit 0

/-- The machine packs its flags in this layout. -/
theorem toByte_eq_flagByte (f : Flags) : f.toByte = flagByte f := by
  obtain ⟨sign, zero, auxCarry, parity, carry⟩ := f
  revert sign zero auxCarry parity carry
  decide

/-- The code reads the layout from a byte, with the bits that carry no flag left out. -/
theorem ofByte_eq_flagsOfByte : ∀ b, Flags.ofByte b = flagsOfByte b :=
  forall_byte (by decide +kernel)

end Assembly

namespace DataPath

def bc (s : DataPath) : UInt16 := wordOf s.b s.c

def de (s : DataPath) : UInt16 := wordOf s.d s.e

def hl (s : DataPath) : UInt16 := wordOf s.h s.l

def setBc (s : DataPath) (w : UInt16) : DataPath := { s with b := highByte w, c := lowByte w }

def setDe (s : DataPath) (w : UInt16) : DataPath := { s with d := highByte w, e := lowByte w }

def setHl (s : DataPath) (w : UInt16) : DataPath := { s with h := highByte w, l := lowByte w }

def store (s : DataPath) (address : UInt16) (value : UInt8) : DataPath :=
  { s with mem := fun x => if x = address then value else s.mem x }

/-- The word at an address, low byte first; the address behind FFFF is 0000. -/
def word (s : DataPath) (address : UInt16) : UInt16 :=
  wordOf (s.mem (address + 1)) (s.mem address)

def storeWord (s : DataPath) (address w : UInt16) : DataPath :=
  (s.store address (lowByte w)).store (address + 1) (highByte w)

/-- The byte that a letter names; `M` is the byte of memory at `HL`. -/
def byte? (s : DataPath) : String → Option UInt8
  | "A" => some s.a | "B" => some s.b | "C" => some s.c | "D" => some s.d | "E" => some s.e
  | "H" => some s.h | "L" => some s.l | "M" => some (s.mem s.hl) | _ => none

def setByte? (s : DataPath) (value : UInt8) : String → Option DataPath
  | "A" => some { s with a := value }
  | "B" => some { s with b := value }
  | "C" => some { s with c := value }
  | "D" => some { s with d := value }
  | "E" => some { s with e := value }
  | "H" => some { s with h := value }
  | "L" => some { s with l := value }
  | "M" => some (s.store s.hl value)
  | _ => none

/-- The word that a name stands for in word arithmetic. -/
def pair? (s : DataPath) : String → Option UInt16
  | "B" => some s.bc | "D" => some s.de | "H" => some s.hl | "SP" => some s.sp | _ => none

def setPair? (s : DataPath) (w : UInt16) : String → Option DataPath
  | "B" => some (s.setBc w) | "D" => some (s.setDe w) | "H" => some (s.setHl w)
  | "SP" => some { s with sp := w }
  | _ => none

/-- The word that a name stands for on the stack; `PSW` is the accumulator over the flags. -/
def stackPair? (s : DataPath) : String → Option UInt16
  | "B" => some s.bc | "D" => some s.de | "H" => some s.hl
  | "PSW" => some (wordOf s.a (Assembly.flagByte s.flags))
  | _ => none

def setStackPair? (s : DataPath) (w : UInt16) : String → Option DataPath
  | "B" => some (s.setBc w) | "D" => some (s.setDe w) | "H" => some (s.setHl w)
  | "PSW" => some { s with a := highByte w, flags := Assembly.flagsOfByte (lowByte w) }
  | _ => none

/-- Only two pairs hold the address of an indirect load or store. -/
def pointer? (s : DataPath) : String → Option UInt16
  | "B" => some s.bc | "D" => some s.de | _ => none

def adjust (s : DataPath) (f : Flags → UInt8 → UInt8 × Flags) : DataPath :=
  { s with a := (f s.flags s.a).1, flags := (f s.flags s.a).2 }

def adjustByte? (s : DataPath) (name : String) (f : Flags → UInt8 → UInt8 × Flags) :
    Option DataPath := do
  let value ← s.byte? name
  { s with flags := (f s.flags value).2 }.setByte? (f s.flags value).1 name

def addPair (s : DataPath) (w : UInt16) : DataPath :=
  { s with flags := (Arithmetic.dad s.flags s.hl w).2 }.setHl (Arithmetic.dad s.flags s.hl w).1

/-- The high byte goes below the stack pointer and the low byte below that. -/
def push (s : DataPath) (w : UInt16) : DataPath :=
  { (s.store (s.sp - 1) (highByte w)).store (s.sp - 2) (lowByte w) with sp := s.sp - 2 }

end DataPath

namespace Assembly

/-- The operation with the accumulator that a verb names in front of a register. -/
def registerVerb : String → Option (Flags → UInt8 → UInt8 → UInt8 × Flags)
  | "ADD" => some Arithmetic.add | "ADC" => some Arithmetic.adc
  | "SUB" => some Arithmetic.sub | "SBB" => some Arithmetic.sbb
  | "ANA" => some Arithmetic.and | "XRA" => some Arithmetic.xor | "ORA" => some Arithmetic.or
  | "CMP" => some fun f acc operand => (acc, Arithmetic.cmp f acc operand)
  | _ => none

/-- The operation with the accumulator that a verb names in front of a byte. -/
def immediateVerb : String → Option (Flags → UInt8 → UInt8 → UInt8 × Flags)
  | "ADI" => some Arithmetic.add | "ACI" => some Arithmetic.adc
  | "SUI" => some Arithmetic.sub | "SBI" => some Arithmetic.sbb
  | "ANI" => some Arithmetic.and | "XRI" => some Arithmetic.xor | "ORI" => some Arithmetic.or
  | "CPI" => some fun f acc operand => (acc, Arithmetic.cmp f acc operand)
  | _ => none

/-- Verbs that stand alone. -/
def aloneMeaning (s : DataPath) : String → Option DataPath
  | "NOP" | "*NOP" => some s
  | "XCHG" => some ((s.setDe s.hl).setHl s.de)
  | "XTHL" => some ((s.storeWord s.sp s.hl).setHl (s.word s.sp))
  | "SPHL" => some { s with sp := s.hl }
  | "RLC" => some (s.adjust Arithmetic.rlc)
  | "RRC" => some (s.adjust Arithmetic.rrc)
  | "RAL" => some (s.adjust Arithmetic.ral)
  | "RAR" => some (s.adjust Arithmetic.rar)
  | "DAA" => some (s.adjust Arithmetic.daa)
  | "CMA" => some { s with a := ~~~s.a }
  | "STC" => some { s with flags := { s.flags with carry := true } }
  | "CMC" => some { s with flags := { s.flags with carry := !s.flags.carry } }
  | "EI" => some { s with interruptsEnabled := true }
  | "DI" => some { s with interruptsEnabled := false }
  | _ => none

/-- Verbs with a byte behind them. A port is neither read nor written. -/
def byteMeaning (s : DataPath) (value : UInt8) : String → Option DataPath
  | "IN" | "OUT" => some s
  | verb => (immediateVerb verb).map fun f => s.adjust fun flags acc => f flags acc value

/-- Verbs with an address behind them. -/
def wordMeaning (s : DataPath) (address : UInt16) : String → Option DataPath
  | "STA" => some (s.store address s.a)
  | "LDA" => some { s with a := s.mem address }
  | "SHLD" => some (s.storeWord address s.hl)
  | "LHLD" => some (s.setHl (s.word address))
  | _ => none

/-- Verbs with one register or pair. -/
def nameMeaning (s : DataPath) (name : String) : String → Option DataPath
  | "INR" => s.adjustByte? name Arithmetic.inr
  | "DCR" => s.adjustByte? name Arithmetic.dcr
  | "INX" => do s.setPair? ((← s.pair? name) + 1) name
  | "DCX" => do s.setPair? ((← s.pair? name) - 1) name
  | "DAD" => do some (s.addPair (← s.pair? name))
  | "STAX" => do some (s.store (← s.pointer? name) s.a)
  | "LDAX" => do some { s with a := s.mem (← s.pointer? name) }
  | "PUSH" => do some (s.push (← s.stackPair? name))
  | "POP" => { s with sp := s.sp + 2 }.setStackPair? (s.word s.sp) name
  | verb => do
    let f ← registerVerb verb
    let value ← s.byte? name
    some (s.adjust fun flags acc => f flags acc value)

/-- The meaning of verb and register operands with the operand behind them. -/
def phraseMeaning (s : DataPath) (phrase : String × List String) (operand : Operand) :
    Option DataPath :=
  match phrase, operand with
  | (verb, []), .none => aloneMeaning s verb
  | (verb, []), .byte value => byteMeaning s value verb
  | (verb, []), .word address => wordMeaning s address verb
  | (verb, [name]), .none => nameMeaning s name verb
  | ("MVI", [name]), .byte value => s.setByte? value name
  | ("LXI", [name]), .word w => s.setPair? w name
  | ("MOV", [target, source]), .none => do s.setByte? (← s.byte? source) target
  | _, _ => none

/-- What an instruction of the data path makes of a state, by its mnemonic and operand. -/
def meaning (mnemonic : String) (operand : Operand) (s : DataPath) : Option DataPath :=
  phraseMeaning s (words mnemonic) operand

def dataVerbs : List String := [
  "MOV", "MVI", "LXI", "INR", "DCR", "INX", "DCX", "DAD",
  "ADD", "ADC", "SUB", "SBB", "ANA", "XRA", "ORA", "CMP",
  "ADI", "ACI", "SUI", "SBI", "ANI", "XRI", "ORI", "CPI",
  "STAX", "LDAX", "STA", "LDA", "SHLD", "LHLD", "XCHG", "XTHL", "SPHL", "PUSH", "POP",
  "RLC", "RRC", "RAL", "RAR", "DAA", "CMA", "STC", "CMC", "EI", "DI", "NOP", "*NOP", "IN", "OUT"]

/-- The verbs that change the carry and no other flag. -/
def carryVerbs : List String := ["DAD", "RLC", "RRC", "RAL", "RAR", "STC", "CMC"]

/-- The verbs that change every flag. A pop does so only into the flags themselves. -/
def flagVerbs : List String := [
  "ADD", "ADC", "SUB", "SBB", "ANA", "XRA", "ORA", "CMP",
  "ADI", "ACI", "SUI", "SBI", "ANI", "XRI", "ORI", "CPI", "DAA"]

/-- What an instruction may change of the flags. Whatever is not named here leaves them alone: the
loads, stores, moves and exchanges, word increments, pushes and all pops but one. -/
def FlagsKept (phrase : String × List String) (before after : Flags) : Prop :=
  if phrase.1 ∈ flagVerbs ∨ phrase = ("POP", ["PSW"]) then True
  else if phrase.1 = "INR" ∨ phrase.1 = "DCR" then after.carry = before.carry
  else if phrase.1 ∈ carryVerbs then after = { before with carry := after.carry }
  else after = before

/-- A comparison changes nothing but the flags. -/
theorem compare_meaning {s t : DataPath} {phrase : String × List String} {operand : Operand}
    (compare : phrase.1 = "CMP" ∨ phrase.1 = "CPI")
    (means : phraseMeaning s phrase operand = some t) : t = { s with flags := t.flags } := by
  obtain ⟨verb, names⟩ := phrase
  obtain rfl | rfl := compare
  · match names, operand with
    | [name], .none =>
      obtain ⟨value, -, effect⟩ := Option.bind_eq_some_iff.mp means
      cases effect
      rfl
    | [], .none | [], .byte _ | [], .word _ | [_], .byte _ | [_], .word _ => cases means
    | _ :: _ :: rest, operand => cases rest <;> cases operand <;> cases means
  · match names, operand with
    | [], .byte value =>
      cases means
      rfl
    | [], .none | [], .word _ | [_], .none | [_], .byte _ | [_], .word _ => cases means
    | _ :: _ :: rest, operand => cases rest <;> cases operand <;> cases means

end Assembly

end Intel8080
