import Intel8080.Arithmetic
import Intel8080.Condition
import Intel8080.Registers

/-!
# Opcodes

Every byte is an opcode, and one table says of each what it is called, how many bytes its
instruction takes and which handler carries it out. A handler that serves several opcodes takes the
registers and conditions from their bits; `Handler.operation` is what comes of that. Twelve bytes
are undocumented aliases: they do what the opcode they shadow does, and their mnemonics start with
an asterisk. Only the two port operations are not carried out.

The mnemonics and sizes are texts and numbers of their own, so nothing but their entries makes them
agree with what the handlers do. That they do is said by `mnemonic_eq`, `size_eq` and
`isImplemented_eq`.

Embedded here are the opcode table with `op`, `stub` and `lookup`, and what the handlers of the
instructions read out of an opcode.
-/
namespace Intel8080

/-- What an opcode does. Immediate operands are not part of it: they follow the opcode in
memory. -/
inductive Operation where
  | nop | hlt | ei | di
  | mov (target source : Reg)
  | mvi (target : Reg)
  | lxi (pair : Pair)
  | stax (pointer : Pointer)
  | ldax (pointer : Pointer)
  | sta | lda | shld | lhld | xchg
  | accumulate (op : AccumulatorOp) (source : Reg)
  | accumulateImmediate (op : AccumulatorOp)
  | inr (target : Reg)
  | dcr (target : Reg)
  | inx (pair : Pair)
  | dcx (pair : Pair)
  | dad (pair : Pair)
  | rlc | rrc | ral | rar | daa | cma | stc | cmc
  | push (pair : StackPair)
  | pop (pair : StackPair)
  | xthl | sphl
  /-- A jump, always or on a condition. -/
  | jump (condition : Option Condition)
  /-- A call, always or on a condition. -/
  | call (condition : Option Condition)
  /-- A return, always or on a condition. -/
  | ret (condition : Option Condition)
  /-- A call of the fixed vector with this number. -/
  | rst (vector : UInt8)
  | pchl
  /-- Reading a port, which is not carried out. -/
  | input
  /-- Writing a port, which is not carried out. -/
  | output
  deriving DecidableEq, Repr

/-- What carries an opcode out. -/
inductive Handler where
  | nop | hlt | unimplemented | ei | di
  | mov | mvi | lxi | stax | ldax | sta | lda | shld | lhld | xchg
  /-- The accumulator with a register. -/
  | aluReg
  /-- The accumulator with the byte behind the opcode. -/
  | aluImm
  | inr | dcr | inx | dcx | dad | daa | cma | stc | cmc
  | rlc | rrc | ral | rar
  | push | pop | xthl | sphl
  | jmp | jmpCond | call | callCond | ret | retCond | rst | pchl
  deriving DecidableEq, Repr

/-- What a handler makes of an opcode, with the operands that the bits of the opcode name. -/
def Handler.operation (handler : Handler) (opcode : UInt8) : Operation :=
  match handler with
  | .nop => .nop
  | .hlt => .hlt
  | .unimplemented => if opcode == 0xDB then .input else .output
  | .ei => .ei
  | .di => .di
  | .mov => .mov (.ofBits (opcode >>> 3)) (.ofBits opcode)
  | .mvi => .mvi (.ofBits (opcode >>> 3))
  | .lxi => .lxi (.ofBits (opcode >>> 4))
  | .stax => .stax (.ofOpcode opcode)
  | .ldax => .ldax (.ofOpcode opcode)
  | .sta => .sta
  | .lda => .lda
  | .shld => .shld
  | .lhld => .lhld
  | .xchg => .xchg
  | .aluReg => .accumulate (.ofOpcode opcode) (.ofBits opcode)
  | .aluImm => .accumulateImmediate (.ofOpcode opcode)
  | .inr => .inr (.ofBits (opcode >>> 3))
  | .dcr => .dcr (.ofBits (opcode >>> 3))
  | .inx => .inx (.ofBits (opcode >>> 4))
  | .dcx => .dcx (.ofBits (opcode >>> 4))
  | .dad => .dad (.ofBits (opcode >>> 4))
  | .daa => .daa
  | .cma => .cma
  | .stc => .stc
  | .cmc => .cmc
  | .rlc => .rlc
  | .rrc => .rrc
  | .ral => .ral
  | .rar => .rar
  | .push => .push (.ofBits (opcode >>> 4))
  | .pop => .pop (.ofBits (opcode >>> 4))
  | .xthl => .xthl
  | .sphl => .sphl
  | .jmp => .jump none
  | .jmpCond => .jump (some (.ofOpcode opcode))
  | .call => .call none
  | .callCond => .call (some (.ofOpcode opcode))
  | .ret => .ret none
  | .retCond => .ret (some (.ofOpcode opcode))
  | .rst => .rst (opcode >>> 3 &&& 7)
  | .pchl => .pchl

/-! ## The table -/

/-- What is said of one opcode. -/
structure Opcode.Entry where
  /-- The name, with the registers that it works on. -/
  mnemonic : String
  /-- The bytes of the whole instruction, from one to three. -/
  size : Nat
  handler : Handler
  implemented : Bool
  deriving DecidableEq, Repr

namespace Opcode

def op (mnemonic : String) (size : Nat) (handler : Handler) : Entry :=
  ⟨mnemonic, size, handler, true⟩

def stub (mnemonic : String) (size : Nat) : Entry := ⟨mnemonic, size, .unimplemented, false⟩

/-- The entries of all opcodes, in rows by their first hexadecimal digit. -/
def table : Vector (Vector Entry 16) 16 := #v[
  -- 00
  #v[op "NOP" 1 .nop, op "LXI B" 3 .lxi, op "STAX B" 1 .stax, op "INX B" 1 .inx,
    op "INR B" 1 .inr, op "DCR B" 1 .dcr, op "MVI B" 2 .mvi, op "RLC" 1 .rlc,
    op "*NOP" 1 .nop, op "DAD B" 1 .dad, op "LDAX B" 1 .ldax, op "DCX B" 1 .dcx,
    op "INR C" 1 .inr, op "DCR C" 1 .dcr, op "MVI C" 2 .mvi, op "RRC" 1 .rrc],
  -- 10
  #v[op "*NOP" 1 .nop, op "LXI D" 3 .lxi, op "STAX D" 1 .stax, op "INX D" 1 .inx,
    op "INR D" 1 .inr, op "DCR D" 1 .dcr, op "MVI D" 2 .mvi, op "RAL" 1 .ral,
    op "*NOP" 1 .nop, op "DAD D" 1 .dad, op "LDAX D" 1 .ldax, op "DCX D" 1 .dcx,
    op "INR E" 1 .inr, op "DCR E" 1 .dcr, op "MVI E" 2 .mvi, op "RAR" 1 .rar],
  -- 20
  #v[op "*NOP" 1 .nop, op "LXI H" 3 .lxi, op "SHLD" 3 .shld, op "INX H" 1 .inx,
    op "INR H" 1 .inr, op "DCR H" 1 .dcr, op "MVI H" 2 .mvi, op "DAA" 1 .daa,
    op "*NOP" 1 .nop, op "DAD H" 1 .dad, op "LHLD" 3 .lhld, op "DCX H" 1 .dcx,
    op "INR L" 1 .inr, op "DCR L" 1 .dcr, op "MVI L" 2 .mvi, op "CMA" 1 .cma],
  -- 30
  #v[op "*NOP" 1 .nop, op "LXI SP" 3 .lxi, op "STA" 3 .sta, op "INX SP" 1 .inx,
    op "INR M" 1 .inr, op "DCR M" 1 .dcr, op "MVI M" 2 .mvi, op "STC" 1 .stc,
    op "*NOP" 1 .nop, op "DAD SP" 1 .dad, op "LDA" 3 .lda, op "DCX SP" 1 .dcx,
    op "INR A" 1 .inr, op "DCR A" 1 .dcr, op "MVI A" 2 .mvi, op "CMC" 1 .cmc],
  -- 40
  #v[op "MOV B,B" 1 .mov, op "MOV B,C" 1 .mov, op "MOV B,D" 1 .mov, op "MOV B,E" 1 .mov,
    op "MOV B,H" 1 .mov, op "MOV B,L" 1 .mov, op "MOV B,M" 1 .mov, op "MOV B,A" 1 .mov,
    op "MOV C,B" 1 .mov, op "MOV C,C" 1 .mov, op "MOV C,D" 1 .mov, op "MOV C,E" 1 .mov,
    op "MOV C,H" 1 .mov, op "MOV C,L" 1 .mov, op "MOV C,M" 1 .mov, op "MOV C,A" 1 .mov],
  -- 50
  #v[op "MOV D,B" 1 .mov, op "MOV D,C" 1 .mov, op "MOV D,D" 1 .mov, op "MOV D,E" 1 .mov,
    op "MOV D,H" 1 .mov, op "MOV D,L" 1 .mov, op "MOV D,M" 1 .mov, op "MOV D,A" 1 .mov,
    op "MOV E,B" 1 .mov, op "MOV E,C" 1 .mov, op "MOV E,D" 1 .mov, op "MOV E,E" 1 .mov,
    op "MOV E,H" 1 .mov, op "MOV E,L" 1 .mov, op "MOV E,M" 1 .mov, op "MOV E,A" 1 .mov],
  -- 60
  #v[op "MOV H,B" 1 .mov, op "MOV H,C" 1 .mov, op "MOV H,D" 1 .mov, op "MOV H,E" 1 .mov,
    op "MOV H,H" 1 .mov, op "MOV H,L" 1 .mov, op "MOV H,M" 1 .mov, op "MOV H,A" 1 .mov,
    op "MOV L,B" 1 .mov, op "MOV L,C" 1 .mov, op "MOV L,D" 1 .mov, op "MOV L,E" 1 .mov,
    op "MOV L,H" 1 .mov, op "MOV L,L" 1 .mov, op "MOV L,M" 1 .mov, op "MOV L,A" 1 .mov],
  -- 70
  #v[op "MOV M,B" 1 .mov, op "MOV M,C" 1 .mov, op "MOV M,D" 1 .mov, op "MOV M,E" 1 .mov,
    op "MOV M,H" 1 .mov, op "MOV M,L" 1 .mov, op "HLT" 1 .hlt, op "MOV M,A" 1 .mov,
    op "MOV A,B" 1 .mov, op "MOV A,C" 1 .mov, op "MOV A,D" 1 .mov, op "MOV A,E" 1 .mov,
    op "MOV A,H" 1 .mov, op "MOV A,L" 1 .mov, op "MOV A,M" 1 .mov, op "MOV A,A" 1 .mov],
  -- 80
  #v[op "ADD B" 1 .aluReg, op "ADD C" 1 .aluReg, op "ADD D" 1 .aluReg, op "ADD E" 1 .aluReg,
    op "ADD H" 1 .aluReg, op "ADD L" 1 .aluReg, op "ADD M" 1 .aluReg, op "ADD A" 1 .aluReg,
    op "ADC B" 1 .aluReg, op "ADC C" 1 .aluReg, op "ADC D" 1 .aluReg, op "ADC E" 1 .aluReg,
    op "ADC H" 1 .aluReg, op "ADC L" 1 .aluReg, op "ADC M" 1 .aluReg, op "ADC A" 1 .aluReg],
  -- 90
  #v[op "SUB B" 1 .aluReg, op "SUB C" 1 .aluReg, op "SUB D" 1 .aluReg, op "SUB E" 1 .aluReg,
    op "SUB H" 1 .aluReg, op "SUB L" 1 .aluReg, op "SUB M" 1 .aluReg, op "SUB A" 1 .aluReg,
    op "SBB B" 1 .aluReg, op "SBB C" 1 .aluReg, op "SBB D" 1 .aluReg, op "SBB E" 1 .aluReg,
    op "SBB H" 1 .aluReg, op "SBB L" 1 .aluReg, op "SBB M" 1 .aluReg, op "SBB A" 1 .aluReg],
  -- A0
  #v[op "ANA B" 1 .aluReg, op "ANA C" 1 .aluReg, op "ANA D" 1 .aluReg, op "ANA E" 1 .aluReg,
    op "ANA H" 1 .aluReg, op "ANA L" 1 .aluReg, op "ANA M" 1 .aluReg, op "ANA A" 1 .aluReg,
    op "XRA B" 1 .aluReg, op "XRA C" 1 .aluReg, op "XRA D" 1 .aluReg, op "XRA E" 1 .aluReg,
    op "XRA H" 1 .aluReg, op "XRA L" 1 .aluReg, op "XRA M" 1 .aluReg, op "XRA A" 1 .aluReg],
  -- B0
  #v[op "ORA B" 1 .aluReg, op "ORA C" 1 .aluReg, op "ORA D" 1 .aluReg, op "ORA E" 1 .aluReg,
    op "ORA H" 1 .aluReg, op "ORA L" 1 .aluReg, op "ORA M" 1 .aluReg, op "ORA A" 1 .aluReg,
    op "CMP B" 1 .aluReg, op "CMP C" 1 .aluReg, op "CMP D" 1 .aluReg, op "CMP E" 1 .aluReg,
    op "CMP H" 1 .aluReg, op "CMP L" 1 .aluReg, op "CMP M" 1 .aluReg, op "CMP A" 1 .aluReg],
  -- C0
  #v[op "RNZ" 1 .retCond, op "POP B" 1 .pop, op "JNZ" 3 .jmpCond, op "JMP" 3 .jmp,
    op "CNZ" 3 .callCond, op "PUSH B" 1 .push, op "ADI" 2 .aluImm, op "RST 0" 1 .rst,
    op "RZ" 1 .retCond, op "RET" 1 .ret, op "JZ" 3 .jmpCond, op "*JMP" 3 .jmp,
    op "CZ" 3 .callCond, op "CALL" 3 .call, op "ACI" 2 .aluImm, op "RST 1" 1 .rst],
  -- D0
  #v[op "RNC" 1 .retCond, op "POP D" 1 .pop, op "JNC" 3 .jmpCond, stub "OUT" 2,
    op "CNC" 3 .callCond, op "PUSH D" 1 .push, op "SUI" 2 .aluImm, op "RST 2" 1 .rst,
    op "RC" 1 .retCond, op "*RET" 1 .ret, op "JC" 3 .jmpCond, stub "IN" 2,
    op "CC" 3 .callCond, op "*CALL" 3 .call, op "SBI" 2 .aluImm, op "RST 3" 1 .rst],
  -- E0
  #v[op "RPO" 1 .retCond, op "POP H" 1 .pop, op "JPO" 3 .jmpCond, op "XTHL" 1 .xthl,
    op "CPO" 3 .callCond, op "PUSH H" 1 .push, op "ANI" 2 .aluImm, op "RST 4" 1 .rst,
    op "RPE" 1 .retCond, op "PCHL" 1 .pchl, op "JPE" 3 .jmpCond, op "XCHG" 1 .xchg,
    op "CPE" 3 .callCond, op "*CALL" 3 .call, op "XRI" 2 .aluImm, op "RST 5" 1 .rst],
  -- F0
  #v[op "RP" 1 .retCond, op "POP PSW" 1 .pop, op "JP" 3 .jmpCond, op "DI" 1 .di,
    op "CP" 3 .callCond, op "PUSH PSW" 1 .push, op "ORI" 2 .aluImm, op "RST 6" 1 .rst,
    op "RM" 1 .retCond, op "SPHL" 1 .sphl, op "JM" 3 .jmpCond, op "EI" 1 .ei,
    op "CM" 3 .callCond, op "*CALL" 3 .call, op "CPI" 2 .aluImm, op "RST 7" 1 .rst]]

def entry (opcode : UInt8) : Entry :=
  let row := table.get ⟨opcode.toNat / 16, Nat.div_lt_of_lt_mul opcode.toNat_lt⟩
  row.get ⟨opcode.toNat % 16, Nat.mod_lt _ (by decide)⟩

def mnemonic (opcode : UInt8) : String := (entry opcode).mnemonic

def size (opcode : UInt8) : Nat := (entry opcode).size

def isImplemented (opcode : UInt8) : Bool := (entry opcode).implemented

def operation (opcode : UInt8) : Operation := (entry opcode).handler.operation opcode

end Opcode

/-! ## What the table agrees with -/

namespace Pair

/-- The name in mnemonics, by the first register. -/
def name : Pair → String
  | .bc => "B" | .de => "D" | .hl => "H" | .sp => "SP"

end Pair

def StackPair.name : StackPair → String
  | .bc => "B" | .de => "D" | .hl => "H" | .psw => "PSW"

def Pointer.name : Pointer → String
  | .bc => "B" | .de => "D"

namespace Operation

def mnemonic : Operation → String
  | .nop => "NOP" | .hlt => "HLT" | .ei => "EI" | .di => "DI"
  | .mov target source => "MOV " ++ target.name ++ "," ++ source.name
  | .mvi target => "MVI " ++ target.name
  | .lxi pair => "LXI " ++ pair.name
  | .stax pointer => "STAX " ++ pointer.name
  | .ldax pointer => "LDAX " ++ pointer.name
  | .sta => "STA" | .lda => "LDA" | .shld => "SHLD" | .lhld => "LHLD" | .xchg => "XCHG"
  | .accumulate op source => op.registerName ++ " " ++ source.name
  | .accumulateImmediate op => op.immediateName
  | .inr target => "INR " ++ target.name
  | .dcr target => "DCR " ++ target.name
  | .inx pair => "INX " ++ pair.name
  | .dcx pair => "DCX " ++ pair.name
  | .dad pair => "DAD " ++ pair.name
  | .rlc => "RLC" | .rrc => "RRC" | .ral => "RAL" | .rar => "RAR"
  | .daa => "DAA" | .cma => "CMA" | .stc => "STC" | .cmc => "CMC"
  | .push pair => "PUSH " ++ pair.name
  | .pop pair => "POP " ++ pair.name
  | .xthl => "XTHL" | .sphl => "SPHL"
  | .jump none => "JMP"
  | .jump (some c) => "J" ++ c.suffix
  | .call none => "CALL"
  | .call (some c) => "C" ++ c.suffix
  | .ret none => "RET"
  | .ret (some c) => "R" ++ c.suffix
  | .rst vector => "RST " ++ toString vector.toNat
  | .pchl => "PCHL"
  | .input => "IN" | .output => "OUT"

/-- How many operand bytes follow the opcode. -/
def operandSize : Operation → Nat
  | .mvi _ | .accumulateImmediate _ | .input | .output => 1
  | .lxi _ | .sta | .lda | .shld | .lhld | .jump _ | .call _ => 2
  | _ => 0

/-- The size of the whole instruction in bytes. -/
def size (o : Operation) : Nat := 1 + o.operandSize

/-- Whether the operation is carried out rather than reported. -/
def isImplemented : Operation → Bool
  | .input | .output => false
  | _ => true

end Operation

namespace Opcode

/-- The opcodes that repeat a documented one. -/
def aliases : List UInt8 :=
  [0x08, 0x10, 0x18, 0x20, 0x28, 0x30, 0x38, 0xCB, 0xD9, 0xDD, 0xED, 0xFD]

def isAlias (opcode : UInt8) : Bool := aliases.contains opcode

/-- An opcode is called after its operation, with an asterisk in front if it is an alias. -/
theorem mnemonic_eq : ∀ opcode,
    mnemonic opcode = (if isAlias opcode then "*" else "") ++ (operation opcode).mnemonic :=
  forall_byte (by decide +kernel)

/-- The table counts the opcode and the operand bytes of its operation. -/
theorem size_eq : ∀ opcode, size opcode = (operation opcode).size :=
  forall_byte (by decide +kernel)

/-- The rows that are marked as not carried out are those of the two port operations. -/
theorem isImplemented_eq : ∀ opcode, isImplemented opcode = (operation opcode).isImplemented :=
  forall_byte (by decide +kernel)

end Opcode

end Intel8080
