import Intel8080.Instruction
import Intel8080.Proofs.Assembly.Transfer
import Intel8080.Proofs.Text.Hex

/-!
# Reading instructions

What `Instruction.text` writes can be read back. The dollar sign, which no mnemonic has, tells the
operand from the mnemonic (`parts?_text`); the words of a mnemonic name an operation
(`operation?_phrase`); and an operation has one documented opcode, put together from its fields
(`code_operation`). So texts are ambiguous only where mnemonics are, and those only where two
opcodes are aliases of the no-operation or of the call (`text_eq_iff`).
-/
namespace Intel8080

/-! ## From operations to opcodes -/

def Reg.number : Reg → UInt8
  | .b => 0 | .c => 1 | .d => 2 | .e => 3 | .h => 4 | .l => 5 | .m => 6 | .a => 7

def Pair.number : Pair → UInt8
  | .bc => 0 | .de => 1 | .hl => 2 | .sp => 3

def StackPair.number : StackPair → UInt8
  | .bc => 0 | .de => 1 | .hl => 2 | .psw => 3

def Pointer.number : Pointer → UInt8
  | .bc => 0 | .de => 1

def AccumulatorOp.number : AccumulatorOp → UInt8
  | .add => 0 | .adc => 1 | .sub => 2 | .sbb => 3 | .and => 4 | .xor => 5 | .or => 6 | .cmp => 7

def Condition.number : Condition → UInt8
  | .notZero => 0 | .zero => 1 | .noCarry => 2 | .carry => 3
  | .parityOdd => 4 | .parityEven => 5 | .plus => 6 | .minus => 7

/-- The documented opcode of an operation. -/
def Operation.code : Operation → UInt8
  | .nop => 0x00 | .hlt => 0x76 | .ei => 0xFB | .di => 0xF3
  | .mov target source => 0x40 + 8 * target.number + source.number
  | .mvi target => 0x06 + 8 * target.number
  | .lxi pair => 0x01 + 16 * pair.number
  | .stax pointer => 0x02 + 16 * pointer.number
  | .ldax pointer => 0x0A + 16 * pointer.number
  | .sta => 0x32 | .lda => 0x3A | .shld => 0x22 | .lhld => 0x2A | .xchg => 0xEB
  | .accumulate op source => 0x80 + 8 * op.number + source.number
  | .accumulateImmediate op => 0xC6 + 8 * op.number
  | .inr target => 0x04 + 8 * target.number
  | .dcr target => 0x05 + 8 * target.number
  | .inx pair => 0x03 + 16 * pair.number
  | .dcx pair => 0x0B + 16 * pair.number
  | .dad pair => 0x09 + 16 * pair.number
  | .rlc => 0x07 | .rrc => 0x0F | .ral => 0x17 | .rar => 0x1F
  | .daa => 0x27 | .cma => 0x2F | .stc => 0x37 | .cmc => 0x3F
  | .push pair => 0xC5 + 16 * pair.number
  | .pop pair => 0xC1 + 16 * pair.number
  | .xthl => 0xE3 | .sphl => 0xF9
  | .jump none => 0xC3
  | .jump (some c) => 0xC2 + 8 * c.number
  | .call none => 0xCD
  | .call (some c) => 0xC4 + 8 * c.number
  | .ret none => 0xC9
  | .ret (some c) => 0xC0 + 8 * c.number
  | .rst vector => 0xC7 + 8 * vector
  | .pchl => 0xE9
  | .input => 0xDB | .output => 0xD3

/-- A documented opcode is told by its operation. -/
theorem Opcode.code_operation :
    ∀ opcode, isAlias opcode = false → (operation opcode).code = opcode :=
  forall_byte (by decide +kernel)

namespace Assembly

/-! ## From words to operations -/

def reg? : String → Option Reg
  | "B" => some .b | "C" => some .c | "D" => some .d | "E" => some .e
  | "H" => some .h | "L" => some .l | "M" => some .m | "A" => some .a
  | _ => none

def pair? : String → Option Pair
  | "B" => some .bc | "D" => some .de | "H" => some .hl | "SP" => some .sp | _ => none

def stackPair? : String → Option StackPair
  | "B" => some .bc | "D" => some .de | "H" => some .hl | "PSW" => some .psw | _ => none

def pointer? : String → Option Pointer
  | "B" => some .bc | "D" => some .de | _ => none

def registerOp? : String → Option AccumulatorOp
  | "ADD" => some .add | "ADC" => some .adc | "SUB" => some .sub | "SBB" => some .sbb
  | "ANA" => some .and | "XRA" => some .xor | "ORA" => some .or | "CMP" => some .cmp
  | _ => none

def immediateOp? : String → Option AccumulatorOp
  | "ADI" => some .add | "ACI" => some .adc | "SUI" => some .sub | "SBI" => some .sbb
  | "ANI" => some .and | "XRI" => some .xor | "ORI" => some .or | "CPI" => some .cmp
  | _ => none

def condition? : String → Option Condition
  | "NZ" => some .notZero | "Z" => some .zero | "NC" => some .noCarry | "C" => some .carry
  | "PO" => some .parityOdd | "PE" => some .parityEven | "P" => some .plus | "M" => some .minus
  | _ => none

/-- The transfer on a condition that a verb names by its first letter and its suffix. -/
def conditional? (verb : String) : Option Operation :=
  match verb.toList with
  | 'J' :: suffix => (condition? (String.ofList suffix)).map fun c => .jump (some c)
  | 'C' :: suffix => (condition? (String.ofList suffix)).map fun c => .call (some c)
  | 'R' :: suffix => (condition? (String.ofList suffix)).map fun c => .ret (some c)
  | _ => none

def alone? : String → Option Operation
  | "NOP" => some .nop | "HLT" => some .hlt | "EI" => some .ei | "DI" => some .di
  | "STA" => some .sta | "LDA" => some .lda | "SHLD" => some .shld | "LHLD" => some .lhld
  | "XCHG" => some .xchg | "XTHL" => some .xthl | "SPHL" => some .sphl | "PCHL" => some .pchl
  | "RLC" => some .rlc | "RRC" => some .rrc | "RAL" => some .ral | "RAR" => some .rar
  | "DAA" => some .daa | "CMA" => some .cma | "STC" => some .stc | "CMC" => some .cmc
  | "IN" => some .input | "OUT" => some .output
  | "JMP" => some (.jump none) | "CALL" => some (.call none) | "RET" => some (.ret none)
  | verb => ((immediateOp? verb).map .accumulateImmediate).or (conditional? verb)

def named? (name : String) : String → Option Operation
  | "MVI" => (reg? name).map .mvi
  | "INR" => (reg? name).map .inr
  | "DCR" => (reg? name).map .dcr
  | "LXI" => (pair? name).map .lxi
  | "INX" => (pair? name).map .inx
  | "DCX" => (pair? name).map .dcx
  | "DAD" => (pair? name).map .dad
  | "STAX" => (pointer? name).map .stax
  | "LDAX" => (pointer? name).map .ldax
  | "PUSH" => (stackPair? name).map .push
  | "POP" => (stackPair? name).map .pop
  | "RST" => (restartVector name).map fun vector => .rst vector.toUInt8
  | verb => do return .accumulate (← registerOp? verb) (← reg? name)

/-- The operation that verb and register operands name. -/
def operation? : String × List String → Option Operation
  | (verb, []) => alone? verb
  | (verb, [name]) => named? name verb
  | ("MOV", [target, source]) => do return .mov (← reg? target) (← reg? source)
  | _ => none

theorem reg?_name (r : Reg) : reg? r.name = some r := by cases r <;> rfl

theorem pair?_name (p : Pair) : pair? p.name = some p := by cases p <;> rfl

theorem stackPair?_name (p : StackPair) : stackPair? p.name = some p := by cases p <;> rfl

theorem pointer?_name (p : Pointer) : pointer? p.name = some p := by cases p <;> rfl

/-- Verb and operands are read back as the operation that they came from. The number of a restart
has three bits, which every opcode keeps to. -/
theorem operation?_phrase (o : Operation)
    (field : ∀ vector, o = .rst vector → vector &&& 7 = vector) :
    operation? o.phrase = some o := by
  cases o with
  | jump condition | call condition | ret condition =>
    cases condition with
    | none => rfl
    | some c => cases c <;> rfl
  | accumulate op source =>
    cases op <;> simp [Operation.phrase, operation?, named?, registerOp?, reg?_name,
      AccumulatorOp.registerName]
  | accumulateImmediate op => cases op <;> rfl
  | mov target source => simp [Operation.phrase, operation?, reg?_name]
  | mvi target | inr target | dcr target =>
    simp [Operation.phrase, operation?, named?, reg?_name]
  | lxi pair | inx pair | dcx pair | dad pair =>
    simp [Operation.phrase, operation?, named?, pair?_name]
  | stax pointer | ldax pointer => simp [Operation.phrase, operation?, named?, pointer?_name]
  | push pair | pop pair => simp [Operation.phrase, operation?, named?, stackPair?_name]
  | rst vector =>
    have small : vector.toNat < 8 := toNat_lt_of_field (field vector rfl)
    change (restartVector (toString vector.toNat)).map _ = some (Operation.rst vector)
    rw [restartVector_number small]
    simp
  | _ => rfl

/-! ## From mnemonics to opcodes -/

/-- Neither mark of the notation occurs in a documented mnemonic. -/
theorem not_mem_mnemonic {c : Char} (mark : c = '$' ∨ c = '*') (o : Operation) :
    c ∉ o.mnemonic.toList := by
  have inReg (r : Reg) : c ∉ r.name.toList := by
    obtain rfl | rfl := mark <;> cases r <;> decide
  have inPair (p : Pair) : c ∉ p.name.toList := by
    obtain rfl | rfl := mark <;> cases p <;> decide
  have inStackPair (p : StackPair) : c ∉ p.name.toList := by
    obtain rfl | rfl := mark <;> cases p <;> decide
  have inPointer (p : Pointer) : c ∉ p.name.toList := by
    obtain rfl | rfl := mark <;> cases p <;> decide
  have inNumber (n : Nat) : c ∉ (toString n).toList := by
    obtain rfl | rfl := mark <;> exact not_mem_toString rfl n
  obtain rfl | rfl := mark <;>
  cases o with
  | mov target source => simp [Operation.mnemonic, inReg]
  | mvi target | inr target | dcr target => simp [Operation.mnemonic, inReg]
  | lxi pair | inx pair | dcx pair | dad pair => simp [Operation.mnemonic, inPair]
  | push pair | pop pair => simp [Operation.mnemonic, inStackPair]
  | stax pointer | ldax pointer => simp [Operation.mnemonic, inPointer]
  | rst vector => simpa [Operation.mnemonic] using inNumber vector.toNat
  | accumulate op source =>
    cases op <;> simp [Operation.mnemonic, AccumulatorOp.registerName, inReg]
  | accumulateImmediate op => cases op <;> decide
  | jump condition | call condition | ret condition =>
    cases condition with
    | none => decide
    | some c => cases c <;> decide
  | _ => decide

theorem mnemonic_of_alias {opcode : UInt8} (aliased : Opcode.isAlias opcode = true) :
    Opcode.mnemonic opcode = "*" ++ (Opcode.operation opcode).mnemonic := by
  rw [Opcode.mnemonic_eq, aliased]
  rfl

theorem mnemonic_of_documented {opcode : UInt8} (documented : Opcode.isAlias opcode = false) :
    Opcode.mnemonic opcode = (Opcode.operation opcode).mnemonic := by
  rw [Opcode.mnemonic_eq, documented]
  exact String.empty_append

theorem dollar_not_mem_mnemonic (opcode : UInt8) : '$' ∉ (Opcode.mnemonic opcode).toList := by
  have plain := not_mem_mnemonic (.inl rfl) (Opcode.operation opcode)
  cases aliased : Opcode.isAlias opcode with
  | true => simp [mnemonic_of_alias aliased, plain]
  | false => rwa [mnemonic_of_documented aliased]

/-- The star marks the aliases and nothing else. -/
theorem star_mem_mnemonic_iff (opcode : UInt8) :
    '*' ∈ (Opcode.mnemonic opcode).toList ↔ Opcode.isAlias opcode = true := by
  have plain := not_mem_mnemonic (.inr rfl) (Opcode.operation opcode)
  cases aliased : Opcode.isAlias opcode with
  | true => simp [mnemonic_of_alias aliased]
  | false => simp [mnemonic_of_documented aliased, plain]

/-- A mnemonic says what the opcode does and whether it is an alias. -/
theorem operation_eq_of_mnemonic {one other : UInt8}
    (same : Opcode.mnemonic one = Opcode.mnemonic other) :
    Opcode.isAlias one = Opcode.isAlias other ∧
      Opcode.operation one = Opcode.operation other := by
  have aliased : Opcode.isAlias one = Opcode.isAlias other := by
    rw [Bool.eq_iff_iff, ← star_mem_mnemonic_iff, ← star_mem_mnemonic_iff, same]
  -- The stars are the same, so the names behind them are, and these can be read back.
  have name : (Opcode.operation one).mnemonic = (Opcode.operation other).mnemonic := by
    rw [Opcode.mnemonic_eq, Opcode.mnemonic_eq, aliased] at same
    exact String.append_right_inj _ |>.1 same
  have read := congrArg (operation? ∘ words) name
  simp only [Function.comp_apply, words_mnemonic,
    operation?_phrase _ fun _ rst => operation_rst rst] at read
  exact ⟨aliased, Option.some.inj read⟩

/-- Two aliases with one mnemonic, of the no-operation or of the call. -/
def Twins (one other : UInt8) : Prop :=
  Opcode.isAlias one = true ∧ Opcode.isAlias other = true ∧
    (Opcode.mnemonic one = "*NOP" ∧ Opcode.mnemonic other = "*NOP" ∨
      Opcode.mnemonic one = "*CALL" ∧ Opcode.mnemonic other = "*CALL")

/-- Twins do the same. -/
theorem Twins.operation {one other : UInt8} (twins : Twins one other) :
    Opcode.operation one = Opcode.operation other ∧
      (Opcode.operation one = .nop ∨ Opcode.operation one = .call none) := by
  obtain ⟨-, -, ⟨named, otherNamed⟩ | ⟨named, otherNamed⟩⟩ := twins
  · have noOperation : "*NOP" = Opcode.mnemonic 0x08 := by decide
    exact ⟨(operation_eq_of_mnemonic (named.trans otherNamed.symm)).2,
      .inl (operation_eq_of_mnemonic (named.trans noOperation)).2⟩
  · have call : "*CALL" = Opcode.mnemonic 0xDD := by decide
    exact ⟨(operation_eq_of_mnemonic (named.trans otherNamed.symm)).2,
      .inr (operation_eq_of_mnemonic (named.trans call)).2⟩

/-- Only the no-operation and the call have more than one alias. -/
theorem eq_of_aliases : ∀ one ∈ Opcode.aliases, ∀ other ∈ Opcode.aliases,
    Opcode.operation one = Opcode.operation other →
      one = other ∨ Opcode.operation one = .nop ∨ Opcode.operation one = .call none := by
  decide +kernel

/-- Opcodes with one mnemonic are the same or twins. -/
theorem mnemonic_eq_iff (one other : UInt8) :
    Opcode.mnemonic one = Opcode.mnemonic other ↔ one = other ∨ Twins one other := by
  constructor
  · intro same
    obtain ⟨aliased, operation⟩ := operation_eq_of_mnemonic same
    cases oneAlias : Opcode.isAlias one with
    | true =>
      rw [oneAlias] at aliased
      obtain equal | noOperation | call :=
        eq_of_aliases one (List.contains_iff_mem.1 oneAlias) other
          (List.contains_iff_mem.1 aliased.symm) operation
      · exact .inl equal
      · have name : Opcode.mnemonic one = "*NOP" := by
          rw [mnemonic_of_alias oneAlias, noOperation]
          decide
        exact .inr ⟨oneAlias, aliased.symm, .inl ⟨name, same ▸ name⟩⟩
      · have name : Opcode.mnemonic one = "*CALL" := by
          rw [mnemonic_of_alias oneAlias, call]
          decide
        exact .inr ⟨oneAlias, aliased.symm, .inr ⟨name, same ▸ name⟩⟩
    | false =>
      rw [oneAlias] at aliased
      left
      rw [← Opcode.code_operation one oneAlias, operation,
        Opcode.code_operation other aliased.symm]
  · rintro (equal | ⟨-, -, ⟨noOperation, same⟩ | ⟨call, same⟩⟩)
    · rw [equal]
    · rw [noOperation, same]
    · rw [call, same]

/-! ## From texts to mnemonics and operands -/

/-- The operand that digits stand for: a byte if there are two and a word if there are four. -/
def operandOf? (digits : List Char) : Option Operand :=
  match digits.length, numeralValue? 16 digits with
  | 2, some n => some (.byte (UInt8.ofNat n))
  | 4, some n => some (.word (UInt16.ofNat n))
  | _, _ => none

/-- Mnemonic and operand of a text. In front of the dollar sign the mnemonic ends with a
separator. -/
def parts? (text : String) : Option (String × Operand) :=
  let front := text.toList.takeWhile (· != '$')
  match text.toList.drop front.length with
  | [] => some (String.ofList front, .none)
  | _ :: digits => (operandOf? digits).map (String.ofList front.dropLast, ·)

theorem operandOf?_byteHex (b : UInt8) : operandOf? (byteHex b).toList = some (.byte b) := by
  have two : (byteHex b).toList.length = 2 := by simp [toList_byteHex, halves]
  simp [operandOf?, two, numeralValue?_byteHex]

theorem operandOf?_wordHex (w : UInt16) : operandOf? (wordHex w).toList = some (.word w) := by
  have four : (wordHex w).toList.length = 4 := by simp [toList_wordHex, halves]
  simp [operandOf?, four, numeralValue?_wordHex]

theorem parts?_alone {mnemonic : String} (plain : '$' ∉ mnemonic.toList) :
    parts? mnemonic = some (mnemonic, .none) := by
  simp [parts?, takeWhile_alone plain]

/-- The dollar sign tells where the operand begins. -/
theorem parts?_operand {mnemonic separator digits : String} {c : Char}
    (plain : '$' ∉ mnemonic.toList) (separated : separator.toList = [c]) (other : '$' ≠ c) :
    parts? (mnemonic ++ separator ++ "$" ++ digits) =
      (operandOf? digits.toList).map (mnemonic, ·) := by
  have text : (mnemonic ++ separator ++ "$" ++ digits).toList =
      (mnemonic.toList ++ [c]) ++ '$' :: digits.toList := by
    simp [separated]
  have plain : '$' ∉ mnemonic.toList ++ [c] := by
    simp [plain, other]
  rw [parts?, text, takeWhile_mark plain, List.drop_left]
  simp

/-- A text reads back as the mnemonic and the operand that it was written from. -/
theorem parts?_text (i : Instruction) : parts? i.text = some (i.mnemonic, i.operand) := by
  have plain : '$' ∉ i.mnemonic.toList := dollar_not_mem_mnemonic i.opcode
  obtain ⟨c, separated, other⟩ :
      ∃ c, (Instruction.separator i.mnemonic).toList = [c] ∧ '$' ≠ c := by
    unfold Instruction.separator
    split
    · exact ⟨',', rfl, by decide⟩
    · exact ⟨' ', rfl, by decide⟩
  cases operand : i.operand with
  | none =>
    simp only [Instruction.text, operand]
    exact parts?_alone plain
  | byte b =>
    simp only [Instruction.text, operand]
    rw [parts?_operand plain separated other, operandOf?_byteHex, Option.map_some]
  | word w =>
    simp only [Instruction.text, operand]
    rw [parts?_operand plain separated other, operandOf?_wordHex, Option.map_some]

/-- Two texts are the same exactly if the operands are and the opcodes are the same or twins. -/
theorem text_eq_iff (i j : Instruction) :
    i.text = j.text ↔ i.operand = j.operand ∧ (i.opcode = j.opcode ∨ Twins i.opcode j.opcode) := by
  rw [← mnemonic_eq_iff, and_comm]
  constructor
  · intro same
    have read := parts?_text i
    rw [same, parts?_text j] at read
    exact Prod.mk.inj (Option.some.inj read).symm
  · rintro ⟨mnemonic, operand⟩
    have mnemonic : i.mnemonic = j.mnemonic := mnemonic
    simp only [Instruction.text, mnemonic, operand]

end Assembly

end Intel8080
