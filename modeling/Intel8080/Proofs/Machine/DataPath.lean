import Intel8080.Proofs.Assembly.Meaning
import Intel8080.Proofs.Machine.OperandAgreement

/-!
# The mnemonic tells the truth

A step of an instruction of the data path changes registers, flags, memory and the interrupt
flip-flop exactly as the text of its mnemonic says (`step_dataPath`). The proof goes through the
operations one by one: the register that an opcode's bits select is the one whose letter stands in
the mnemonic (`byte?_dataPath` and its neighbours), and the verb names what is done with it.
-/
namespace Intel8080.Machine
open Assembly

variable {η : Type}

/-- What data instructions see of a machine. -/
def dataPath (m : Machine η) : DataPath where
  a := m.regs.a
  b := m.regs.b
  c := m.regs.c
  d := m.regs.d
  e := m.regs.e
  h := m.regs.h
  l := m.regs.l
  sp := m.regs.sp
  flags := m.regs.flags
  mem := m.mem.read
  interruptsEnabled := m.interruptsEnabled

@[simp] theorem dataPath_book (m : Machine η) (i : Instruction) :
    (m.book i).dataPath = m.dataPath := rfl

section Names

variable (m : Machine η)

/-- Writing a byte updates memory as a function. -/
theorem read_write_eq (mem : Memory) (address : UInt16) (value : UInt8) :
    (mem.write address value).read = fun x => if x = address then value else mem.read x := by
  funext x
  rw [Memory.read_write]
  by_cases same : x = address
  · rw [if_pos same, if_pos same.symm]
  · rw [if_neg same, if_neg (Ne.symm same)]

theorem dataPath_writeByte (address : UInt16) (value : UInt8) :
    (m.writeByte address value).dataPath = m.dataPath.store address value := by
  simp only [dataPath, writeByte, DataPath.store, read_write_eq]

theorem dataPath_writeWord (address w : UInt16) :
    (m.writeWord address w).dataPath = m.dataPath.storeWord address w := by
  have twice : m.writeWord address w =
      (m.writeByte address (lowByte w)).writeByte (address + 1) (highByte w) := rfl
  rw [twice, dataPath_writeByte, dataPath_writeByte]
  rfl

theorem byte?_dataPath (r : Reg) : m.dataPath.byte? r.name = some (m.reg r) := by
  cases r <;> rfl

theorem setByte?_dataPath (r : Reg) (value : UInt8) :
    m.dataPath.setByte? value r.name = some (m.setReg r value).dataPath := by
  cases r with
  | m => exact congrArg some (dataPath_writeByte m m.regs.hl value).symm
  | _ => rfl

theorem pair?_dataPath (p : Pair) : m.dataPath.pair? p.name = some (m.regs.pair p) := by
  cases p <;> rfl

theorem setPair?_dataPath (p : Pair) (w : UInt16) :
    m.dataPath.setPair? w p.name =
      some (dataPath { m with regs := m.regs.setPair p w }) := by
  cases p <;> rfl

/-- Names on the stack mean what the code has for them, the flags in the layout of the reference. -/
theorem stackPair?_dataPath (p : StackPair) :
    m.dataPath.stackPair? p.name = some (m.regs.stackPair p) := by
  cases p with
  | psw =>
    change some (wordOf m.regs.a (flagByte m.regs.flags)) = _
    rw [← toByte_eq_flagByte]
    rfl
  | _ => rfl

/-- And so they do where a word is taken off the stack. -/
theorem setStackPair?_dataPath (p : StackPair) (w : UInt16) :
    m.dataPath.setStackPair? w p.name =
      some (dataPath { m with regs := m.regs.setStackPair p w }) := by
  cases p with
  | psw =>
    change some { m.dataPath with a := highByte w, flags := flagsOfByte (lowByte w) } = _
    rw [← ofByte_eq_flagsOfByte]
    rfl
  | _ => rfl

theorem pointer?_dataPath (p : Pointer) :
    m.dataPath.pointer? p.name = some (m.regs.pointer p) := by
  cases p <;> rfl

theorem adjustByte?_dataPath (r : Reg) (f : Flags → UInt8 → UInt8 × Flags) :
    m.dataPath.adjustByte? r.name f = some (m.adjustReg r f).dataPath := by
  rw [DataPath.adjustByte?, byte?_dataPath]
  exact setByte?_dataPath (m.setFlags (f m.regs.flags (m.reg r)).2) r _

theorem dataPath_pushWord (w : UInt16) : (m.pushWord w).dataPath = m.dataPath.push w := by
  simp only [pushWord_eq, dataPath, DataPath.push, DataPath.store, read_write_eq, setSp]
  rfl

end Names

/-- The operations of the data path: all but the halt and the transfers of control. -/
def isDataOperation : Operation → Bool
  | .hlt | .jump _ | .call _ | .ret _ | .rst _ | .pchl => false
  | _ => true

theorem nameMeaning_accumulator (s : DataPath) (name : String) (op : AccumulatorOp) :
    nameMeaning s name op.registerName =
      (s.byte? name).bind fun value => some (s.adjust fun f acc => op.apply f acc value) := by
  cases op <;> rfl

theorem byteMeaning_accumulator (s : DataPath) (value : UInt8) (op : AccumulatorOp) :
    byteMeaning s value op.immediateName = some (s.adjust fun f acc => op.apply f acc value) := by
  cases op <;> rfl

/-- The phrase of an operation means what executing the operation does. -/
theorem execute_eq_phraseMeaning [TrapHandler η] (m : Machine η) (o : Operation)
    (data : isDataOperation o = true) :
    phraseMeaning m.dataPath o.phrase (o.operandAt m.mem m.regs.pc) =
      some (m.advancePc.execute o).dataPath := by
  -- The verb of each case is a literal and `change` goes to its branch of the meaning. What is left
  -- there is that the name of a register and the register itself agree.
  cases o with
  | hlt | jump | call | ret | rst | pchl => cases data
  | mov target source =>
    change (m.dataPath.byte? source.name).bind (m.dataPath.setByte? · target.name) = _
    rw [byte?_dataPath]
    change m.advancePc.dataPath.setByte? (m.reg source) target.name = _
    rw [setByte?_dataPath]
    rfl
  | mvi target =>
    change (m.setPc (m.regs.pc + 2)).dataPath.setByte? (m.mem.read (m.regs.pc + 1)) target.name = _
    rw [setByte?_dataPath]
    simp only [execute, fetchByte_advancePc]
  | lxi pair =>
    change (m.setPc (m.regs.pc + 3)).dataPath.setPair? _ pair.name = _
    rw [setPair?_dataPath]
    simp only [execute, fetchWord_advancePc]
  | stax pointer =>
    change (m.dataPath.pointer? pointer.name).bind (fun p => some (m.dataPath.store p m.regs.a)) = _
    rw [pointer?_dataPath]
    exact congrArg some (dataPath_writeByte m.advancePc _ _).symm
  | ldax pointer =>
    change (m.dataPath.pointer? pointer.name).bind
      (fun p => some { m.dataPath with a := m.mem.read p }) = _
    rw [pointer?_dataPath]
    rfl
  | sta =>
    simp only [execute, fetchWord_advancePc, dataPath_writeByte]
    rfl
  | lda =>
    simp only [execute, fetchWord_advancePc]
    rfl
  | shld =>
    simp only [execute, fetchWord_advancePc, dataPath_writeWord]
    rfl
  | lhld =>
    simp only [execute, fetchWord_advancePc]
    rfl
  | accumulate op source =>
    change nameMeaning m.dataPath source.name op.registerName = _
    rw [nameMeaning_accumulator, byte?_dataPath]
    rfl
  | accumulateImmediate op =>
    change byteMeaning m.dataPath (m.mem.read (m.regs.pc + 1)) op.immediateName = _
    rw [byteMeaning_accumulator]
    simp only [execute, fetchByte_advancePc]
    rfl
  | inr target =>
    change m.advancePc.dataPath.adjustByte? target.name Arithmetic.inr = _
    rw [adjustByte?_dataPath]
    rfl
  | dcr target =>
    change m.advancePc.dataPath.adjustByte? target.name Arithmetic.dcr = _
    rw [adjustByte?_dataPath]
    rfl
  | inx pair =>
    change (m.dataPath.pair? pair.name).bind (fun w => m.dataPath.setPair? (w + 1) pair.name) = _
    rw [pair?_dataPath]
    exact setPair?_dataPath m.advancePc pair _
  | dcx pair =>
    change (m.dataPath.pair? pair.name).bind (fun w => m.dataPath.setPair? (w - 1) pair.name) = _
    rw [pair?_dataPath]
    exact setPair?_dataPath m.advancePc pair _
  | dad pair =>
    change (m.dataPath.pair? pair.name).bind (fun w => some (m.dataPath.addPair w)) = _
    rw [pair?_dataPath]
    rfl
  | push pair =>
    change (m.dataPath.stackPair? pair.name).bind (fun w => some (m.dataPath.push w)) = _
    rw [stackPair?_dataPath]
    exact congrArg some (dataPath_pushWord m.advancePc _).symm
  | pop pair =>
    change (m.advancePc.setSp (m.regs.sp + 2)).dataPath.setStackPair? _ pair.name = _
    rw [setStackPair?_dataPath, execute, popWord_eq]
    rfl
  | xthl =>
    change some ((m.dataPath.storeWord m.regs.sp m.regs.hl).setHl (m.mem.readWord m.regs.sp)) = _
    rw [← dataPath_writeWord]
    rfl
  | _ => rfl

theorem setReg_flags (m : Machine η) (r : Reg) (value : UInt8) :
    (m.setReg r value).regs.flags = m.regs.flags := by
  cases r <;> rfl

theorem setPair_flags (regs : Registers) (p : Pair) (w : UInt16) :
    (regs.setPair p w).flags = regs.flags := by
  cases p <;> rfl

theorem adjustReg_flags (m : Machine η) (r : Reg) (f : Flags → UInt8 → UInt8 × Flags) :
    (m.adjustReg r f).regs.flags = (f m.regs.flags (m.reg r)).2 :=
  setReg_flags _ r _

/-- No operation changes a flag that its verb does not name, by cases on the operation. -/
theorem execute_flagsKept [TrapHandler η] (m : Machine η) (o : Operation)
    (data : isDataOperation o = true) :
    FlagsKept o.phrase m.regs.flags (m.advancePc.execute o).regs.flags := by
  cases o with
  | hlt | jump | call | ret | rst | pchl => cases data
  | mov target source => exact setReg_flags m.advancePc target _
  | mvi target =>
    simp only [execute, fetchByte_advancePc]
    exact setReg_flags (m.setPc (m.regs.pc + 2)) target _
  | lxi pair =>
    simp only [execute, fetchWord_advancePc]
    exact setPair_flags _ pair _
  | accumulate op source => cases op <;> trivial
  | accumulateImmediate op => cases op <;> trivial
  | inr target =>
    change (m.advancePc.adjustReg target Arithmetic.inr).regs.flags.carry = m.regs.flags.carry
    rw [adjustReg_flags]
    rfl
  | dcr target =>
    change (m.advancePc.adjustReg target Arithmetic.dcr).regs.flags.carry = m.regs.flags.carry
    rw [adjustReg_flags]
    rfl
  | inx pair | dcx pair => exact setPair_flags _ pair _
  | pop pair =>
    cases pair with
    | psw => trivial
    | _ => rfl
  | daa => trivial
  | _ => rfl

theorem isDataOperation_of_verb (o : Operation) (family : o.phrase.1 ∈ dataVerbs) :
    isDataOperation o = true := by
  cases o with
  | hlt | pchl => exact absurd family (by decide)
  | rst vector =>
    change "RST" ∈ dataVerbs at family
    exact absurd family (by decide)
  | jump condition | call condition | ret condition =>
    cases condition with
    | none => exact absurd family (by decide)
    | some c => cases c <;> exact absurd family (by decide)
  | _ => rfl

/-- The mnemonic of an instruction of the data path is the phrase of its operation, save for the
second no-operation. -/
theorem words_data (i : Instruction) (family : (words i.mnemonic).1 ∈ dataVerbs) :
    words i.mnemonic = (Opcode.operation i.opcode).phrase ∨
      Opcode.operation i.opcode = .nop ∧ words i.mnemonic = ("*NOP", []) := by
  refine (words_opcode i.opcode).imp_right fun ⟨verb, second, text⟩ => ?_
  have only : ∀ x ∈ starred, x.2 ∈ dataVerbs → x = (.nop, "*NOP") := by decide
  have known : verb ∈ dataVerbs := by
    rw [Instruction.mnemonic, text] at family
    exact family
  obtain ⟨nop, rfl⟩ := Prod.mk.inj (only _ second known)
  exact ⟨nop, text⟩

/-- A mnemonic of the data path may be exchanged for the phrase of its operation. -/
theorem operation_of_words (i : Instruction) (family : (words i.mnemonic).1 ∈ dataVerbs) :
    isDataOperation (Opcode.operation i.opcode) = true ∧
      (∀ s operand, phraseMeaning s (words i.mnemonic) operand =
        phraseMeaning s (Opcode.operation i.opcode).phrase operand) ∧
      ∀ before after, FlagsKept (words i.mnemonic) before after =
        FlagsKept (Opcode.operation i.opcode).phrase before after := by
  obtain plain | ⟨nop, text⟩ := words_data i family
  · rw [plain] at family ⊢
    exact ⟨isDataOperation_of_verb _ family, fun _ _ => rfl, fun _ _ => rfl⟩
  · rw [nop, text]
    refine ⟨rfl, fun s operand => ?_, fun _ _ => rfl⟩
    cases operand <;> rfl

theorem straight_of_data (m : Machine η) (o : Operation) (data : isDataOperation o = true) :
    m.leavesSequence o = false := by
  cases o with
  | jump | call | ret | rst | pchl => cases data
  | _ => rfl

/-- A step of a running machine does to registers, flags, memory and the interrupt flip-flop what
the mnemonic and the decoded operand say, and nothing else. -/
theorem step_dataPath [TrapHandler η] (m : Machine η) (running : m.state = .running)
    (family : (words m.nextInstruction.mnemonic).1 ∈ dataVerbs) :
    let phrase := words m.nextInstruction.mnemonic
    ∃ after, m.step = .ok (m.nextInstruction, after) ∧
      meaning m.nextInstruction.mnemonic m.nextInstruction.operand m.dataPath =
        some after.dataPath ∧
      FlagsKept phrase m.regs.flags after.regs.flags ∧
      (phrase.1 = "CMP" ∨ phrase.1 = "CPI" →
        after.dataPath = { m.dataPath with flags := after.regs.flags }) ∧
      after.regs.pc = m.regs.pc + UInt16.ofNat m.nextInstruction.size := by
  obtain ⟨data, sameMeaning, sameFlags⟩ := operation_of_words m.nextInstruction family
  have means : meaning m.nextInstruction.mnemonic m.nextInstruction.operand m.dataPath =
      some ((m.advancePc.execute m.nextOperation).book m.nextInstruction).dataPath := by
    rw [meaning, sameMeaning, dataPath_book, nextInstruction_operand]
    exact execute_eq_phraseMeaning m m.nextOperation data
  refine ⟨_, step_of_running m running, means, ?_, fun compare => compare_meaning compare means, ?_⟩
  · rw [sameFlags, book_regs]
    exact execute_flagsKept m m.nextOperation data
  · rw [book_regs]
    exact execute_nextOperation_pc m (straight_of_data m _ data)

/-- `XTHL` with the word on the stack lying around the top of memory. -/
def exchangeAroundTop : Machine Service :=
  { new with
    regs := { Registers.zero with pc := 0x0100, sp := 0xFFFF, h := 0x12, l := 0x34 }
    mem := Memory.zero.write 0x0100 0xE3 }

theorem nextInstruction_exchangeAroundTop :
    exchangeAroundTop.nextInstruction = ⟨0x0100, 0xE3, .none⟩ := by
  have opcode : exchangeAroundTop.mem.read 0x0100 = 0xE3 := by
    simp [exchangeAroundTop]
  change Instruction.decode exchangeAroundTop.mem 0x0100 = _
  rw [Instruction.decode_eq, opcode]
  rfl

/-- The low byte goes to FFFF and the high byte to 0000. -/
theorem step_exchangeAroundTop :
    exchangeAroundTop.state = .running ∧
      ∃ after, exchangeAroundTop.step = .ok (⟨0x0100, 0xE3, .none⟩, after) ∧
        after.mem.read 0xFFFF = 0x34 ∧ after.mem.read 0x0000 = 0x12 ∧ after.regs.hl = 0 ∧
        after.regs.flags = exchangeAroundTop.regs.flags := by
  have family : (words exchangeAroundTop.nextInstruction.mnemonic).1 ∈ dataVerbs := by
    rw [nextInstruction_exchangeAroundTop]
    decide
  have effect := step_dataPath exchangeAroundTop rfl family
  rw [nextInstruction_exchangeAroundTop] at effect
  obtain ⟨after, step, means, -⟩ := effect
  have path : aloneMeaning exchangeAroundTop.dataPath "XTHL" = some after.dataPath := means
  have path := Option.some.inj path
  have mem : _ = after.mem.read := congrArg DataPath.mem path
  have hl := congrArg DataPath.hl path
  have low : exchangeAroundTop.mem.read 0xFFFF = 0 := by
    simp [exchangeAroundTop, Memory.read_write]
  have high : exchangeAroundTop.mem.read 0x0000 = 0 := by
    simp [exchangeAroundTop, Memory.read_write]
  have word : exchangeAroundTop.dataPath.word 0xFFFF = 0 := by
    change wordOf (exchangeAroundTop.mem.read 0x0000) (exchangeAroundTop.mem.read 0xFFFF) = 0
    rw [low, high]
    rfl
  refine ⟨rfl, after, step, ?_, ?_, ?_, ?_⟩
  · rw [← mem]
    rfl
  · rw [← mem]
    rfl
  · exact hl.symm.trans ((wordOf_bytes _).trans word)
  · exact (congrArg DataPath.flags path).symm

end Intel8080.Machine
