import Intel8080.Proofs.Machine.Step
import Intel8080.Service

/-!
# Decoded operands and executed operands

Decoding takes the operand bytes of an instruction from the size of its operation; executing takes
them one by one, as the operation asks for them. Two theorems say that the two never part: an
operation works with the operand that was decoded, also when it then overwrites its own bytes
(`usesOperand_execute`), and unless it transfers control it leaves the program counter right after
the decoded bytes (`execute_pc`).
-/
namespace Intel8080.Machine

variable {η : Type}

/-- How the operand shows in what an instruction did, for every operation that has one. An operand
of the wrong size shows nowhere. The port of an input or output is read by nobody. -/
def UsesOperand [TrapHandler η] (before after : Machine η) : Operation → Operand → Prop
  | .mvi target, .byte value => after.reg target = value
  | .accumulateImmediate op, .byte value =>
    (after.regs.a, after.regs.flags) = op.apply before.regs.flags before.regs.a value
  | .input, .byte _ | .output, .byte _ => True
  | .lxi pair, .word value => after.regs.pair pair = value
  | .sta, .word address => after.mem = before.mem.write address before.regs.a
  | .lda, .word address => after.regs.a = before.mem.read address
  | .shld, .word address => after.mem = before.mem.writeWord address before.regs.hl
  | .lhld, .word address => after.regs.hl = before.mem.readWord address
  | .jump condition, .word target | .call condition, .word target =>
    before.taken condition = true →
      match before.traps.get? target with
      | none => after.regs.pc = target
      | some handler =>
        after = ((before.setPc (before.regs.pc + 3)).runHandler handler).book before.nextInstruction
  | .mvi _, _ | .accumulateImmediate _, _ | .input, _ | .output, _ | .lxi _, _ | .sta, _ | .lda, _
  | .shld, _ | .lhld, _ | .jump _, _ | .call _, _ => False
  | _, operand => operand = .none

/-- The next instruction goes elsewhere than to the one behind it, or to a handler. -/
def leavesSequence (m : Machine η) : Operation → Bool
  | .jump condition | .call condition | .ret condition => m.taken condition
  | .rst _ | .pchl => true
  | _ => false

theorem reg_setReg (m : Machine η) (r : Reg) (value : UInt8) : (m.setReg r value).reg r = value := by
  cases r <;> simp [reg, setReg, writeByte]

theorem pair_setPair (regs : Registers) (p : Pair) (w : UInt16) : (regs.setPair p w).pair p = w := by
  cases p <;> simp [Registers.pair, Registers.setPair, Registers.setBc, Registers.setDe,
    Registers.setHl, Registers.bc, Registers.de, Registers.hl]

theorem taken_advancePc (m : Machine η) (condition : Option Condition) :
    m.advancePc.taken condition = m.taken condition := by
  cases condition <;> rfl

section Execution

variable [TrapHandler η]

theorem jump_advancePc (m : Machine η) (taken : Bool) :
    m.advancePc.jump taken =
      if taken then
        match m.traps.get? (m.mem.readWord (m.regs.pc + 1)) with
        | none => m.setPc (m.mem.readWord (m.regs.pc + 1))
        | some handler => (m.setPc (m.regs.pc + 3)).runHandler handler
      else m.setPc (m.regs.pc + 3) := by
  have traps : (m.setPc (m.regs.pc + 3)).traps = m.traps := rfl
  simp only [jump, fetchWord_advancePc, trap?, traps]
  cases m.traps.get? (m.mem.readWord (m.regs.pc + 1)) <;> rfl

theorem call_advancePc (m : Machine η) (taken : Bool) :
    m.advancePc.call taken =
      if taken then
        match m.traps.get? (m.mem.readWord (m.regs.pc + 1)) with
        | none => (m.pushWord (m.regs.pc + 3)).setPc (m.mem.readWord (m.regs.pc + 1))
        | some handler => (m.setPc (m.regs.pc + 3)).runHandler handler
      else m.setPc (m.regs.pc + 3) := by
  have traps : (m.setPc (m.regs.pc + 3)).traps = m.traps := rfl
  simp only [call, fetchWord_advancePc, trap?, traps]
  cases m.traps.get? (m.mem.readWord (m.regs.pc + 1)) <;> rfl

/-- The step lemma of the operands, by cases on the operation. -/
theorem usesOperand_execute (m : Machine η) :
    UsesOperand m ((m.advancePc.execute m.nextOperation).book m.nextInstruction) m.nextOperation
      m.nextInstruction.operand := by
  rw [nextInstruction_operand]
  cases m.nextOperation with
  | mvi target =>
    simp only [execute, fetchByte_advancePc]
    exact reg_setReg (m.setPc (m.regs.pc + 2)) target _
  | accumulateImmediate op =>
    simp only [execute, fetchByte_advancePc]
    rfl
  | lxi pair =>
    simp only [execute, fetchWord_advancePc]
    exact pair_setPair _ pair _
  | sta =>
    simp only [execute, fetchWord_advancePc]
    rfl
  | lda =>
    simp only [execute, fetchWord_advancePc]
    rfl
  | shld =>
    simp only [execute, fetchWord_advancePc]
    rfl
  | lhld =>
    simp only [execute, fetchWord_advancePc]
    exact wordOf_bytes _
  | jump condition =>
    simp only [execute, taken_advancePc, jump_advancePc]
    intro taken
    rw [if_pos taken]
    cases m.traps.get? (m.mem.readWord (m.regs.pc + 1)) <;> rfl
  | call condition =>
    simp only [execute, taken_advancePc, call_advancePc]
    intro taken
    rw [if_pos taken]
    cases m.traps.get? (m.mem.readWord (m.regs.pc + 1)) <;> rfl
  | input => trivial
  | output => trivial
  | _ => rfl

/-- An operation that does not leave the sequence moves past exactly its own bytes. -/
theorem execute_pc (m : Machine η) (o : Operation) (straight : m.leavesSequence o = false) :
    (m.advancePc.execute o).regs.pc = m.regs.pc + UInt16.ofNat o.size := by
  cases o with
  | mvi target =>
    simp only [execute, fetchByte_advancePc]
    exact setReg_pc (m.setPc (m.regs.pc + 2)) target _
  | lxi pair =>
    simp only [execute, fetchWord_advancePc]
    exact setPair_pc _ pair _
  | accumulateImmediate op =>
    simp only [execute, fetchByte_advancePc]
    rfl
  | sta | lda | shld | lhld =>
    simp only [execute, fetchWord_advancePc]
    rfl
  | input | output =>
    rw [execute, skipPort]
    exact add_one_add_one m.regs.pc
  | mov target source =>
    rw [execute, setReg_pc]
    rfl
  | inr target | dcr target =>
    rw [execute, adjustReg_pc]
    rfl
  | inx pair | dcx pair =>
    rw [execute, adjustPair_pc]
    rfl
  | pop pair =>
    simp only [execute, popWord_eq, setStackPair_pc]
    rfl
  | jump condition =>
    have untaken : m.taken condition = false := straight
    simp only [execute, taken_advancePc, jump_advancePc, untaken]
    rfl
  | call condition =>
    have untaken : m.taken condition = false := straight
    simp only [execute, taken_advancePc, call_advancePc, untaken]
    rfl
  | ret condition =>
    have untaken : m.taken condition = false := straight
    simp only [execute, taken_advancePc, ret, untaken]
    rfl
  | rst vector => cases straight
  | pchl => cases straight
  | _ => rfl

theorem execute_nextOperation_pc (m : Machine η)
    (straight : m.leavesSequence m.nextOperation = false) :
    (m.advancePc.execute m.nextOperation).regs.pc =
      m.regs.pc + UInt16.ofNat m.nextInstruction.size := by
  rw [nextInstruction_size, execute_pc m m.nextOperation straight]

/-- A step of a running machine gives back the instruction decoded before it, works with exactly
the operand decoded there, and leaves the program counter behind the instruction unless control is
transferred or a handler runs. -/
theorem step_agrees_with_decode (m : Machine η) (running : m.state = .running) :
    let i := Instruction.decode m.mem m.regs.pc
    ∃ after, m.step = .ok (i, after) ∧
      UsesOperand m after (Opcode.operation i.opcode) i.operand ∧
      (m.leavesSequence (Opcode.operation i.opcode) = false →
        after.regs.pc = m.regs.pc + UInt16.ofNat i.size) :=
  ⟨_, step_of_running m running, usesOperand_execute m, execute_nextOperation_pc m⟩

end Execution

/-- `STA FFFF` from FFFF on, so that it runs over the top of memory and stores over its own
opcode. -/
def storeOverItself : Machine Service :=
  { new with
    regs := { Registers.zero with pc := 0xFFFF, a := 0x21 }
    mem := ((Memory.zero.write 0xFFFF 0x32).write 0x0000 0xFF).write 0x0001 0xFF }

theorem decode_storeOverItself :
    Instruction.decode storeOverItself.mem storeOverItself.regs.pc =
      ⟨0xFFFF, 0x32, .word 0xFFFF⟩ := by
  have opcode : storeOverItself.mem.read 0xFFFF = 0x32 := by
    simp [storeOverItself, Memory.read_write]
  have low : storeOverItself.mem.read 0x0000 = 0xFF := by
    simp [storeOverItself, Memory.read_write]
  have high : storeOverItself.mem.read 0x0001 = 0xFF := by
    simp [storeOverItself]
  exact Instruction.decode_of_word rfl opcode (Memory.readWord_of_reads low high)

/-- The store takes the address decoded before it and goes on behind its three bytes. -/
theorem step_storeOverItself :
    storeOverItself.state = .running ∧
      ∃ after, storeOverItself.step = .ok (⟨0xFFFF, 0x32, .word 0xFFFF⟩, after) ∧
        after.mem = storeOverItself.mem.write 0xFFFF 0x21 ∧ after.regs.pc = 2 := by
  have effect := step_agrees_with_decode storeOverItself rfl
  rw [decode_storeOverItself] at effect
  obtain ⟨after, step, uses, pc⟩ := effect
  exact ⟨rfl, after, step, uses, pc rfl⟩

end Intel8080.Machine
