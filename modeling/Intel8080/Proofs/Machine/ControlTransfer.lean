import Intel8080.Proofs.Assembly.Transfer
import Intel8080.Proofs.Machine.DataPath

/-!
# Transfers of control are exact

A step of a jump, call, return or restart, by the text of its mnemonic, goes where that text says
and leaves everything else alone, so long as the target of a taken jump or call is not trapped
(`step_transfer`). A call reads its operand before it pushes, and the push is the only store.
-/
namespace Intel8080.Machine
open Assembly

variable {η : Type}

/-- What transfers of control see of a machine. -/
def controlPath (m : Machine η) : ControlPath := { m.dataPath with pc := m.regs.pc }

theorem controlPath_pushWord (m : Machine η) (w pc : UInt16) :
    ((m.pushWord w).setPc pc).controlPath = { m.dataPath.push w with pc := pc } := by
  rw [← dataPath_pushWord]
  rfl

/-- Registers and memory are all that a transfer touches. -/
def SameOutside (before after : Machine η) : Prop :=
  after = { before with regs := after.regs, mem := after.mem }

/-- The code tests the flag that the letters of the condition name. -/
theorem taken_eq_conditionTest (m : Machine η) (condition : Option Condition) :
    m.advancePc.taken condition = conditionTest condition m.regs.flags := by
  cases condition <;> rfl

/-- The step lemma of the transfers, by cases on what they are. -/
theorem execute_transfer [TrapHandler η] (m : Machine η) (o : Operation) {t : Transfer}
    {test : Flags → Bool} (named : branchOf o = some (t, test))
    (untrapped : test m.regs.flags = true → t = .jump ∨ t = .call →
      m.traps.get? m.controlPath.operand = none) :
    (m.advancePc.execute o).controlPath =
        (if test m.regs.flags then t.taken m.controlPath else t.passed m.controlPath) ∧
      SameOutside m (m.advancePc.execute o) := by
  cases o with
  | jump condition =>
    cases named
    simp only [execute, jump_advancePc, taken_eq_conditionTest]
    by_cases taken : conditionTest condition m.regs.flags = true
    · have free : m.traps.get? (m.mem.readWord (m.regs.pc + 1)) = none :=
        untrapped taken (.inl rfl)
      rw [if_pos taken, if_pos taken, free]
      exact ⟨rfl, rfl⟩
    · rw [if_neg taken, if_neg taken]
      exact ⟨rfl, rfl⟩
  | call condition =>
    cases named
    simp only [execute, call_advancePc, taken_eq_conditionTest]
    by_cases taken : conditionTest condition m.regs.flags = true
    · have free : m.traps.get? (m.mem.readWord (m.regs.pc + 1)) = none :=
        untrapped taken (.inr rfl)
      rw [if_pos taken, if_pos taken, free]
      refine ⟨?_, rfl⟩
      rw [controlPath_pushWord]
      rfl
    · rw [if_neg taken, if_neg taken]
      exact ⟨rfl, rfl⟩
  | ret condition =>
    cases named
    simp only [execute, ret, taken_eq_conditionTest]
    by_cases taken : conditionTest condition m.regs.flags = true
    · rw [if_pos taken, if_pos taken, popWord_eq]
      exact ⟨rfl, rfl⟩
    · rw [if_neg taken, if_neg taken]
      exact ⟨rfl, rfl⟩
  | rst vector =>
    cases named
    have called : m.advancePc.execute (.rst vector) =
        (m.pushWord (m.regs.pc + 1)).setPc ((vector &&& 7).toUInt16 * 8) := rfl
    rw [called]
    refine ⟨?_, rfl⟩
    rw [controlPath_pushWord]
    rfl
  | pchl =>
    cases named
    exact ⟨rfl, rfl⟩
  | _ => cases named

/-- A step of a running machine at a transfer: the flag that the mnemonic names decides whether it
is taken, and apart from the bookkeeping only registers and memory change. -/
theorem step_transfer [TrapHandler η] (m : Machine η) (running : m.state = .running)
    {t : Transfer} {test : Flags → Bool}
    (named : branch? (words m.nextInstruction.mnemonic) = some (t, test))
    (untrapped : test m.regs.flags = true → t = .jump ∨ t = .call →
      m.traps.get? m.controlPath.operand = none) :
    ∃ after, m.step = .ok (m.nextInstruction, after) ∧
      after.controlPath =
        (if test m.regs.flags then t.taken m.controlPath else t.passed m.controlPath) ∧
      after = { m with
        regs := after.regs
        mem := after.mem
        steps := m.steps + 1
        lastInstruction := some m.nextInstruction } := by
  have operation : branchOf m.nextOperation = some (t, test) :=
    (branch?_words (m.mem.read m.regs.pc)).symm.trans named
  obtain ⟨path, outside⟩ := execute_transfer m m.nextOperation operation untrapped
  refine ⟨_, step_of_running m running, path, ?_⟩
  exact congrArg (book · m.nextInstruction) outside

/-- `CNZ 1234` from FFFF on, with a stack that lies on the instruction itself. -/
def callOverItself : Machine Service :=
  { new with
    regs := { Registers.zero with pc := 0xFFFF, sp := 0x0001 }
    mem := ((Memory.zero.write 0xFFFF 0xC4).write 0x0000 0x34).write 0x0001 0x12 }

theorem operand_callOverItself : callOverItself.mem.readWord 0x0000 = 0x1234 := by
  have low : callOverItself.mem.read 0x0000 = 0x34 := by
    simp [callOverItself, Memory.read_write]
  have high : callOverItself.mem.read 0x0001 = 0x12 := by
    simp [callOverItself]
  exact Memory.readWord_of_reads low high

theorem nextInstruction_callOverItself :
    callOverItself.nextInstruction = ⟨0xFFFF, 0xC4, .word 0x1234⟩ := by
  have opcode : callOverItself.mem.read 0xFFFF = 0xC4 := by
    simp [callOverItself, Memory.read_write]
  exact Instruction.decode_of_word rfl opcode operand_callOverItself

/-- The call goes to the address that stood there before its push. -/
theorem step_callOverItself :
    callOverItself.state = .running ∧ callOverItself.traps.get? 0x1234 = none ∧
      ∃ after, callOverItself.step = .ok (⟨0xFFFF, 0xC4, .word 0x1234⟩, after) ∧
        after.regs.pc = 0x1234 ∧ after.regs.sp = 0xFFFF ∧
        after.mem.read 0x0000 = 0x00 ∧ after.mem.read 0xFFFF = 0x02 := by
  have named : branch? (words callOverItself.nextInstruction.mnemonic) =
      some (.call, fun f => !f.zero) := by
    rw [nextInstruction_callOverItself]
    rfl
  have effect := step_transfer callOverItself rfl named fun _ _ => rfl
  rw [nextInstruction_callOverItself] at effect
  obtain ⟨after, step, path, -⟩ := effect
  have path : after.controlPath = Transfer.taken callOverItself.controlPath .call := path
  refine ⟨rfl, rfl, after, step, ?_, ?_, ?_, ?_⟩
  · rw [← operand_callOverItself]
    exact congrArg (·.pc) path
  · exact congrArg (·.sp) path
  · exact congrArg (·.mem 0x0000) path
  · exact congrArg (·.mem 0xFFFF) path

end Intel8080.Machine
