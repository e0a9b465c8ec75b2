import Intel8080.Proofs.Assembly.Reading
import Intel8080.Proofs.Machine.TrappedTransfer
import Intel8080.Proofs.Memory
import Intel8080.Proofs.Service.Effect

/-!
# What the text of an instruction leaves open

The text of an instruction tells its operand, and its opcode up to aliases of the no-operation or
of the call. Which of these aliases stands at the program counter makes no difference to a step
(`step_twin`): the operand lies behind the opcode, the return address is the same, and a handler
gets the same machine but for the byte, so that one that leaves the byte alone does the same.
-/
namespace Intel8080

theorem Memory.readWord_write_behind (mem : Memory) (address : UInt16) (value : UInt8) :
    (mem.write address value).readWord (address + 1) = mem.readWord (address + 1) := by
  refine readWord_write_of_ne mem value (add_ofNat_ne (n := 1) (by decide) (by decide) address).symm ?_
  rw [add_one_add_one]
  exact (add_ofNat_ne (n := 2) (by decide) (by decide) address).symm

/-- A store over the opcode leaves the operand behind it alone. -/
theorem Operation.operandAt_write (o : Operation) (mem : Memory) (address : UInt16)
    (value : UInt8) : o.operandAt (mem.write address value) address = o.operandAt mem address := by
  have behind : address ≠ address + 1 :=
    (add_ofNat_ne (n := 1) (by decide) (by decide) address).symm
  simp only [operandAt, Memory.read_write_of_ne mem behind, Memory.readWord_write_behind]

namespace Machine
open Assembly

variable {η : Type}

/-- A handler neither reads nor changes a byte: whatever stands there, it does the same and leaves
it there. -/
def LeavesAlone [TrapHandler η] (handler : η) (m : Machine η) (address : UInt16) : Prop :=
  ∀ value, TrapHandler.run handler (m.writeByte address value) =
    ((TrapHandler.run handler m).1.writeByte address value, (TrapHandler.run handler m).2)

def withOpcode (m : Machine η) (opcode : UInt8) : Machine η := m.writeByte m.regs.pc opcode

section Twin

variable (m : Machine η) {twin : UInt8}

theorem nextOperation_withOpcode : (m.withOpcode twin).nextOperation = Opcode.operation twin :=
  congrArg Opcode.operation (m.mem.read_write_self m.regs.pc twin)

theorem nextInstruction_withOpcode (same : m.nextOperation = Opcode.operation twin) :
    (m.withOpcode twin).nextInstruction = { m.nextInstruction with opcode := twin } := by
  change Instruction.decode (m.mem.write m.regs.pc twin) m.regs.pc = _
  rw [Instruction.decode_eq, Memory.read_write_self, Operation.operandAt_write, ← same,
    ← nextInstruction_operand]
  rfl

theorem operand_withOpcode :
    (m.withOpcode twin).mem.readWord ((m.withOpcode twin).regs.pc + 1) =
      m.mem.readWord (m.regs.pc + 1) :=
  Memory.readWord_write_behind m.mem m.regs.pc twin

/-- The same handler answers whatever the opcode is. -/
theorem answering?_withOpcode (o : Operation) :
    (m.withOpcode twin).answering? o = m.answering? o := by
  cases o with
  | jump condition | call condition =>
    rw [answering?, operand_withOpcode]
    cases condition <;> rfl
  | _ => rfl

theorem runHandler_writeByte [TrapHandler η] {handler : η} {address : UInt16}
    (alone : LeavesAlone handler m address) (value : UInt8) :
    (m.writeByte address value).runHandler handler =
      (m.runHandler handler).writeByte address value := by
  rw [runHandler, alone value, runHandler]
  cases TrapHandler.run handler m with
  | mk done action => cases action <;> rfl

/-- A push does the same but for a byte, and that byte stays unless it is pushed over. -/
theorem pushWord_writeByte (w address : UInt16) (value : UInt8) :
    (m.writeByte address value).pushWord w = (m.pushWord w).writeByte address
      (if address = m.regs.sp - 2 then lowByte w
        else if address = m.regs.sp - 1 then highByte w else value) := by
  have stores :
      ((m.mem.write address value).write (m.regs.sp - 1) (highByte w)).write (m.regs.sp - 2)
        (lowByte w) = ((m.mem.write (m.regs.sp - 1) (highByte w)).write (m.regs.sp - 2)
          (lowByte w)).write address (if address = m.regs.sp - 2 then lowByte w
            else if address = m.regs.sp - 1 then highByte w else value) := by
    rw [Memory.write_write m.mem address, Memory.write_write _ address]
  rw [pushWord_eq, pushWord_eq]
  exact congrArg (fun mem => { m.setSp (m.regs.sp - 2) with mem := mem }) stores

theorem execute_call_of_free [TrapHandler η] (free : m.answering? (.call none) = none) :
    m.advancePc.execute (.call none) =
      (m.pushWord (m.regs.pc + 3)).setPc (m.mem.readWord (m.regs.pc + 1)) :=
  @call_of_free η m _ true fun _ => free

/-- A step does the same but for the opcode and the name of the instruction, and the opcode stays
unless the call pushes over it. -/
theorem step_twin [TrapHandler η] (running : m.state = .running)
    (twins : Twins m.nextInstruction.opcode twin)
    (alone : ∀ handler, m.AnsweredBy handler →
      LeavesAlone handler (m.setPc (m.regs.pc + 3)) m.regs.pc) :
    let renamed := { m.nextInstruction with opcode := twin }
    ∃ after byte, m.step = .ok (m.nextInstruction, after) ∧
      (m.withOpcode twin).step = .ok (renamed,
        { after.writeByte m.regs.pc byte with lastInstruction := some renamed }) ∧
      (m.regs.pc ≠ m.regs.sp - 1 → m.regs.pc ≠ m.regs.sp - 2 → byte = twin) := by
  intro renamed
  obtain ⟨same, kind⟩ := twins.operation
  have same : m.nextOperation = Opcode.operation twin := same
  have kind : m.nextOperation = .nop ∨ m.nextOperation = .call none := kind
  have text : (m.withOpcode twin).nextInstruction = renamed := nextInstruction_withOpcode m same
  have twinRunning : (m.withOpcode twin).state = .running := running
  have operation : (m.withOpcode twin).nextOperation = m.nextOperation :=
    (nextOperation_withOpcode m).trans same.symm
  rw [step_eq_next m running, step_eq_next _ twinRunning, text]
  cases answer : m.answering? m.nextOperation with
  | some handler =>
    -- The handler runs in place of the push, so nothing but it could touch the opcode.
    have answerTwin : (m.withOpcode twin).answering? (m.withOpcode twin).nextOperation =
        some handler := by
      rw [operation, answering?_withOpcode, answer]
    refine ⟨_, twin, rfl, ?_, fun _ _ => rfl⟩
    rw [next_answered m running answer, next_answered _ twinRunning answerTwin, text]
    have alone := alone handler ((answeredBy_iff m handler).2 answer)
    change Except.ok (renamed, (((m.setPc (m.regs.pc + 3)).writeByte m.regs.pc twin).runHandler
      handler).book renamed) = _
    rw [runHandler_writeByte _ alone]
    rfl
  | none =>
    rw [next_of_running m running, next_of_running _ twinRunning, operation, text]
    obtain noOperation | call := kind
    · rw [noOperation]
      exact ⟨_, twin, rfl, rfl, fun _ _ => rfl⟩
    · rw [call] at answer ⊢
      have answerTwin : (m.withOpcode twin).answering? (.call none) = none := by
        rw [answering?_withOpcode, answer]
      rw [execute_call_of_free m answer, execute_call_of_free _ answerTwin, operand_withOpcode]
      change ∃ after byte, _ ∧ Except.ok (renamed, (((m.writeByte m.regs.pc twin).pushWord
        (m.regs.pc + 3)).setPc (m.mem.readWord (m.regs.pc + 1))).book renamed) = _ ∧ _
      rw [pushWord_writeByte]
      refine ⟨_, _, rfl, rfl, fun high low => ?_⟩
      rw [if_neg low, if_neg high]

end Twin

/-- The text of an instruction tells its operand and its opcode, up to two aliases that have the
name of the no-operation or of the call. Which of the two is at the program counter of a running
machine makes no difference to its step, unless a handler that answers has to do with that byte:
the machines afterwards differ in the byte and in the last instruction alone. The byte is still
there, unless the call pushes over it. -/
theorem text_unambiguous :
    (∀ i j : Instruction, i.text = j.text ↔
      i.operand = j.operand ∧ (i.opcode = j.opcode ∨ Twins i.opcode j.opcode)) ∧
    ∀ {η : Type} [TrapHandler η] (m : Machine η) (twin : UInt8), m.state = .running →
      Twins m.nextInstruction.opcode twin →
      (∀ handler, m.AnsweredBy handler →
        LeavesAlone handler (m.setPc (m.regs.pc + 3)) m.regs.pc) →
      let renamed := { m.nextInstruction with opcode := twin }
      ∃ after byte, m.step = .ok (m.nextInstruction, after) ∧
        (m.withOpcode twin).step = .ok (renamed,
          { after.writeByte m.regs.pc byte with lastInstruction := some renamed }) ∧
        (m.regs.pc ≠ m.regs.sp - 1 → m.regs.pc ≠ m.regs.sp - 2 → byte = twin) :=
  ⟨text_eq_iff, fun m _ running twins alone => step_twin m running twins alone⟩

/-- A service has nothing to do with memory, except to print a string. -/
theorem leavesAlone_service (s : Service) (m : Machine Service) (address : UInt16)
    (character : m.regs.c ≠ Service.printString) : LeavesAlone s m address := by
  intro value
  have printed : s.printed m.regs (m.mem.write address value) = s.printed m.regs m.mem := by
    cases s with
    | warmBoot => rfl
    | bdos => simp [Service.printed, character]
  change s.run (m.writeByte address value) = ((s.run m).1.writeByte address value, (s.run m).2)
  rw [Service.run_eq, Service.run_eq]
  rw [← printed]
  rfl

/-- An undocumented call of address 0005, to print one character. -/
def aliasCall : Machine Service :=
  { withTraps Service.traps with
    regs := { Registers.zero with pc := 0x0100, c := 0x02, e := 0x48 }
    mem := (Memory.zero.write 0x0100 0xDD).write 0x0101 0x05 }

theorem operand_aliasCall : aliasCall.mem.readWord 0x0101 = 0x0005 := by
  have low : aliasCall.mem.read 0x0101 = 0x05 := Memory.read_write_self _ _ _
  have high : aliasCall.mem.read 0x0102 = 0x00 := by
    simp [aliasCall, Memory.read_write]
  exact Memory.readWord_of_reads low high

theorem nextInstruction_aliasCall : aliasCall.nextInstruction = ⟨0x0100, 0xDD, .word 0x0005⟩ := by
  have opcode : aliasCall.mem.read 0x0100 = 0xDD := by
    simp [aliasCall, Memory.read_write]
  exact Instruction.decode_of_word rfl opcode operand_aliasCall

/-- Both opcodes print the character, and the texts of the instructions are the same. -/
theorem step_aliasCall :
    let renamed : Instruction := ⟨0x0100, 0xFD, .word 0x0005⟩
    aliasCall.nextInstruction.text = renamed.text ∧ Twins aliasCall.nextInstruction.opcode 0xFD ∧
      (∃ handler, aliasCall.AnsweredBy handler) ∧
      ∃ after, aliasCall.step = .ok (⟨0x0100, 0xDD, .word 0x0005⟩, after) ∧
        (aliasCall.withOpcode 0xFD).step = .ok (renamed,
          { after.writeByte 0x0100 0xFD with lastInstruction := some renamed }) := by
  intro renamed
  obtain ⟨texts, steps⟩ := text_unambiguous
  have same : aliasCall.nextInstruction.text = renamed.text := by
    rw [nextInstruction_aliasCall]
    decide
  have twins : Twins aliasCall.nextInstruction.opcode 0xFD := by
    obtain ⟨-, equal | twins⟩ := (texts _ _).1 same
    · rw [nextInstruction_aliasCall] at equal
      exact absurd equal (by decide)
    · exact twins
  have answered : aliasCall.AnsweredBy .bdos := by
    have operand : aliasCall.controlPath.operand = 0x0005 := operand_aliasCall
    refine ⟨.call, fun _ => true, ?_, .inr rfl, rfl, ?_⟩
    · rw [nextInstruction_aliasCall]
      rfl
    · rw [operand]
      rfl
  obtain ⟨after, byte, step, twinStep, kept⟩ := steps aliasCall 0xFD rfl twins fun handler _ =>
    leavesAlone_service handler _ _ (by decide)
  rw [kept (by decide) (by decide), nextInstruction_aliasCall] at twinStep
  rw [nextInstruction_aliasCall] at step
  exact ⟨same, twins, ⟨_, answered⟩, after, step, twinStep⟩

end Machine

end Intel8080
