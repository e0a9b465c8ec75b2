import Intel8080.Proofs.Machine.TrappedTransfer
import Intel8080.Proofs.Machine.WordStack
import Intel8080.Proofs.Service.Effect

/-!
# A trapped call is a call and a return

A call that the disk operating system answers leaves registers, run state and memory as they would
be after the call of a routine that does nothing but return (`step_bdos_eq_call_return`). Only the
two bytes of the return address are left behind below the stack pointer, and the printed bytes are
missing. The routine must not lie on the call nor on the return address. Whatever else the host
traps does not matter, as a return is never trapped.
-/
namespace Intel8080

theorem TrapTable.get?_erase {η : Type} (t : TrapTable η) (address : UInt16) :
    (t.erase address).get? address = none := by
  rw [get?, erase, List.lookup_eq_none_iff]
  intro entry kept
  have other := (List.mem_filter.1 kept).2
  rwa [bne_comm] at other

/-- A byte that none of the three possible bytes of an instruction is does not matter to it. -/
theorem Instruction.decode_write_of_ne (mem : Memory) {target address : UInt16} (value : UInt8)
    (opcode : target ≠ address) (low : target ≠ address + 1) (high : target ≠ address + 2) :
    decode (mem.write target value) address = decode mem address := by
  rw [← add_one_add_one] at high
  simp only [decode, Memory.read_write_of_ne mem opcode, Memory.read_write_of_ne mem low,
    Memory.readWord_write_of_ne mem value low high]

namespace Machine
open Assembly

variable {η : Type}

def returnOpcode : UInt8 := 0xC9

/-- The next instruction is a call of an address, and it is taken. -/
def Calls (m : Machine η) (target : UInt16) : Prop :=
  ∃ test, branch? (words m.nextInstruction.mnemonic) = some (.call, test) ∧
    test m.regs.flags = true ∧ m.controlPath.operand = target

/-- An address lies neither on the next instruction nor where a return address would be pushed. -/
structure IsApart (m : Machine η) (target : UInt16) : Prop where
  opcode : target ≠ m.regs.pc
  operandLow : target ≠ m.regs.pc + 1
  operandHigh : target ≠ m.regs.pc + 2
  pushedHigh : target ≠ m.regs.sp - 1
  pushedLow : target ≠ m.regs.sp - 2

/-- A machine in which an address is not trapped and a return stands there. -/
def withReturnAt (m : Machine η) (target : UInt16) : Machine η :=
  { m with mem := m.mem.write target returnOpcode, traps := m.traps.erase target }

/-- What calls is a call whose condition holds. -/
theorem exists_call_of_calls {m : Machine η} {target : UInt16} (calls : m.Calls target) :
    ∃ condition, m.nextOperation = .call condition ∧ m.taken condition = true ∧
      m.mem.readWord (m.regs.pc + 1) = target := by
  obtain ⟨test, named, taken, operand⟩ := calls
  have named : branchOf m.nextOperation = some (.call, test) :=
    (branch?_words (m.mem.read m.regs.pc)).symm.trans named
  cases operation : m.nextOperation with
  | call condition =>
    rw [operation] at named
    cases named
    rw [← taken_eq_conditionTest, taken_advancePc] at taken
    exact ⟨condition, rfl, taken, operand⟩
  | _ =>
    rw [operation] at named
    cases named

theorem nextInstruction_withReturnAt {m : Machine η} {target : UInt16} (apart : m.IsApart target) :
    (m.withReturnAt target).nextInstruction = m.nextInstruction :=
  Instruction.decode_write_of_ne m.mem _ apart.opcode apart.operandLow apart.operandHigh

/-- A call of an address at which a return stands in place of a trap is again such a call. -/
theorem calls_withReturnAt {m : Machine η} {target : UInt16} (calls : m.Calls target)
    (apart : m.IsApart target) : (m.withReturnAt target).Calls target := by
  obtain ⟨test, named, taken, operand⟩ := calls
  have operandHigh := apart.operandHigh
  rw [← add_one_add_one] at operandHigh
  refine ⟨test, ?_, taken, ?_⟩
  · rwa [nextInstruction_withReturnAt apart]
  · exact (Memory.readWord_write_of_ne m.mem _ apart.operandLow operandHigh).trans operand

theorem nextInstruction_of_return {m : Machine η} (opcode : m.mem.read m.regs.pc = returnOpcode) :
    m.nextInstruction = ⟨m.regs.pc, returnOpcode, .none⟩ := by
  rw [nextInstruction, Instruction.decode_eq, opcode]
  rfl

section Push

variable (m : Machine η) (w : UInt16)

/-- A push stores nowhere but in the two bytes below the stack pointer. -/
theorem read_pushWord_of_ne {address : UInt16} (high : address ≠ m.regs.sp - 1)
    (low : address ≠ m.regs.sp - 2) : (m.pushWord w).mem.read address = m.mem.read address := by
  rw [pushWord_eq]
  exact (Memory.read_write_of_ne _ low.symm _).trans (Memory.read_write_of_ne _ high.symm _)

/-- A word that was pushed is popped again, and leaves its bytes behind. -/
theorem popWord_pushWord :
    (m.pushWord w).popWord = (w, { m with mem := (m.pushWord w).mem }) := by
  obtain ⟨top, left⟩ := ((holdsStack_nil m 2).pushWord w (by decide) (by decide)).popWord
  have sp : (m.pushWord w).popWord.2.regs.sp = m.regs.sp := left.sp.trans (sub_ofNat_zero _)
  have back : (m.pushWord w).popWord.2 = { m with mem := (m.pushWord w).mem } := by
    rw [left.rest, withStack, sp]
    rfl
  exact Prod.ext top back

end Push

/-- Inside the routine that only returns. -/
def inRoutine (m : Machine η) (target : UInt16) : Machine η :=
  (((m.withReturnAt target).pushWord (m.regs.pc + 3)).setPc target).book m.nextInstruction

theorem read_inRoutine {m : Machine η} {target : UInt16} (apart : m.IsApart target) :
    (m.inRoutine target).mem.read target = returnOpcode :=
  (read_pushWord_of_ne (m.withReturnAt target) (m.regs.pc + 3) apart.pushedHigh
    apart.pushedLow).trans (Memory.read_write_self m.mem target returnOpcode)

theorem popWord_inRoutine (m : Machine η) (target : UInt16) :
    (m.inRoutine target).popWord = (m.regs.pc + 3,
      (({ m.withReturnAt target with
        mem := (m.inRoutine target).mem } : Machine η).setPc target).book m.nextInstruction) := by
  have popped := popWord_pushWord (m.withReturnAt target) (m.regs.pc + 3)
  have outside : (m.inRoutine target).popWord = Prod.map id
      (fun back => (back.setPc target).book m.nextInstruction)
      ((m.withReturnAt target).pushWord (m.regs.pc + 3)).popWord := rfl
  rw [outside, popped]
  rfl

variable [TrapHandler η]

/-- A call that is not trapped pushes the address behind its operand. -/
theorem next_of_calls {m : Machine η} {target : UInt16} (running : m.state = .running)
    (calls : m.Calls target) (free : m.traps.get? target = none) :
    m.next = ((m.pushWord (m.regs.pc + 3)).setPc target).book m.nextInstruction := by
  obtain ⟨condition, operation, taken, operand⟩ := exists_call_of_calls calls
  rw [next_of_running m running, operation, execute, taken_advancePc,
    call_of_free m fun _ => operand.symm ▸ free, if_pos taken, operand]

/-- A return pops the address it goes to. -/
theorem next_of_return {m : Machine η} (running : m.state = .running)
    (opcode : m.mem.read m.regs.pc = returnOpcode) :
    m.next = (m.popWord.2.setPc m.popWord.1).book ⟨m.regs.pc, returnOpcode, .none⟩ := by
  have operation : m.nextOperation = .ret none := by
    rw [nextOperation, opcode]
    rfl
  rw [next_of_running m running, operation, nextInstruction_of_return opcode]
  rfl

/-- A call that the disk operating system answers prints and goes on behind its operand. -/
theorem next_of_calls_bdos {m : Machine η} {target : UInt16} (running : m.state = .running)
    (calls : m.Calls target) {handler : η} (trapped : m.traps.get? target = some handler)
    (bdos : ∀ m : Machine η, TrapHandler.run handler m = Service.bdos.run m) :
    m.next = book
      { m.setPc (m.regs.pc + 3) with
        console := m.console ++ Service.bdos.printed m.regs m.mem } m.nextInstruction := by
  obtain ⟨condition, operation, taken, operand⟩ := exists_call_of_calls calls
  have answered : m.answering? m.nextOperation = some handler := by
    rw [operation, answering?, if_pos taken, operand, trapped]
  rw [next_answered m running answered, runHandler_eq, bdos, Service.run_eq]
  rfl

/-- Without the trap the call goes to the return. -/
theorem next_withReturnAt {m : Machine η} {target : UInt16} (running : m.state = .running)
    (calls : m.Calls target) (apart : m.IsApart target) :
    (m.withReturnAt target).next = m.inRoutine target := by
  have free : (m.withReturnAt target).traps.get? target = none := TrapTable.get?_erase m.traps target
  rw [next_of_calls (m := m.withReturnAt target) running (calls_withReturnAt calls apart) free,
    nextInstruction_withReturnAt apart]
  rfl

/-- The return leads behind the call. -/
theorem next_inRoutine {m : Machine η} {target : UInt16} (running : m.state = .running)
    (apart : m.IsApart target) :
    (m.inRoutine target).next = book
      { m.withReturnAt target with
        regs := { m.regs with pc := m.regs.pc + 3 }
        mem := (m.inRoutine target).mem
        steps := m.steps + 1 } ⟨target, returnOpcode, .none⟩ := by
  have opcode : (m.inRoutine target).mem.read (m.inRoutine target).regs.pc = returnOpcode :=
    read_inRoutine apart
  rw [next_of_return (m := m.inRoutine target) running opcode, popWord_inRoutine]
  rfl

/-- A step of a taken call that the disk operating system answers, and two steps of the same machine
with a return at the target in place of the trap, give the same registers and run state and the same
memory but for the target and the return address. Apart from that they differ in one step more, in
the last instruction, in the trap table and in what was printed. -/
theorem step_bdos_eq_call_return (m : Machine η) (running : m.state = .running) {target : UInt16}
    (calls : m.Calls target) {handler : η} (trapped : m.traps.get? target = some handler)
    (bdos : ∀ m : Machine η, TrapHandler.run handler m = Service.bdos.run m)
    (apart : m.IsApart target) :
    ∃ asked called returned,
      m.step = .ok (m.nextInstruction, asked) ∧
      (m.withReturnAt target).step = .ok (m.nextInstruction, called) ∧
      called.step = .ok (⟨target, returnOpcode, .none⟩, returned) ∧
      (∀ address, address ≠ target → address ≠ m.regs.sp - 1 → address ≠ m.regs.sp - 2 →
        returned.mem.read address = asked.mem.read address) ∧
      asked.console = m.console ++ Service.bdos.printed m.regs m.mem ∧ asked.traps = m.traps ∧
      returned = { asked with
        mem := returned.mem
        steps := asked.steps + 1
        lastInstruction := some ⟨target, returnOpcode, .none⟩
        traps := m.traps.erase target
        console := m.console } := by
  have asked := next_of_calls_bdos running calls trapped bdos
  have called := next_withReturnAt running calls apart
  have returned := next_inRoutine running apart
  have instruction : (m.inRoutine target).nextInstruction = ⟨target, returnOpcode, .none⟩ :=
    nextInstruction_of_return (read_inRoutine apart)
  refine ⟨m.next, m.inRoutine target, (m.inRoutine target).next, step_eq_next m running,
    ?_, ?_, ?_, ?_, ?_, ?_⟩
  · rw [← nextInstruction_withReturnAt apart, ← called]
    exact step_eq_next (m.withReturnAt target) running
  · rw [← instruction]
    exact step_eq_next (m.inRoutine target) running
  · intro address elsewhere high low
    rw [returned, asked]
    exact (read_pushWord_of_ne (m.withReturnAt target) _ high low).trans
      (Memory.read_write_of_ne _ elsewhere.symm _)
  · rw [asked]
    rfl
  · rw [asked]
    rfl
  · rw [returned, asked]
    rfl

/-- `CALL 0005` at the top of memory, with a stack that lies on the instruction itself, to print
one character. -/
def callAtTop : Machine Service :=
  { withTraps Service.traps with
    regs := { Registers.zero with pc := 0xFFFD, c := 0x02, e := 0x48 }
    mem := (Memory.zero.write 0xFFFD 0xCD).write 0xFFFE 0x05 }

theorem operand_callAtTop : callAtTop.mem.readWord 0xFFFE = 0x0005 := by
  have low : callAtTop.mem.read 0xFFFE = 0x05 := Memory.read_write_self _ _ _
  have high : callAtTop.mem.read 0xFFFF = 0x00 := by
    simp [callAtTop, Memory.read_write]
  exact Memory.readWord_of_reads low high

theorem nextInstruction_callAtTop : callAtTop.nextInstruction = ⟨0xFFFD, 0xCD, .word 0x0005⟩ := by
  have opcode : callAtTop.mem.read 0xFFFD = 0xCD := by
    simp [callAtTop, Memory.read_write]
  exact Instruction.decode_of_word rfl opcode operand_callAtTop

theorem calls_callAtTop : callAtTop.Calls 0x0005 := by
  refine ⟨fun _ => true, ?_, rfl, operand_callAtTop⟩
  rw [nextInstruction_callAtTop]
  rfl

/-- Both ways end with the same registers. The character is printed on one of them only, and on the
other the return address has overwritten the operand of the call. -/
theorem step_callAtTop :
    callAtTop.state = .running ∧ callAtTop.Calls 0x0005 ∧ callAtTop.IsApart 0x0005 ∧
      callAtTop.traps.get? 0x0005 = some .bdos ∧
      ∃ asked called returned,
        callAtTop.step = .ok (⟨0xFFFD, 0xCD, .word 0x0005⟩, asked) ∧
        (callAtTop.withReturnAt 0x0005).step = .ok (⟨0xFFFD, 0xCD, .word 0x0005⟩, called) ∧
        called.step = .ok (⟨0x0005, 0xC9, .none⟩, returned) ∧
        returned.regs = asked.regs ∧ asked.console = #[0x48] ∧ returned.console = #[] ∧
        returned.steps = asked.steps + 1 ∧ asked.mem.read 0xFFFD = returned.mem.read 0xFFFD := by
  have apart : callAtTop.IsApart 0x0005 := ⟨by decide, by decide, by decide, by decide, by decide⟩
  have trapped : callAtTop.traps.get? 0x0005 = some .bdos := rfl
  have both := step_bdos_eq_call_return callAtTop rfl calls_callAtTop trapped (fun _ => rfl) apart
  rw [nextInstruction_callAtTop] at both
  obtain ⟨asked, called, returned, first, second, third, mem, console, -, rest⟩ := both
  refine ⟨rfl, calls_callAtTop, apart, trapped, asked, called, returned, first, second, third,
    ?_, console, ?_, ?_, ?_⟩
  · rw [rest]
  · rw [rest]
    rfl
  · rw [rest]
  · exact (mem 0xFFFD (by decide) (by decide) (by decide)).symm

end Machine

end Intel8080
