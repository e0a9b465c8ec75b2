import Intel8080.Machine.Execute

/-!
# What one step does

A step of a running machine is never refused: it gives back the instruction at the program
counter, carries its operation out and books it (`step_of_running`). The other lemmas say once what
the parts of an operation do. Reading an operand moves the program counter past it, a push stores
two bytes below the stack pointer, and everything else leaves the program counter where it is.
-/
namespace Intel8080

/-- The opcodes have one halt among them. -/
theorem Opcode.operation_eq_hlt : ∀ opcode, operation opcode = .hlt ↔ opcode = 0x76 :=
  forall_byte (by decide +kernel)

/-- One opcode reads a port. -/
theorem Opcode.operation_eq_input : ∀ opcode, operation opcode = .input ↔ opcode = 0xDB :=
  forall_byte (by decide +kernel)

/-- One opcode writes a port. -/
theorem Opcode.operation_eq_output : ∀ opcode, operation opcode = .output ↔ opcode = 0xD3 :=
  forall_byte (by decide +kernel)

/-- The operand bytes of an operation whose opcode stands at an address. -/
def Operation.operandAt (o : Operation) (mem : Memory) (address : UInt16) : Operand :=
  match o.operandSize with
  | 1 => .byte (mem.read (address + 1))
  | 2 => .word (mem.readWord (address + 1))
  | _ => .none

/-- The size in the table tells the operand that the operation asks for. -/
theorem Instruction.decode_eq (mem : Memory) (address : UInt16) :
    decode mem address =
      ⟨address, mem.read address, (Opcode.operation (mem.read address)).operandAt mem address⟩ := by
  rw [decode, Opcode.size_eq, Operation.size, Nat.add_comm, Operation.operandAt]
  -- The table counts the opcode too, so the cases are those of the operand and one more.
  match (Opcode.operation (mem.read address)).operandSize with
  | 0 | 1 | 2 | _ + 3 => rfl

theorem Memory.readWord_of_reads {mem : Memory} {address w : UInt16}
    (low : mem.read address = lowByte w) (high : mem.read (address + 1) = highByte w) :
    mem.readWord address = w := by
  rw [readWord, low, high, wordOf_bytes]

/-- An operation with a word operand is decoded with the word behind its opcode. -/
theorem Instruction.decode_of_word {mem : Memory} {address w : UInt16} {opcode : UInt8}
    (two : (Opcode.operation opcode).operandSize = 2) (first : mem.read address = opcode)
    (behind : mem.readWord (address + 1) = w) :
    decode mem address = ⟨address, opcode, .word w⟩ := by
  simp only [decode_eq, first, Operation.operandAt, two, behind]

theorem add_one_add_one (w : UInt16) : w + 1 + 1 = w + 2 := by
  rw [UInt16.add_assoc]
  rfl

theorem add_two_add_one (w : UInt16) : w + 2 + 1 = w + 3 := by
  rw [UInt16.add_assoc]
  rfl

theorem sub_one_sub_one (w : UInt16) : w - 1 - 1 = w - 2 := by
  rw [UInt16.sub_eq_add_neg, UInt16.sub_eq_add_neg, UInt16.sub_eq_add_neg, UInt16.add_assoc]
  rfl

namespace Machine

variable {η : Type}

def nextOperation (m : Machine η) : Operation := Opcode.operation (m.mem.read m.regs.pc)

def book (m : Machine η) (i : Instruction) : Machine η :=
  { m with steps := m.steps + 1, lastInstruction := some i }

theorem nextInstruction_operand (m : Machine η) :
    m.nextInstruction.operand = m.nextOperation.operandAt m.mem m.regs.pc := by
  rw [nextInstruction, Instruction.decode_eq]
  rfl

/-- What is decoded has the size of the operation that is carried out. -/
theorem nextInstruction_size (m : Machine η) : m.nextInstruction.size = m.nextOperation.size :=
  Opcode.size_eq _

theorem step_of_running [TrapHandler η] (m : Machine η) (running : m.state = .running) :
    m.step = .ok (m.nextInstruction,
      (m.advancePc.execute m.nextOperation).book m.nextInstruction) := by
  have go : m.isRunning = true := by
    rw [isRunning, running]
    rfl
  rw [step, if_pos go]
  rfl

theorem step_of_not_running [TrapHandler η] (m : Machine η) (rest : m.state ≠ .running) :
    m.step = .error (.notRunning m.state) := by
  have refused : m.isRunning = false := by
    rw [isRunning, beq_eq_false_iff_ne]
    exact rest
  rw [step, refused]
  rfl

@[simp] theorem book_regs (m : Machine η) (i : Instruction) : (m.book i).regs = m.regs := rfl

/-- After the opcode, reading an operand byte leaves the program counter two past the start. -/
theorem fetchByte_advancePc (m : Machine η) :
    m.advancePc.fetchByte = (m.mem.read (m.regs.pc + 1), m.setPc (m.regs.pc + 2)) := by
  rw [← add_one_add_one]
  rfl

/-- After the opcode, reading an operand word leaves the program counter three past the start. -/
theorem fetchWord_advancePc (m : Machine η) :
    m.advancePc.fetchWord = (m.mem.readWord (m.regs.pc + 1), m.setPc (m.regs.pc + 3)) := by
  rw [← add_two_add_one, ← add_one_add_one]
  rfl

/-- A push stores the high byte below the stack pointer and the low byte below that. -/
theorem pushWord_eq (m : Machine η) (w : UInt16) :
    m.pushWord w =
      { m.setSp (m.regs.sp - 2) with
        mem := (m.mem.write (m.regs.sp - 1) (highByte w)).write (m.regs.sp - 2) (lowByte w) } := by
  rw [← sub_one_sub_one]
  rfl

/-- A pop reads the word at the stack pointer and moves past it. -/
theorem popWord_eq (m : Machine η) :
    m.popWord = (m.mem.readWord m.regs.sp, m.setSp (m.regs.sp + 2)) := by
  rw [← add_one_add_one]
  rfl

section ProgramCounter

variable (m : Machine η)

@[simp] theorem setReg_pc (r : Reg) (value : UInt8) : (m.setReg r value).regs.pc = m.regs.pc := by
  cases r <;> rfl

@[simp] theorem setPair_pc (regs : Registers) (p : Pair) (w : UInt16) :
    (regs.setPair p w).pc = regs.pc := by
  cases p <;> rfl

@[simp] theorem setStackPair_pc (regs : Registers) (p : StackPair) (w : UInt16) :
    (regs.setStackPair p w).pc = regs.pc := by
  cases p <;> rfl

@[simp] theorem adjustReg_pc (r : Reg) (f : Flags → UInt8 → UInt8 × Flags) :
    (m.adjustReg r f).regs.pc = m.regs.pc :=
  setReg_pc _ r _

@[simp] theorem adjustPair_pc (p : Pair) (f : UInt16 → UInt16) :
    (m.adjustPair p f).regs.pc = m.regs.pc :=
  setPair_pc _ p _

end ProgramCounter

end Machine

end Intel8080
