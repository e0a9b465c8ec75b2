import Intel8080.Proofs.Listing.Rows
import Intel8080.Proofs.Machine.RunState

/-!
# A listing agrees with execution

A listing walks over bytes by the sizes of their opcodes, a machine by what each operation consumes.
Where no instruction leaves the sequence the two walks are one: as long as the bytes stand where
they stood, the machine executes the lines of the listing one after another (`Sweep.step_lines`).
Instructions may store what they like elsewhere.
-/
namespace Intel8080

/-- The machine goes on running, behind the instruction, whatever the flags are. -/
def Operation.isStraight : Operation → Bool
  | .hlt | .jump _ | .call _ | .ret _ | .rst _ | .pchl => false
  | _ => true

theorem Memory.Holds.left {m : Memory} {address : UInt16} {bytes rest : List UInt8}
    (holds : m.Holds address (bytes ++ rest)) : m.Holds address bytes := by
  intro i inside
  have longer : i < (bytes ++ rest).length := by
    rw [List.length_append]
    omega
  rw [holds i longer, List.getElem_append_left inside]

theorem Memory.Holds.right {m : Memory} {address : UInt16} {bytes rest : List UInt8}
    (holds : m.Holds address (bytes ++ rest)) :
    m.Holds (address + UInt16.ofNat bytes.length) rest := by
  have behind := holds.drop bytes.length
  rwa [List.drop_left] at behind

/-- Bytes that make up an instruction are decoded as that instruction. -/
theorem Instruction.decode_of_holds {i : Instruction} {mem : Memory}
    (whole : i.bytes.length = i.size) (holds : mem.Holds i.address i.bytes) :
    decode mem i.address = i := by
  obtain ⟨address, opcode, operand⟩ := i
  have read (n : Nat) (b : UInt8) (found : (bytes ⟨address, opcode, operand⟩)[n]? = some b) :
      mem.read (address + UInt16.ofNat n) = b := by
    obtain ⟨inside, rfl⟩ := List.getElem?_eq_some_iff.1 found
    exact holds n inside
  have first : mem.read address = opcode := by
    rw [← add_ofNat_zero address]
    exact read 0 opcode (by cases operand <;> rfl)
  rw [Instruction.size, Opcode.size_eq, Operation.size] at whole
  rw [decode_eq, first, Operation.operandAt]
  cases operand with
  | none =>
    have size : (Opcode.operation opcode).operandSize = 0 := (Nat.add_left_cancel whole).symm
    rw [size]
    rfl
  | byte b =>
    have size : (Opcode.operation opcode).operandSize = 1 := (Nat.add_left_cancel whole).symm
    have second : mem.read (address + 1) = b := read 1 b rfl
    rw [size]
    change Instruction.mk address opcode (.byte (mem.read (address + 1))) = _
    rw [second]
  | word w =>
    have size : (Opcode.operation opcode).operandSize = 2 := (Nat.add_left_cancel whole).symm
    have low : mem.read (address + 1) = lowByte w := read 1 _ rfl
    have high : mem.read (address + 1 + 1) = highByte w := by
      rw [add_one_add_one]
      exact read 2 _ rfl
    rw [size]
    change Instruction.mk address opcode (.word (wordOf (mem.read (address + 1 + 1)) _)) = _
    rw [low, high, wordOf_bytes]

namespace Machine

variable {η : Type}

/-- A straight instruction is followed by the one behind it. -/
theorem leavesSequence_of_isStraight (m : Machine η) {o : Operation}
    (straight : o.isStraight = true) : m.leavesSequence o = false := by
  cases o <;> first | rfl | cases straight

/-- No handler answers it. -/
theorem answering?_of_isStraight (m : Machine η) {o : Operation} (straight : o.isStraight = true) :
    m.answering? o = none := by
  cases o <;> first | rfl | cases straight

/-- After a straight instruction the machine is running and in front of what follows it. -/
theorem next_of_isStraight [TrapHandler η] (m : Machine η) (running : m.state = .running)
    (straight : m.nextOperation.isStraight = true) :
    m.next.state = .running ∧
      m.next.regs.pc = m.regs.pc + UInt16.ofNat m.nextInstruction.size := by
  have going : m.nextOperation ≠ .hlt := by
    intro halt
    rw [halt] at straight
    cases straight
  rw [next_of_running m running]
  exact ⟨(execute_state m _ (m.answering?_of_isStraight straight) going).trans running,
    execute_nextOperation_pc m (m.leavesSequence_of_isStraight straight)⟩

end Machine

namespace Listing

open Machine

variable {η : Type} [TrapHandler η]

/-- While the bytes of a sweep stand in memory, a machine in front of them executes its lines. -/
theorem Sweep.step_lines {address : UInt16} {bytes : List UInt8} {lines : List Line}
    (sweep : Sweep address bytes lines) {m : Machine η} {n : Nat} (running : m.state = .running)
    (start : m.regs.pc = address) (held : ∀ k < n, (m.after k).mem.Holds address bytes)
    (straight : ∀ k < n, ∃ i, lines[k]? = some (.instruction i) ∧
      (Opcode.operation i.opcode).isStraight = true) :
    ∀ k < n, ∃ i, lines[k]? = some (.instruction i) ∧
      (m.after k).step = .ok (i, m.after (k + 1)) := by
  induction sweep generalizing m n with
  | done address =>
    intro k below
    obtain ⟨i, none, -⟩ := straight k below
    cases none
  | @instruction i rest lines whole others ih =>
    intro k below
    have here := held 0 (Nat.zero_lt_of_lt below)
    obtain ⟨_, first, goes⟩ := straight 0 (Nat.zero_lt_of_lt below)
    cases first
    have decoded : m.nextInstruction = i := by
      rw [nextInstruction, start]
      exact Instruction.decode_of_holds whole here.left
    have operation : m.nextOperation = Opcode.operation i.opcode := by
      rw [← decoded]
      rfl
    obtain ⟨going, pc⟩ := m.next_of_isStraight running (by rwa [operation])
    rw [start, decoded] at pc
    cases k with
    | zero => exact ⟨i, rfl, decoded ▸ step_eq_next m running⟩
    | succ k =>
      have fewer : k < n - 1 := by omega
      refine ih going pc (fun j less => ?_) (fun j less => straight (j + 1) (by omega)) k fewer
      rw [← whole]
      exact (held (j + 1) (by omega)).right
  | cut address short =>
    intro k below
    obtain ⟨i, first, -⟩ := straight 0 (Nat.zero_lt_of_lt below)
    cases first

/-- The row shows an instruction, not a number, and it is neither a halt nor a transfer. -/
def Row.IsStraight (r : Row) : Prop :=
  ¬ r.IsData ∧ ∀ opcode ∈ r.bytes.head?, (Opcode.operation opcode).isStraight = true

/-- A straight row comes from a whole instruction. -/
theorem exists_instruction_of_isStraight {l : Line} (straight : l.row.IsStraight) :
    ∃ i, l = .instruction i ∧ (Opcode.operation i.opcode).isStraight = true := by
  cases l with
  | instruction i =>
    obtain ⟨operands, split⟩ := i.exists_bytes
    have first : i.opcode ∈ (Line.instruction i).row.bytes.head? := congrArg List.head? split
    exact ⟨i, rfl, straight.2 i.opcode first⟩
  | data address value => exact absurd ⟨value, rfl, rfl⟩ straight.1

/-- Disassembly agrees with execution. Where the first rows of a listing show instructions that do
not leave the sequence, a running machine that holds the image, is in front of it and does not store
into it executes what the rows show, one row after another. -/
theorem step_rows {m : Machine η} {image : List UInt8} {base : UInt16} {rows : List Row} {n : Nat}
    (read : Row.ofListing? (render image base) = some rows)
    (fits : base.toNat + image.length ≤ 65536) (running : m.state = .running)
    (start : m.regs.pc = base) (holds : m.mem.Holds base image) (enough : n ≤ rows.length)
    (straight : ∀ row ∈ rows.take n, row.IsStraight)
    (undisturbed : ∀ k, k + 1 < n → ∀ j < image.length,
      (m.after (k + 1)).mem.read (base + UInt16.ofNat j) =
        (m.after k).mem.read (base + UInt16.ofNat j)) :
    ∀ k < n, ∃ i row, (m.after k).step = .ok (i, m.after (k + 1)) ∧ rows[k]? = some row ∧
      row.address = i.address.toNat ∧ row.bytes = i.bytes ∧ row.text = i.text := by
  rw [Row.ofListing?_render, Option.some.injEq] at read
  subst read
  have sweep := sweep_lines image base
  have whole : image.take (room image base) = image := by
    apply List.take_of_length_le
    rw [room, memorySize]
    omega
  rw [whole] at sweep
  have held : ∀ k < n, (m.after k).mem.Holds base image := by
    intro k
    induction k with
    | zero => exact fun _ => holds
    | succ k ih =>
      intro below j inside
      rw [undisturbed k below j inside]
      exact ih (Nat.lt_of_succ_lt below) j inside
  have lines : ∀ k < n, ∃ i, (lines image base)[k]? = some (.instruction i) ∧
      (Opcode.operation i.opcode).isStraight = true := by
    intro k below
    rw [List.length_map] at enough
    have line : (lines image base)[k]? = some (lines image base)[k] := List.getElem?_eq_getElem _
    have among : (((lines image base).map Line.row).take n)[k]? =
        some (lines image base)[k].row := by
      rw [List.getElem?_take_of_lt below, List.getElem?_map, line]
      rfl
    obtain ⟨i, shown, goes⟩ :=
      exists_instruction_of_isStraight (straight _ (List.mem_of_getElem? among))
    rw [line, shown]
    exact ⟨i, rfl, goes⟩
  intro k below
  obtain ⟨i, line, step⟩ := sweep.step_lines running start held lines k below
  refine ⟨i, (Line.instruction i).row, step, ?_, rfl, rfl, rfl⟩
  rw [List.getElem?_map, line]
  rfl

/-- `MVI A,2A`, `STA 0200`, `INR A` and `HLT`. -/
def storeFarAway : List UInt8 := [0x3E, 0x2A, 0x32, 0x00, 0x02, 0x3C, 0x76]

theorem lines_storeFarAway :
    lines storeFarAway 0x0100 = [
      .instruction ⟨0x0100, 0x3E, .byte 0x2A⟩, .instruction ⟨0x0102, 0x32, .word 0x0200⟩,
      .instruction ⟨0x0105, 0x3C, .none⟩, .instruction ⟨0x0106, 0x76, .none⟩] := by
  decide +kernel

def beforeStore : Machine Service :=
  { Machine.withTraps Service.traps with
    regs := { Registers.zero with pc := 0x0100 }
    mem := Memory.zero.writeBytes 0x0100 storeFarAway }

theorem isStraight_row {i : Instruction} (whole : i.bytes.length = i.size)
    (straight : (Opcode.operation i.opcode).isStraight = true) :
    (Line.instruction i).row.IsStraight := by
  refine ⟨(isInstruction_row whole).not_isData, fun opcode first => ?_⟩
  obtain ⟨operands, split⟩ := i.exists_bytes
  have first : i.bytes.head? = some opcode := first
  rw [split, List.head?_cons, Option.some.injEq] at first
  rwa [← first]

/-- The three instructions in front of the halt are executed as listed, and the byte is stored. -/
theorem step_rows_storeFarAway :
    ∃ rows, Row.ofListing? (render storeFarAway 0x0100) = some rows ∧
      (∀ row ∈ rows.take 3, row.IsStraight) ∧
      (∀ k < 3, ∃ i row, (beforeStore.after k).step = .ok (i, beforeStore.after (k + 1)) ∧
        rows[k]? = some row ∧ row.address = i.address.toNat ∧ row.bytes = i.bytes ∧
        row.text = i.text) ∧
      (beforeStore.after 3).mem.read 0x0200 = 0x2A := by
  have read := Row.ofListing?_render storeFarAway 0x0100
  rw [lines_storeFarAway] at read
  have first : (Line.instruction ⟨0x0100, 0x3E, .byte 0x2A⟩).row.IsStraight :=
    isStraight_row (by decide) rfl
  have second : (Line.instruction ⟨0x0102, 0x32, .word 0x0200⟩).row.IsStraight :=
    isStraight_row (by decide) rfl
  have third : (Line.instruction ⟨0x0105, 0x3C, .none⟩).row.IsStraight :=
    isStraight_row (by decide) rfl
  have straight := List.forall_mem_cons.2 ⟨first, List.forall_mem_cons.2 ⟨second,
    List.forall_mem_singleton.2 third⟩⟩
  have undisturbed : ∀ k < 2, ∀ j < 7,
      (beforeStore.after (k + 1)).mem.read (0x0100 + UInt16.ofNat j) =
        (beforeStore.after k).mem.read (0x0100 + UInt16.ofNat j) := by
    decide +kernel
  refine ⟨_, read, straight, step_rows read (by decide) rfl rfl ?_ (by decide) straight ?_, ?_⟩
  · exact Memory.holds_writeBytes _ _ (by decide)
  · exact fun k below => undisturbed k (Nat.lt_of_succ_lt_succ below)
  · decide +kernel

end Listing

end Intel8080
