import Intel8080.Listing
import Intel8080.Proofs.Memory

/-!
# A listing sweeps its image

`Sweep` says how bytes are cut into lines: instruction after instruction, each as long as its
opcode asks for, and byte by byte what is left of an instruction that the end cuts off. The lines
of an image are such a sweep of it (`sweep_lines`), although they are taken from a memory that goes
on behind the image. What holds of every sweep then holds of every listing: no byte is lost, each
address is the first one plus the bytes in front of it, and bytes on lines of their own are at most
two and stand at the end.
-/
namespace Intel8080

theorem Operation.operandSize_le (o : Operation) : o.operandSize ≤ 2 := by
  unfold operandSize
  split <;> decide

namespace Instruction

/-- The bytes of a decoded instruction stand in memory, as many as its size says. -/
theorem bytes_decode (mem : Memory) (address : UInt16) :
    (decode mem address).bytes =
      (List.range (decode mem address).size).map fun i => mem.read (address + UInt16.ofNat i) := by
  have third : address + 1 + 1 = address + 2 := (add_ofNat_add address 1 1).symm
  have few := (Opcode.operation (mem.read address)).operandSize_le
  rcases size : (Opcode.operation (mem.read address)).operandSize with _ | _ | _ | n
  · simp [decode, bytes, Instruction.size, Opcode.size_eq, Operation.size, size, List.range_succ]
  · simp [decode, bytes, Instruction.size, Opcode.size_eq, Operation.size, size, List.range_succ]
  · simp [decode, bytes, Instruction.size, Opcode.size_eq, Operation.size, size, List.range_succ,
      Memory.readWord, third]
  · omega

/-- An instruction in memory has as many bytes as the table says. -/
theorem length_bytes_decode (mem : Memory) (address : UInt16) :
    (decode mem address).bytes.length = (decode mem address).size := by
  rw [bytes_decode, List.length_map, List.length_range]

/-- Decoding takes its bytes from the front of what stands in memory, if there are enough. -/
theorem bytes_decode_of_holds {mem : Memory} {address : UInt16} {bytes : List UInt8}
    (holds : mem.Holds address bytes) (whole : (decode mem address).size ≤ bytes.length) :
    (decode mem address).bytes = bytes.take (decode mem address).size := by
  apply List.ext_getElem
  · rw [length_bytes_decode, List.length_take, Nat.min_eq_left whole]
  · intro i inside _
    rw [length_bytes_decode] at inside
    simp only [bytes_decode, List.getElem_map, List.getElem_range, List.getElem_take]
    exact holds i (Nat.lt_of_lt_of_le inside whole)

/-- The opcode comes first. -/
theorem exists_bytes (i : Instruction) : ∃ operands, i.bytes = i.opcode :: operands := by
  unfold bytes
  split <;> exact ⟨_, rfl⟩

theorem size_pos (i : Instruction) : 0 < i.size := by
  rw [size, Opcode.size_eq, Operation.size]
  exact Nat.lt_of_lt_of_le Nat.one_pos (Nat.le_add_right _ _)

theorem size_le (i : Instruction) : i.size ≤ 3 := by
  rw [size, Opcode.size_eq, Operation.size]
  exact Nat.add_le_add_left (Opcode.operation i.opcode).operandSize_le 1

end Instruction

namespace Listing

/-- How bytes at an address are cut into lines. -/
inductive Sweep : UInt16 → List UInt8 → List Line → Prop where
  | done (address : UInt16) : Sweep address [] []
  /-- An instruction of which every byte is there. -/
  | instruction {i : Instruction} {rest : List UInt8} {lines : List Line}
    (whole : i.bytes.length = i.size)
    (others : Sweep (i.address + UInt16.ofNat i.size) rest lines) :
    Sweep i.address (i.bytes ++ rest) (.instruction i :: lines)
  /-- An instruction that the end cuts off. -/
  | cut (address : UInt16) {opcode : UInt8} {rest : List UInt8}
    (short : (opcode :: rest).length < Opcode.size opcode) :
    Sweep address (opcode :: rest) (dataLines address (opcode :: rest))

theorem appendLines_cons (mem : Memory) (lines : Array Line) (fuel : Nat) (address : UInt16)
    (opcode : UInt8) (rest : List UInt8) :
    appendLines mem lines (fuel + 1) address (opcode :: rest).length =
      if (opcode :: rest).length < (Instruction.decode mem address).size then
        lines ++ dataLines address (mem.bytesFrom address (opcode :: rest).length)
      else
        appendLines mem (lines.push (.instruction (Instruction.decode mem address))) fuel
          (address + UInt16.ofNat (Instruction.decode mem address).size)
          ((opcode :: rest).length - (Instruction.decode mem address).size) :=
  rfl

/-- The lines appended for bytes that stand in memory are a sweep of them. -/
theorem sweep_appendLines {mem : Memory} (lines : Array Line) {fuel : Nat} {address : UInt16}
    {bytes : List UInt8} (enough : bytes.length ≤ fuel) (holds : mem.Holds address bytes)
    (fits : bytes ≠ [] → address.toNat + bytes.length ≤ 65536) :
    ∃ behind, (appendLines mem lines fuel address bytes.length).toList = lines.toList ++ behind ∧
      Sweep address bytes behind := by
  induction fuel generalizing lines address bytes with
  | zero =>
    cases List.eq_nil_of_length_eq_zero (Nat.le_zero.1 enough)
    exact ⟨[], (List.append_nil _).symm, .done address⟩
  | succ fuel ih =>
    cases bytes with
    | nil => exact ⟨[], (List.append_nil _).symm, .done address⟩
    | cons opcode rest =>
      have room := fits (List.cons_ne_nil opcode rest)
      have first : (Instruction.decode mem address).opcode = opcode := holds.head
      rw [appendLines_cons]
      split
      next short =>
        refine ⟨dataLines address (opcode :: rest), ?_, .cut address ?_⟩
        · rw [holds.bytesFrom room, Array.toList_appendList]
        · rwa [Instruction.size, first] at short
      next whole =>
        have whole := Nat.le_of_not_lt whole
        have taken := Instruction.bytes_decode_of_holds holds whole
        have positive := (Instruction.decode mem address).size_pos
        have left : (opcode :: rest).length - (Instruction.decode mem address).size =
            ((opcode :: rest).drop (Instruction.decode mem address).size).length :=
          List.length_drop.symm
        have fewer : ((opcode :: rest).drop (Instruction.decode mem address).size).length ≤
            fuel := by
          rw [List.length_drop]
          omega
        rw [left]
        obtain ⟨behind, appended, others⟩ := ih
          (lines.push (.instruction (Instruction.decode mem address))) fewer (holds.drop _) (by
            intro more
            rw [Ne, List.drop_eq_nil_iff] at more
            rw [List.length_drop, toNat_add_ofNat (by omega)]
            omega)
        refine ⟨.instruction (Instruction.decode mem address) :: behind, ?_, ?_⟩
        · rw [appended, Array.toList_push, List.append_assoc, List.singleton_append]
        · have sweep := Sweep.instruction (Instruction.length_bytes_decode mem address) others
          rwa [taken, List.take_append_drop] at sweep

/-- How many bytes of an image fit below the top of memory. -/
def room (image : List UInt8) (base : UInt16) : Nat := min image.length (memorySize - base.toNat)

theorem length_take_room (image : List UInt8) (base : UInt16) :
    (image.take (room image base)).length = room image base := by
  rw [List.length_take, room]
  omega

/-- What is listed lies below the top of memory. -/
theorem room_le (image : List UInt8) (base : UInt16) : base.toNat + room image base ≤ 65536 := by
  have below := base.toNat_lt
  rw [room, memorySize]
  omega

/-- The lines of an image are a sweep of as much of it as fits below the top of memory. -/
theorem sweep_lines (image : List UInt8) (base : UInt16) :
    Sweep base (image.take (room image base)) (lines image base) := by
  have length := length_take_room image base
  have fits := room_le image base
  have holds := Memory.holds_writeBytes Memory.zero base
    (show (image.take (room image base)).length ≤ 65536 by rw [length]; omega)
  obtain ⟨behind, appended, sweep⟩ :=
    sweep_appendLines #[] (Nat.le_of_eq length) holds (fun _ => by rwa [length])
  rw [length, List.nil_append] at appended
  have same : lines image base = behind := appended
  rwa [same]

/-- Data lines lose no byte. -/
theorem flatMap_bytes_dataLines (address : UInt16) (bytes : List UInt8) :
    (dataLines address bytes).flatMap Line.bytes = bytes := by
  induction bytes generalizing address with
  | nil => rfl
  | cons b rest ih =>
    rw [dataLines, List.flatMap_cons, ih]
    rfl

/-- What a line has in front of it, split at the first line. -/
theorem address_cons {address : UInt16} {first : Line} {others : List Line}
    (start : first.address = address)
    (behind : ∀ before l after, others = before ++ l :: after →
      l.address = address + UInt16.ofNat first.bytes.length +
        UInt16.ofNat (before.flatMap Line.bytes).length)
    {before : List Line} {l : Line} {after : List Line}
    (place : first :: others = before ++ l :: after) :
    l.address = address + UInt16.ofNat (before.flatMap Line.bytes).length := by
  cases before with
  | nil =>
    cases place
    rw [start, List.flatMap_nil, List.length_nil, add_ofNat_zero]
  | cons b before =>
    rw [List.cons_append, List.cons.injEq] at place
    obtain ⟨rfl, place⟩ := place
    rw [behind before l after place, List.flatMap_cons, List.length_append, add_ofNat_add]

theorem address_dataLines {address : UInt16} {bytes : List UInt8} {before : List Line} {l : Line}
    {after : List Line} (place : dataLines address bytes = before ++ l :: after) :
    l.address = address + UInt16.ofNat (before.flatMap Line.bytes).length := by
  induction bytes generalizing address before l after with
  | nil => simp [dataLines] at place
  | cons b rest ih =>
    exact address_cons rfl (fun before l after place => ih place) place

/-- No byte is lost. -/
theorem Sweep.flatMap_bytes {address : UInt16} {bytes : List UInt8} {lines : List Line}
    (sweep : Sweep address bytes lines) : lines.flatMap Line.bytes = bytes := by
  induction sweep with
  | done address => rfl
  | instruction whole others ih => rw [List.flatMap_cons, ih]; rfl
  | cut address short => exact flatMap_bytes_dataLines address _

/-- The address of a line is the first one plus the bytes in front of the line. -/
theorem Sweep.address_eq {address : UInt16} {bytes : List UInt8} {lines : List Line}
    (sweep : Sweep address bytes lines) {before : List Line} {l : Line} {after : List Line}
    (place : lines = before ++ l :: after) :
    l.address = address + UInt16.ofNat (before.flatMap Line.bytes).length := by
  induction sweep generalizing before l after with
  | done address => simp at place
  | @instruction i rest lines whole others ih =>
    refine address_cons rfl (fun before l after place => ?_) place
    rw [ih place, ← whole]
    rfl
  | cut address short => exact address_dataLines place

/-- The end of the bytes cuts off an instruction. -/
inductive CutOff : List UInt8 → Prop where
  | here {opcode : UInt8} {rest : List UInt8}
    (short : (opcode :: rest).length < Opcode.size opcode) : CutOff (opcode :: rest)
  | behind {opcode : UInt8} {rest : List UInt8}
    (whole : Opcode.size opcode ≤ (opcode :: rest).length)
    (others : CutOff ((opcode :: rest).drop (Opcode.size opcode))) : CutOff (opcode :: rest)

theorem not_cutOff_nil : ¬ CutOff [] := nofun

/-- An instruction that is there does not matter for what the end cuts off. -/
theorem cutOff_bytes_append {i : Instruction} (whole : i.bytes.length = i.size)
    (rest : List UInt8) : CutOff (i.bytes ++ rest) ↔ CutOff rest := by
  obtain ⟨operands, split⟩ := i.exists_bytes
  have enough : Opcode.size i.opcode ≤ (i.opcode :: (operands ++ rest)).length := by
    rw [← List.cons_append, ← split, List.length_append, whole]
    exact Nat.le_add_right _ _
  have left : (i.opcode :: (operands ++ rest)).drop (Opcode.size i.opcode) = rest := by
    rw [← List.cons_append, ← split]
    exact List.drop_left' whole
  rw [split, List.cons_append]
  constructor
  · intro cut
    cases cut with
    | here short => exact absurd enough (Nat.not_le_of_lt short)
    | behind _ others => rwa [left] at others
  · exact fun others => .behind enough (by rwa [left])

/-- A sweep is instructions that are there and, behind them, the bytes of at most one that is cut
off. -/
theorem Sweep.exists_tail {address : UInt16} {bytes : List UInt8} {lines : List Line}
    (sweep : Sweep address bytes lines) :
    ∃ (complete : List Instruction) (start : UInt16) (rest : List UInt8),
      lines = complete.map .instruction ++ dataLines start rest ∧
        (∀ i ∈ complete, i.bytes.length = i.size) ∧ rest.length ≤ 2 ∧
        (rest ≠ [] ↔ CutOff bytes) := by
  induction sweep with
  | done address => exact ⟨[], address, [], rfl, nofun, Nat.zero_le 2, by simp [not_cutOff_nil]⟩
  | @instruction i rest lines whole others ih =>
    obtain ⟨complete, start, tail, rfl, sizes, few, cut⟩ := ih
    refine ⟨i :: complete, start, tail, rfl, ?_, few, ?_⟩
    · exact List.forall_mem_cons.2 ⟨whole, sizes⟩
    · rw [cut, cutOff_bytes_append whole]
  | @cut address opcode rest short =>
    have most := (Opcode.operation opcode).operandSize_le
    refine ⟨[], address, opcode :: rest, rfl, nofun, ?_, ?_⟩
    · rw [Opcode.size_eq, Operation.size] at short
      omega
    · simp [CutOff.here short]

end Listing

end Intel8080
