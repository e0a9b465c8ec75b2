import Intel8080.Proofs.Json.Fields
import Intel8080.Proofs.Json.RoundTrip
import Intel8080.Proofs.Machine.Bookkeeping
import Intel8080.Snapshot

/-!
# Snapshots keep the machine

The text of a snapshot reads back as the machine that it was taken of, without what belongs to the
host: its traps, the output and the reports (`parse?_compact`). Each structure is written with its
fields in the order in which reading asks for them, so one lemma about objects serves them all
(`allFields?_record`). What is left out is bookkeeping, so without traps the machine goes on as if
it had never been away (`after_sameCourse`).
-/
namespace Intel8080

namespace Snapshot

open Json

section Values

theorem asUInt8?_byte (b : UInt8) : (byte b).asUInt8? = some b :=
  asUInt8?_eq_some_iff.2 rfl

theorem asUInt16?_word (w : UInt16) : (word w).asUInt16? = some w :=
  asUInt16?_eq_some_iff.2 rfl

theorem asUInt32?_nat (n : UInt32) : (Json.nat n.toNat).asUInt32? = some n :=
  asUInt32?_eq_some_iff.2 rfl

theorem asUInt64?_nat (n : UInt64) : (Json.nat n.toNat).asUInt64? = some n :=
  asUInt64?_eq_some_iff.2 rfl

theorem flags?_flags (f : Flags) : flags? (flags f) = some f := by
  rw [flags?, flags, allFields?_record]
  · rfl
  · rfl
  · decide

/-- Each part that is written is read back: registers, memory, state and last instruction. -/
theorem registers?_registers (r : Registers) : registers? (registers r) = some r := by
  rw [registers?, registers, allFields?_record]
  · simp only [List.map_cons, List.map_nil, asUInt8?_byte, asUInt16?_word, flags?_flags]
    rfl
  · rfl
  · decide

/-- The bytes of a memory fill it. -/
theorem ofList_toList (m : Memory) : Memory.ofList m.toList = .ok m := by
  have size : m.toList.toArray.size = 65536 := by
    rw [List.size_toArray, Memory.toList, Vector.length_toList]
  rw [Memory.ofList, dif_pos size]
  congr

theorem memory?_memory (m : Memory) : memory? (memory m) = some m := by
  have bytes : (m.toList.map byte).mapM asUInt8? = some m.toList :=
    mapM_map_eq_some fun b _ => asUInt8?_byte b
  simp only [memory?, memory, bytes, ofList_toList]
  rfl

theorem state?_state (s : RunState) : state? (state s) = some s := by
  cases s <;> rfl

theorem operand?_operand (o : Operand) : operand? (operand o) = some o := by
  cases o with
  | none => rfl
  | byte b =>
    have content : variant? (operand (.byte b)) = some ("Byte", some (byte b)) := rfl
    rw [operand?, content]
    simp [asUInt8?_byte]
  | word w =>
    have content : variant? (operand (.word w)) = some ("Word", some (word w)) := rfl
    rw [operand?, content]
    simp [asUInt16?_word]

theorem instruction?_instruction (i : Instruction) : instruction? (instruction i) = some i := by
  rw [instruction?, instruction, allFields?_record]
  · simp only [List.map_cons, List.map_nil, asUInt8?_byte, asUInt16?_word, operand?_operand]
    rfl
  · rfl
  · decide

end Values

section Machines

variable {η : Type}

/-- A machine without what belongs to the host: its traps, the output and the reports. -/
def persisted (m : Machine η) : Machine η :=
  { m with traps := .empty, console := #[], reports := #[], reportCount := 0 }

def parse? (text : String) : Option (Machine η) := (Json.read text).bind toMachine?

/-- A snapshot gives the machine back but for what belongs to the host. -/
theorem toMachine?_ofMachine (m : Machine η) : toMachine? (ofMachine m) = some (persisted m) := by
  rw [toMachine?, ofMachine, allFields?_record]
  · have last : optional? instruction? (ofOption instruction m.lastInstruction) =
        some m.lastInstruction :=
      optional?_ofOption instruction?_instruction (fun _ null => nomatch null) _
    have loadedEnd : optional? asUInt32? (ofOption (fun n => .nat n.toNat) m.loadedEnd) =
        some m.loadedEnd :=
      optional?_ofOption asUInt32?_nat (fun _ null => nomatch null) _
    simp only [fields, List.map_cons, List.map_nil, registers?_registers, memory?_memory,
      state?_state, asUInt64?_nat, Option.getD_some, loadedEnd, last]
    rfl
  · rfl
  · decide

theorem isPlain_flags (f : Flags) : (flags f).IsPlain := by
  apply isPlain_record
  simp [IsPlain.bool]

theorem isPlain_registers (r : Registers) : (registers r).IsPlain := by
  apply isPlain_record
  simp [byte, word, IsPlain.nat, isPlain_flags]

theorem isPlain_memory (m : Memory) : (memory m).IsPlain := by
  refine .array fun item member => ?_
  obtain ⟨b, -, rfl⟩ := List.mem_map.1 member
  exact .nat b.toNat

theorem isPlain_operand (o : Operand) : (operand o).IsPlain := by
  cases o with
  | none => exact .string "None"
  | byte b =>
    apply isPlain_record
    simp [byte, IsPlain.nat]
  | word w =>
    apply isPlain_record
    simp [word, IsPlain.nat]

theorem isPlain_instruction (i : Instruction) : (instruction i).IsPlain := by
  apply isPlain_record
  simp [byte, word, IsPlain.nat, isPlain_operand]

/-- Nothing in a snapshot needs more of the notation than naturals and plain strings. -/
theorem isPlain_fields (m : Machine η) : ∀ field ∈ fields m, field.2.IsPlain := by
  have state : (state m.state).IsPlain := .string _
  have loadedEnd : (ofOption (fun n : UInt32 => .nat n.toNat) m.loadedEnd).IsPlain :=
    isPlain_ofOption (fun n : UInt32 => .nat n.toNat) _
  have last := isPlain_ofOption isPlain_instruction m.lastInstruction
  simp [fields, isPlain_registers, isPlain_memory, IsPlain.bool, IsPlain.nat, state, loadedEnd,
    last]

/-- The text of a snapshot reads back as the machine without its host's side. -/
theorem parse?_ofMachine (m : Machine η) :
    parse? (ofMachine m).compact = some (persisted m) := by
  have read : Json.read (ofMachine m).compact = some (ofMachine m) :=
    read_compact (isPlain_record (isPlain_fields m))
  rw [parse?, read, Option.bind_some, toMachine?_ofMachine]

end Machines

section Refusal

/-- An array of cells where a snapshot has its memory: under that name or, if the snapshot is
itself an array, in second place. -/
inductive HoldsMemory (cells : List Json) : Json → Prop where
  | named {members : List (Option String × Json)} (member : (some "mem", .array cells) ∈ members) :
    HoldsMemory cells (.object members)
  | second {items : List Json} (item : items[1]? = some (.array cells)) :
    HoldsMemory cells (.array items)

/-- Cells that are read as bytes were written as bytes. -/
theorem eq_map_of_mapM {cells : List Json} {bytes : List UInt8}
    (values : cells.mapM asUInt8? = some bytes) : cells = bytes.map byte := by
  induction cells generalizing bytes with
  | nil =>
    cases values
    rfl
  | cons cell rest ih =>
    rw [List.mapM_cons] at values
    obtain ⟨b, first, values⟩ := Option.bind_eq_some_iff.1 values
    obtain ⟨others, behind, whole⟩ := Option.bind_eq_some_iff.1 values
    cases whole
    rw [asUInt8?_eq_some_iff.1 first, ih behind, List.map_cons, byte]

/-- Memory made of bytes has them. -/
theorem toList_of_ofList {bytes : List UInt8} {m : Memory} (filled : Memory.ofList bytes = .ok m) :
    m.toList = bytes := by
  rw [Memory.ofList] at filled
  split at filled
  · cases filled
    rfl
  · cases filled

/-- A memory reads back from nothing else than what is written for it. -/
theorem eq_memory_of_memory? {j : Json} {m : Memory} (value : memory? j = some m) :
    j = memory m := by
  cases j with
  | array cells =>
    rw [memory?] at value
    split at value
    · rename_i bytes values
      have filled : Memory.ofList bytes = .ok m := by
        cases read : Memory.ofList bytes with
        | ok m' =>
          rw [read] at value
          exact congrArg _ (Option.some.inj value)
        | error e =>
          rw [read] at value
          cases value
      rw [eq_map_of_mapM values, ← toList_of_ofList filled, memory]
    · cases value
  | _ => cases value

/-- A name that is taken only once belongs to one value. -/
theorem eq_of_member? {members : List (Option String × Json)} {name : String} {value other : Json}
    (only : member? members name = some (some value)) (belongs : (some name, other) ∈ members) :
    other = value := by
  have among : (some name, other) ∈ members.filter fun member => member.1 == some name :=
    List.mem_filter.2 ⟨belongs, beq_self_eq_true _⟩
  rw [member?] at only
  split at only
  · cases only
  · rename_i member single
    rw [single, List.mem_singleton] at among
    cases only
    rw [← among]
  · cases only

/-- What a snapshot reads as has the memory that stands in it. -/
theorem memory?_of_toMachine? {η : Type} {j : Json} {m : Machine η} {cells : List Json}
    (read : toMachine? j = some m) (holds : HoldsMemory cells j) :
    memory? (.array cells) = some m.mem := by
  rw [toMachine?] at read
  split at read
  · rename_i regs mem s enabled steps loadedEnd last found
    have taken : memory? mem = some m.mem := by
      simp only [Option.bind_eq_bind, Option.bind_eq_some_iff] at read
      obtain ⟨_, -, _, taken, _, -, _, -, _, -, _, -, _, -, made⟩ := read
      cases made
      exact taken
    rw [← taken]
    cases holds with
    | @named members member =>
      rw [allFields?, fields?] at found
      · split at found
        · simp only [List.mapM_cons, Option.bind_eq_bind, Option.bind_eq_some_iff] at found
          obtain ⟨_, -, _, ⟨_, only, _, -, part⟩, whole⟩ := found
          cases part
          cases whole
          rw [eq_of_member? only member]
        · cases found
      · intro items object
        cases object
    | @second items item =>
      rw [allFields?] at found
      split at found
      · have second := congrArg (·[1]?) (Option.some.inj found)
        simp only [List.getElem?_map, item] at second
        cases second
        rfl
      · cases found
  · cases read

/-- A snapshot whose memory has another number of cells, or a cell that is no byte, is refused. -/
theorem toMachine?_eq_none {η : Type} {j : Json} {cells : List Json} (holds : HoldsMemory cells j)
    (bad : cells.length ≠ 65536 ∨ ∃ cell ∈ cells, ∀ b : UInt8, cell ≠ .nat b.toNat) :
    toMachine? (η := η) j = none := by
  rw [Option.eq_none_iff_forall_ne_some]
  intro m read
  have filled := eq_memory_of_memory? (memory?_of_toMachine? read holds)
  rw [memory, array.injEq] at filled
  rcases bad with size | ⟨cell, member, noByte⟩
  · rw [filled, List.length_map, Memory.toList, Vector.length_toList] at size
    exact size rfl
  · rw [filled] at member
    obtain ⟨b, -, rfl⟩ := List.mem_map.1 member
    exact noByte b rfl

end Refusal

end Snapshot

namespace Machine

variable {η : Type}

/-- Machines without traps that agree on all that execution reads, and on the step counter and the
end of the program as well. -/
structure SameCourse (m other : Machine η) : Prop where
  alike : Alike m other
  steps : other.steps = m.steps
  loadedEnd : other.loadedEnd = m.loadedEnd
  untrapped : m.traps = .empty

/-- A step reads nothing that a snapshot leaves out. -/
theorem next_sameCourse [TrapHandler η] {m other : Machine η} (same : SameCourse m other) :
    SameCourse m.next other.next := by
  by_cases running : m.state = .running
  · have runningHere : other.state = .running := same.alike.state.trans running
    have free := answering?_of_untrapped same.untrapped m.nextOperation
    have freeHere := answering?_of_untrapped (same.alike.traps.trans same.untrapped)
      other.nextOperation
    refine ⟨?_, ?_, ?_, ?_⟩
    · have exchanged : (m.withBooks other).next = m.next.withBooks
          ((other.note m.regs.pc m.nextOperation).book m.nextInstruction) := by
        rw [next_of_running (m.withBooks other) running, next_of_running m running]
        exact congrArg (book · m.nextInstruction) (execute_withBooks m other m.nextOperation free)
      rw [same.alike.eq_withBooks, exchanged]
      exact alike_withBooks _ _
    · rw [next_free m running free, next_free other runningHere freeHere]
      exact congrArg (· + 1) same.steps
    · rw [next_free m running free, next_free other runningHere freeHere]
      exact same.loadedEnd
    · rw [next_free m running free]
      exact same.untrapped
  · have rest : other.state ≠ .running := by
      rw [same.alike.state]
      exact running
    rw [next_of_not_running m running, next_of_not_running other rest]
    exact same

/-- So machines on one course stay on it. -/
theorem after_sameCourse [TrapHandler η] {m other : Machine η} (same : SameCourse m other)
    (n : Nat) : SameCourse (m.after n) (other.after n) := by
  induction n with
  | zero => exact same
  | succ n ih =>
    rw [after_succ_eq_next, after_succ_eq_next]
    exact next_sameCourse ih

end Machine

namespace Snapshot

open Json

variable {η : Type}

theorem sameCourse_persisted {m : Machine η} (untrapped : m.traps = .empty) :
    Machine.SameCourse m (persisted m) :=
  ⟨⟨rfl, rfl, rfl, untrapped.symm⟩, rfl, rfl, untrapped⟩

/-- The text of a snapshot reads back as the machine without the host's side, whose snapshot is the
same text. A machine without traps and the one read back go the same way. A text whose memory has
another number of cells than 65536, or a cell that is no byte, is refused. -/
theorem parse?_compact [TrapHandler η] (m : Machine η) :
    parse? (ofMachine m).compact = some (persisted m) ∧
    (ofMachine (persisted m)).compact = (ofMachine m).compact ∧
    (m.traps = .empty → ∀ n,
      ((persisted m).after n).regs = (m.after n).regs ∧
      ((persisted m).after n).mem = (m.after n).mem ∧
      ((persisted m).after n).state = (m.after n).state ∧
      ((persisted m).after n).steps = (m.after n).steps ∧
      ((persisted m).after n).programEnd = (m.after n).programEnd) ∧
    ∀ (text : String) (j : Json) (cells : List Json), Json.read text = some j →
      HoldsMemory cells j →
      (cells.length ≠ 65536 ∨ ∃ cell ∈ cells, ∀ b : UInt8, cell ≠ .nat b.toNat) →
        (parse? text : Option (Machine η)) = none := by
  refine ⟨parse?_ofMachine m, rfl, fun untrapped n => ?_, fun text j cells read holds bad => ?_⟩
  · have same := Machine.after_sameCourse (sameCourse_persisted untrapped) n
    refine ⟨same.alike.regs, same.alike.mem, same.alike.state, same.steps, ?_⟩
    rw [Machine.programEnd, Machine.programEnd, same.loadedEnd]
  · rw [parse?, read, Option.bind_some, toMachine?_eq_none holds bad]

/-- In front of the adjustment in `MVI A,99`, `ADI 01`, `DAA` and `HLT`, long after the start, with
output and a report that the host has not taken. -/
def beforeAdjustment : Machine Service :=
  { Machine.new with
    regs := { Registers.zero with a := 0x9A, pc := 0x0004 }
    mem := Memory.zero.writeBytes 0 [0x3E, 0x99, 0xC6, 0x01, 0x27, 0x76]
    interruptsEnabled := true
    steps := 0xFFFFFFFFFFFFFF00
    loadedEnd := some 6
    console := #[0x3F]
    reports := #[⟨0x2000, 0xDB⟩]
    reportCount := 1
    lastInstruction := some ⟨0x0002, 0xC6, .byte 0x01⟩ }

/-- Its snapshot with one cell of memory too large for a byte. -/
def overfull : Json :=
  .record ((fields beforeAdjustment).map fun field =>
    if field.1 = "mem" then ("mem", .array (.nat 256 :: List.replicate 65535 (.nat 0))) else field)

theorem isPlain_overfull : overfull.IsPlain := by
  apply isPlain_record
  intro field member
  obtain ⟨before, among, rfl⟩ := List.mem_map.1 member
  split
  · refine .array fun cell inside => ?_
    rcases List.mem_cons.1 inside with rfl | zero
    · exact .nat 256
    · rw [List.eq_of_mem_replicate zero]
      exact .nat 0
  · exact isPlain_fields beforeAdjustment before among

/-- The machine comes back without its output and with its counters, and both copies go the same
way. One cell too large for a byte spoils the snapshot. -/
theorem parse?_beforeAdjustment :
    beforeAdjustment.traps = .empty ∧
    (∃ back : Machine Service,
      parse? (ofMachine beforeAdjustment).compact = some back ∧ back.console = #[] ∧
      back.steps = 0xFFFFFFFFFFFFFF00 ∧ back.lastInstruction = some ⟨0x0002, 0xC6, .byte 0x01⟩ ∧
      (back.after 2).state = .halted ∧ (back.after 2).regs.a = 0x00 ∧
      (back.after 2).steps = 0xFFFFFFFFFFFFFF02 ∧ (back.after 2).programEnd = 6) ∧
    (parse? overfull.compact : Option (Machine Service)) = none := by
  obtain ⟨back, -, course, refused⟩ := parse?_compact beforeAdjustment
  obtain ⟨regs, -, state, steps, programEnd⟩ := course rfl 2
  refine ⟨rfl, ⟨_, back, rfl, rfl, rfl, ?_, ?_, ?_, ?_⟩, ?_⟩
  · exact state.trans (by decide +kernel)
  · exact (congrArg Registers.a regs).trans (by decide +kernel)
  · exact steps.trans (by decide +kernel)
  · exact programEnd.trans (by decide +kernel)
  · refine refused overfull.compact overfull (.nat 256 :: List.replicate 65535 (.nat 0))
      (read_compact isPlain_overfull) ?_ (.inr ⟨.nat 256, List.mem_cons_self, ?_⟩)
    · exact .named (List.mem_of_getElem? (i := 1) rfl)
    · intro b same
      have := b.toNat_lt
      rw [nat.injEq] at same
      omega

end Snapshot

end Intel8080
