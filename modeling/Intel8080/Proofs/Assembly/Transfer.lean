import Intel8080.Proofs.Assembly.Meaning

/-!
# What the transfers of control mean

A transfer is told by the letters of its mnemonic: a jump, call or return starts with J, C or R,
and the letters behind that name the flag it depends on and the value the flag must have. The
meaning of a transfer is given on the data path and the program counter, with the address operand
read from memory behind the opcode before anything is stored.
-/
namespace Intel8080

/-- The data path with the program counter. -/
@[ext]
structure ControlPath extends DataPath where
  pc : UInt16

/-- The address operand of the instruction at the program counter, low byte first. -/
def ControlPath.operand (s : ControlPath) : UInt16 := s.word (s.pc + 1)

namespace Assembly

/-- The ways to transfer control. -/
inductive Transfer where
  | jump | call | ret
  /-- A call of a fixed address, by the number of that address. -/
  | restart (vector : UInt16)
  /-- A jump to the address in `HL`. -/
  | jumpHl
  deriving DecidableEq, Repr

namespace Transfer

/-- Jumps and calls carry their target; the other transfers are a single byte. -/
def size : Transfer → UInt16
  | .jump | .call => 3
  | .ret | .restart _ | .jumpHl => 1

def taken (s : ControlPath) : Transfer → ControlPath
  | .jump => { s with pc := s.operand }
  | .call => { s.push (s.pc + 3) with pc := s.operand }
  | .ret => { s with sp := s.sp + 2, pc := s.word s.sp }
  | .restart vector => { s.push (s.pc + 1) with pc := vector * 8 }
  | .jumpHl => { s with pc := s.hl }

/-- A transfer that is not taken is passed by. -/
def passed (s : ControlPath) (t : Transfer) : ControlPath := { s with pc := s.pc + t.size }

end Transfer

/-- The flag, and its value, that the letters of a condition ask for. -/
def suffixTest : String → Option (Flags → Bool)
  | "NZ" => some fun f => !f.zero
  | "Z" => some fun f => f.zero
  | "NC" => some fun f => !f.carry
  | "C" => some fun f => f.carry
  | "PO" => some fun f => !f.parity
  | "PE" => some fun f => f.parity
  | "P" => some fun f => !f.sign
  | "M" => some fun f => f.sign
  | _ => none

/-- The number that a restart names. -/
def restartVector : String → Option UInt16
  | "0" => some 0 | "1" => some 1 | "2" => some 2 | "3" => some 3
  | "4" => some 4 | "5" => some 5 | "6" => some 6 | "7" => some 7
  | _ => none

/-- A transfer and when it is taken. -/
abbrev Branch := Transfer × (Flags → Bool)

/-- The transfer that a phrase names. -/
def branch? : String × List String → Option Branch
  | ("JMP", []) | ("*JMP", []) => some (.jump, fun _ => true)
  | ("CALL", []) | ("*CALL", []) => some (.call, fun _ => true)
  | ("RET", []) | ("*RET", []) => some (.ret, fun _ => true)
  | ("PCHL", []) => some (.jumpHl, fun _ => true)
  | ("RST", [number]) => (restartVector number).map fun vector => (.restart vector, fun _ => true)
  | (verb, []) =>
    match verb.toList with
    | 'J' :: suffix => (suffixTest (String.ofList suffix)).map (.jump, ·)
    | 'C' :: suffix => (suffixTest (String.ofList suffix)).map (.call, ·)
    | 'R' :: suffix => (suffixTest (String.ofList suffix)).map (.ret, ·)
    | _ => none
  | _ => none

/-- When a transfer on a condition is taken, by the flags. -/
def conditionTest : Option Condition → Flags → Bool
  | none => fun _ => true
  | some c => c.holds

def branchOf : Operation → Option Branch
  | .jump condition => some (.jump, conditionTest condition)
  | .call condition => some (.call, conditionTest condition)
  | .ret condition => some (.ret, conditionTest condition)
  | .rst vector => some (.restart (vector &&& 7).toUInt16, fun _ => true)
  | .pchl => some (.jumpHl, fun _ => true)
  | _ => none

/-- A restart has the three bits that its opcode has for it. -/
theorem handler_rst {handler : Handler} {opcode vector : UInt8}
    (rst : handler.operation opcode = .rst vector) : vector &&& 7 = vector := by
  cases handler with
  | rst =>
    cases rst
    rw [UInt8.and_assoc, UInt8.and_self]
  | unimplemented =>
    simp only [Handler.operation] at rst
    split at rst <;> cases rst
  | _ => cases rst

/-- The number of a restart is a field of three bits. -/
theorem operation_rst {opcode vector : UInt8} (rst : Opcode.operation opcode = .rst vector) :
    vector &&& 7 = vector :=
  handler_rst rst

/-- The numbers of the restarts are read back. -/
theorem restartVector_number {n : Nat} (small : n < 8) :
    restartVector (toString n) = some (UInt16.ofNat n) := by
  match n, small with
  | 0, _ | 1, _ | 2, _ | 3, _ | 4, _ | 5, _ | 6, _ | 7, _ => rfl

theorem toNat_lt_of_field {vector : UInt8} (field : vector &&& 7 = vector) : vector.toNat < 8 := by
  rw [← field, UInt8.toNat_and]
  exact Nat.and_lt_two_pow _ (by decide : (7 : UInt8).toNat < 2 ^ 3)

/-- A phrase names the transfer that its operation is. -/
theorem branch?_phrase (o : Operation)
    (field : ∀ vector, o = .rst vector → vector &&& 7 = vector) :
    branch? o.phrase = branchOf o := by
  cases o with
  | jump condition | call condition | ret condition =>
    cases condition with
    | none => rfl
    | some c => cases c <;> rfl
  | accumulate op source => cases op <;> rfl
  | accumulateImmediate op => cases op <;> rfl
  | rst vector =>
    have small : vector.toNat < 8 := toNat_lt_of_field (field vector rfl)
    change (restartVector (toString vector.toNat)).map _ =
      some (Transfer.restart (vector &&& 7).toUInt16, _)
    rw [restartVector_number small, field vector rfl, UInt16.ofNat_uInt8ToNat]
    rfl
  | _ => rfl

/-- The text of every mnemonic, read as a transfer, gives the transfer of the operation. -/
theorem branch?_words (opcode : UInt8) :
    branch? (words (Opcode.mnemonic opcode)) = branchOf (Opcode.operation opcode) := by
  obtain plain | ⟨verb, second, text⟩ := words_opcode opcode
  · rw [plain]
    exact branch?_phrase _ fun vector rst => operation_rst rst
  · have each : ∀ x ∈ starred, branch? (x.2, []) = branchOf x.1 := by
      intro x member
      simp only [starred, List.mem_cons, List.not_mem_nil, or_false] at member
      obtain rfl | rfl | rfl | rfl := member <;> rfl
    rw [text]
    exact each _ second

end Assembly

end Intel8080
