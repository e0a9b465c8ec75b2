import Intel8080.Opcode

/-!
# The words of a mnemonic

A mnemonic is a verb, alone or followed by a blank and its register operands with commas between
them. `words` reads that off the text. `Operation.phrase` lists verb and operands of an operation,
and `words_mnemonic` says that reading the mnemonic of an operation gives back its phrase, so that
what follows can talk about texts and still go through the operations case by case.
-/
namespace Intel8080

namespace Assembly

/-- The verb of a mnemonic and the register operands behind it. -/
def words (mnemonic : String) : String × List String :=
  let verb := mnemonic.toList.takeWhile (· != ' ')
  match mnemonic.toList.drop (verb.length + 1) with
  | [] => (String.ofList verb, [])
  | operands => (String.ofList verb, (operands.splitOn ',').map String.ofList)

end Assembly

/-- The verb and the register operands of an operation. -/
def Operation.phrase : Operation → String × List String
  | .mov target source => ("MOV", [target.name, source.name])
  | .mvi target => ("MVI", [target.name])
  | .lxi pair => ("LXI", [pair.name])
  | .stax pointer => ("STAX", [pointer.name])
  | .ldax pointer => ("LDAX", [pointer.name])
  | .accumulate op source => (op.registerName, [source.name])
  | .accumulateImmediate op => (op.immediateName, [])
  | .inr target => ("INR", [target.name])
  | .dcr target => ("DCR", [target.name])
  | .inx pair => ("INX", [pair.name])
  | .dcx pair => ("DCX", [pair.name])
  | .dad pair => ("DAD", [pair.name])
  | .push pair => ("PUSH", [pair.name])
  | .pop pair => ("POP", [pair.name])
  | .rst vector => ("RST", [toString vector.toNat])
  | o => (o.mnemonic, [])

/-- A word that can stand as an operand: not empty and without a comma. -/
def Assembly.IsOperand (name : String) : Prop := name.toList ≠ [] ∧ ',' ∉ name.toList

namespace Assembly

theorem isOperand_reg (r : Reg) : IsOperand r.name := by
  unfold IsOperand
  cases r <;> decide

theorem isOperand_pair (p : Pair) : IsOperand p.name := by
  unfold IsOperand
  cases p <;> decide

theorem isOperand_stackPair (p : StackPair) : IsOperand p.name := by
  unfold IsOperand
  cases p <;> decide

theorem isOperand_pointer (p : Pointer) : IsOperand p.name := by
  unfold IsOperand
  cases p <;> decide

theorem toList_toString (n : Nat) : (toString n).toList = Nat.toDigits 10 n := Nat.toList_repr

theorem not_mem_toString {c : Char} (other : c.isDigit = false) (n : Nat) :
    c ∉ (toString n).toList := by
  rw [toList_toString]
  intro member
  have digit := Nat.isDigit_of_mem_toDigits (by decide) (by decide) member
  rw [other] at digit
  cases digit

/-- The number of a restart can stand as an operand. -/
theorem isOperand_number (n : Nat) : IsOperand (toString n) := by
  refine ⟨?_, not_mem_toString rfl n⟩
  rw [toList_toString]
  exact Nat.toDigits_ne_nil

theorem takeWhile_of_plain {mark : Char} {text : List Char} (plain : mark ∉ text)
    (rest : List Char) :
    (text ++ rest).takeWhile (· != mark) = text ++ rest.takeWhile (· != mark) := by
  apply List.takeWhile_append_of_pos
  intro c member
  rw [bne_iff_ne]
  exact fun same => plain (same ▸ member)

theorem takeWhile_alone {mark : Char} {text : List Char} (plain : mark ∉ text) :
    text.takeWhile (· != mark) = text := by
  have all := takeWhile_of_plain plain []
  rwa [List.append_nil, List.takeWhile_nil, List.append_nil] at all

/-- A text is cut at the first mark. -/
theorem takeWhile_mark {mark : Char} {text : List Char} (plain : mark ∉ text) (rest : List Char) :
    (text ++ mark :: rest).takeWhile (· != mark) = text := by
  rw [takeWhile_of_plain plain, List.takeWhile_cons_of_neg (by simp), List.append_nil]

theorem words_alone (verb : String) (plain : ' ' ∉ verb.toList) : words verb = (verb, []) := by
  have behind : verb.toList.drop (verb.toList.length + 1) = [] := by
    simp
  simp only [words, takeWhile_alone plain, behind, String.ofList_toList]

/-- What stands behind the blank is cut at its commas. -/
theorem words_operands (verb operands : String) (plain : ' ' ∉ verb.toList)
    (given : operands.toList ≠ []) :
    words (verb ++ " " ++ operands) =
      (verb, (operands.toList.splitOn ',').map String.ofList) := by
  have text : (verb ++ " " ++ operands).toList = verb.toList ++ ' ' :: operands.toList := by
    simp
  have front := takeWhile_mark plain operands.toList
  have behind : (verb.toList ++ ' ' :: operands.toList).drop (verb.toList.length + 1) =
      operands.toList := by
    simp
  simp only [words, text, front, behind, String.ofList_toList]

theorem words_one (verb name : String) (plain : ' ' ∉ verb.toList) (operand : IsOperand name) :
    words (verb ++ " " ++ name) = (verb, [name]) := by
  rw [words_operands verb name plain operand.1, List.splitOn_eq_singleton operand.2]
  simp

theorem words_two (verb first second : String) (plain : ' ' ∉ verb.toList)
    (hfirst : IsOperand first) (hsecond : IsOperand second) :
    words (verb ++ " " ++ (first ++ "," ++ second)) = (verb, [first, second]) := by
  have text : (first ++ "," ++ second).toList = first.toList ++ ',' :: second.toList := by
    simp
  rw [words_operands verb _ plain (by simp [text]), text,
    List.splitOn_append_cons_self_of_not_mem hfirst.2, List.splitOn_eq_singleton hsecond.2]
  simp

/-- Cutting a mnemonic up gives the verb and the operands that it was put together from. -/
theorem words_mnemonic (o : Operation) : words o.mnemonic = o.phrase := by
  cases o with
  | mov target source =>
    have text : (Operation.mov target source).mnemonic =
        "MOV" ++ " " ++ (target.name ++ "," ++ source.name) := by
      rw [← String.append_assoc, ← String.append_assoc]
      rfl
    rw [text]
    exact words_two "MOV" _ _ (by decide) (isOperand_reg target) (isOperand_reg source)
  | accumulate op source =>
    exact words_one op.registerName _ (by cases op <;> decide) (isOperand_reg source)
  | accumulateImmediate op =>
    exact words_alone op.immediateName (by cases op <;> decide)
  | mvi target => exact words_one "MVI" _ (by decide) (isOperand_reg target)
  | inr target => exact words_one "INR" _ (by decide) (isOperand_reg target)
  | dcr target => exact words_one "DCR" _ (by decide) (isOperand_reg target)
  | lxi pair => exact words_one "LXI" _ (by decide) (isOperand_pair pair)
  | inx pair => exact words_one "INX" _ (by decide) (isOperand_pair pair)
  | dcx pair => exact words_one "DCX" _ (by decide) (isOperand_pair pair)
  | dad pair => exact words_one "DAD" _ (by decide) (isOperand_pair pair)
  | stax pointer => exact words_one "STAX" _ (by decide) (isOperand_pointer pointer)
  | ldax pointer => exact words_one "LDAX" _ (by decide) (isOperand_pointer pointer)
  | push pair => exact words_one "PUSH" _ (by decide) (isOperand_stackPair pair)
  | pop pair => exact words_one "POP" _ (by decide) (isOperand_stackPair pair)
  | rst vector => exact words_one "RST" _ (by decide) (isOperand_number vector.toNat)
  | jump condition =>
    cases condition with
    | none => rfl
    | some c => cases c <;> rfl
  | call condition =>
    cases condition with
    | none => rfl
    | some c => cases c <;> rfl
  | ret condition =>
    cases condition with
    | none => rfl
    | some c => cases c <;> rfl
  | _ => rfl

/-- The operations that have a second, undocumented opcode, with the verb of that opcode. -/
def starred : List (Operation × String) :=
  [(.nop, "*NOP"), (.jump none, "*JMP"), (.call none, "*CALL"), (.ret none, "*RET")]

/-- An opcode is named after its operation, or is one of the starred ones. -/
theorem words_opcode (opcode : UInt8) :
    words (Opcode.mnemonic opcode) = (Opcode.operation opcode).phrase ∨
      ∃ verb, (Opcode.operation opcode, verb) ∈ starred ∧
        words (Opcode.mnemonic opcode) = (verb, []) := by
  cases named : Opcode.isAlias opcode with
  | false =>
    left
    rw [Opcode.mnemonic_eq, named]
    exact words_mnemonic (Opcode.operation opcode)
  | true =>
    right
    rw [Opcode.isAlias, List.contains_iff_mem] at named
    have each : ∀ a ∈ Opcode.aliases, ∃ x ∈ starred, x.1 = Opcode.operation a ∧
        words (Opcode.mnemonic a) = (x.2, []) := by decide +kernel
    obtain ⟨⟨o, verb⟩, member, same, text⟩ := each opcode named
    exact ⟨verb, same ▸ member, text⟩

end Assembly

end Intel8080
