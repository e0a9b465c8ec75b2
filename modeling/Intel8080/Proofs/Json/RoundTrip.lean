import Intel8080.Json.Writer
import Intel8080.Proofs.Json.Grammar
import Intel8080.Proofs.Text.Hex

/-!
# Compact text reads back

A value whose numbers are natural and whose strings and names have a text is written without blanks
as a text of the grammar that holds it (`exists_writtenAs`). So reading gives back every such value
(`read_compact`).
-/
namespace Intel8080.Json

/-- A value of naturals and of strings and names that have a text. -/
inductive IsPlain : Json → Prop where
  | null : IsPlain .null
  | bool (value : Bool) : IsPlain (.bool value)
  | nat (value : Nat) : IsPlain (.nat value)
  | string (text : String) : IsPlain (.string (some text))
  | array {items : List Json} (each : ∀ item ∈ items, IsPlain item) : IsPlain (.array items)
  | object {members : List (Option String × Json)} (named : ∀ member ∈ members, member.1.isSome)
      (each : ∀ member ∈ members, IsPlain member.2) : IsPlain (.object members)

theorem isPlain_record {members : List (String × Json)}
    (each : ∀ member ∈ members, IsPlain member.2) : IsPlain (record members) := by
  refine .object ?_ ?_
  · rintro _ listed
    obtain ⟨member, -, rfl⟩ := List.mem_map.1 listed
    rfl
  · rintro _ listed
    obtain ⟨member, belongs, rfl⟩ := List.mem_map.1 listed
    exact each member belongs

theorem isPlain_ofOption {α : Type} {write : α → Json} (each : ∀ x, (write x).IsPlain)
    (o : Option α) : (ofOption write o).IsPlain := by
  cases o with
  | none => exact .null
  | some x => exact each x

/-! ## Numerals -/

theorem digitChar_ne_zero : ∀ n < 10, 0 < n → n.digitChar ≠ '0' := by
  decide

/-- Only zero is written with a leading zero. -/
theorem exists_leading_digit (n : Nat) :
    ∃ d digits, Nat.toDigits 10 n = d :: digits ∧ (0 < n → d ≠ '0') := by
  induction n using Nat.strongRecOn with
  | ind n ih =>
    by_cases small : n < 10
    · exact ⟨n.digitChar, [], Nat.toDigits_of_lt_base small, digitChar_ne_zero n small⟩
    · obtain ⟨d, digits, front, leading⟩ := ih (n / 10) (by omega)
      refine ⟨d, digits ++ [(n % 10).digitChar], ?_, fun _ => leading (by omega)⟩
      rw [Nat.toDigits_of_base_le (by decide) (Nat.le_of_not_lt small), front]
      rfl

/-- The digits of a number are written without zeros in front. -/
theorem integerText_toDigits (n : Nat) : IntegerText (Nat.toDigits 10 n) n := by
  rcases Nat.eq_zero_or_pos n with rfl | positive
  · exact .zero
  · have numeral := numeral_toDigits_ten n
    obtain ⟨d, digits, leading, nonzero⟩ := exists_leading_digit n
    rw [leading] at numeral ⊢
    exact .digits (nonzero positive) numeral

/-! ## Strings -/

theorem toList_wordHexLower {n : Nat} (small : n < 32) :
    (wordHexLower (UInt16.ofNat n)).toList =
      ['0', '0', (hexDigit (n / 16)).toLower, (hexDigit (n % 16)).toLower] := by
  have whole : (UInt16.ofNat n).toNat = n := by
    rw [UInt16.toNat_ofNat']
    omega
  have high : (highByte (UInt16.ofNat n)).toNat = 0 := by
    rw [toNat_highByte, whole]
    omega
  have low : (lowByte (UInt16.ofNat n)).toNat = n := by
    rw [toNat_lowByte, whole]
    omega
  rw [wordHexLower, String.toList_ofList, toList_wordHex, halves, halves, high, low]
  rfl

/-- A character below thirty-two is written as a code unit. -/
theorem elementText_unit {n : Nat} (small : n < 32) :
    ElementText ('\\' :: 'u' :: (wordHexLower (UInt16.ofNat n)).toList) (.unit n) := by
  have digit {d : Nat} (single : d < 16) : IsDigit 16 (hexDigit d).toLower d :=
    hexValue?_eq_some_iff.1 (hexValue?_toLower_hexDigit single)
  have zero : IsDigit 16 '0' 0 := ⟨by decide, rfl⟩
  have unit := ElementText.unit zero zero (digit (show n / 16 < 16 by omega))
    (digit (show n % 16 < 16 by omega))
  have value : ((0 * 16 + 0) * 16 + n / 16) * 16 + n % 16 = n := by omega
  rw [value] at unit
  rw [toList_wordHexLower small]
  exact unit

/-- A character is written as one element, which spells it. -/
theorem exists_elementText_escape (c : Char) :
    ∃ e, ElementText (escape c).toList e ∧
      ∀ es cs, Spells es cs → Spells (e :: es) (c :: cs) := by
  unfold escape
  split
  case h_8 quote escape _ _ _ _ _ =>
    split
    · rename_i small
      have spells (es : List Element) (cs : List Char) (others : Spells es cs) :
          Spells (.unit c.toNat :: es) (Char.ofNat c.toNat :: cs) := .unit (by omega) others
      rw [Char.ofNat_toNat] at spells
      rw [String.toList_append]
      exact ⟨.unit c.toNat, elementText_unit small, spells⟩
    · rename_i printed
      rw [Char.toString_eq_singleton, String.toList_singleton]
      exact ⟨.char c, .plain quote escape printed, fun es cs => .char⟩
  all_goals exact ⟨_, .letter (by decide), fun es cs => .char⟩

/-- The characters between the quotes of a written string. -/
def escaped (text : List Char) : List Char := text.flatMap fun c => (escape c).toList

/-- What is written between quotes is read back as the characters that it was written for. -/
theorem exists_elementsText_escaped (text : List Char) :
    ∃ es, ElementsText (escaped text) es ∧ Spells es text := by
  induction text with
  | nil => exact ⟨[], .nil, .nil⟩
  | cons c text ih =>
    obtain ⟨e, element, spells⟩ := exists_elementText_escape c
    obtain ⟨es, elements, others⟩ := ih
    exact ⟨e :: es, .cons element elements, spells es text others⟩

theorem stringText_escaped (text : String) : StringText (escaped text.toList) (some text) := by
  obtain ⟨es, elements, spells⟩ := exists_elementsText_escaped text.toList
  exact .spelled elements spells

theorem toList_appendQuoted (out text : String) :
    (appendQuoted out (some text)).toList =
      out.toList ++ '"' :: (escaped text.toList ++ ['"']) := by
  have fold (cs : List Char) (out : String) :
      (cs.foldl (fun out c => out ++ escape c) out).toList = out.toList ++ escaped cs := by
    induction cs generalizing out with
    | nil => exact (List.append_nil _).symm
    | cons c cs ih =>
      rw [List.foldl_cons, ih, String.toList_append, List.append_assoc]
      rfl
  rw [appendQuoted, String.toList_push, Option.getD_some, fold, String.toList_push]
  simp

/-! ## Values -/

/-- A text of the grammar that holds a value and is written for it. -/
structure WrittenAs (text : List Char) (j : Json) : Prop where
  value : ValueText text j
  written : ∀ out, (appendCompact out j).toList = out.toList ++ text

theorem writtenAs_bool (b : Bool) : ∃ text, WrittenAs text (.bool b) := by
  cases b with
  | true =>
    refine ⟨_, .true, fun out => ?_⟩
    rw [appendCompact, String.toList_append]
    rfl
  | false =>
    refine ⟨_, .false, fun out => ?_⟩
    rw [appendCompact, String.toList_append]
    rfl

theorem WrittenAs.written_named {text : List Char} {j : Json} (item : WrittenAs text j)
    (out name : String) :
    (appendCompact ((appendQuoted out (some name)).push ':') j).toList =
      out.toList ++ ('"' :: (escaped name.toList ++ ['"']) ++ ':' :: text) := by
  rw [item.written, String.toList_push, toList_appendQuoted]
  simp

theorem nameText_escaped (name : String) :
    NameText ('"' :: (escaped name.toList ++ ['"'])) (some name) :=
  .quoted isSpaces_nil (stringText_escaped name) isSpaces_nil

/-- Written items have the commas of the grammar between them. -/
theorem exists_itemsText {items : List Json} (given : items ≠ [])
    (each : ∀ item ∈ items, ∃ text, WrittenAs text item) :
    ∃ text, ItemsText text items ∧ ∀ out, (appendItems out items).toList = out.toList ++ text := by
  induction items with
  | nil => exact absurd rfl given
  | cons item others ih =>
    obtain ⟨text, first⟩ := each item List.mem_cons_self
    cases others with
    | nil =>
      refine ⟨text, .last (spacedText_of_valueText first.value), fun out => ?_⟩
      rw [appendItems]
      exact first.written out
    | cons next others =>
      obtain ⟨behind, listed, written⟩ := ih (List.cons_ne_nil next others)
        fun other member => each other (List.mem_cons_of_mem item member)
      refine ⟨text ++ ',' :: behind, .more (spacedText_of_valueText first.value) listed,
        fun out => ?_⟩
      rw [appendItems, written, String.toList_push, first.written]
      · simp
      · exact List.cons_ne_nil next others

/-- So do written members. -/
theorem exists_membersText {members : List (Option String × Json)} (given : members ≠ [])
    (texts : ∀ member ∈ members, member.1.isSome)
    (each : ∀ member ∈ members, ∃ text, WrittenAs text member.2) :
    ∃ text, MembersText text members ∧
      ∀ out, (appendMembers out members).toList = out.toList ++ text := by
  induction members with
  | nil => exact absurd rfl given
  | cons member others ih =>
    obtain ⟨text, first⟩ := each member List.mem_cons_self
    obtain ⟨name, value⟩ := member
    obtain ⟨name, rfl⟩ := Option.isSome_iff_exists.1 (texts _ List.mem_cons_self)
    have spaced := spacedText_of_valueText first.value
    cases others with
    | nil =>
      exact ⟨_, .last (nameText_escaped name) spaced, fun out => first.written_named out name⟩
    | cons next others =>
      obtain ⟨behind, listed, written⟩ := ih (List.cons_ne_nil next others)
        (fun other member => texts other (List.mem_cons_of_mem _ member))
        fun other member => each other (List.mem_cons_of_mem _ member)
      refine ⟨_, .more (nameText_escaped name) spaced listed, fun out => ?_⟩
      rw [appendMembers, written, String.toList_push, first.written_named]
      · simp
      · exact List.cons_ne_nil next others

/-- Every plain value is written in the grammar, by induction on the value. -/
theorem exists_writtenAs {j : Json} (plain : j.IsPlain) : ∃ text, WrittenAs text j := by
  induction plain with
  | null =>
    refine ⟨_, .null, fun out => ?_⟩
    rw [appendCompact, String.toList_append]
    rfl
  | bool b => exact writtenAs_bool b
  | nat n =>
    refine ⟨_, .number (.nat (integerText_toDigits n)), fun out => ?_⟩
    rw [appendCompact, String.toList_append]
    exact congrArg _ Nat.toList_repr
  | string text =>
    refine ⟨_, .string (stringText_escaped text), fun out => ?_⟩
    rw [appendCompact]
    exact toList_appendQuoted out text
  | @array items _ ih =>
    by_cases given : items = []
    · subst given
      refine ⟨_, .noItems isSpaces_nil, fun out => ?_⟩
      rw [appendCompact, appendItems, String.toList_push, String.toList_push]
      simp
    · obtain ⟨text, listed, written⟩ := exists_itemsText given ih
      refine ⟨_, .array listed, fun out => ?_⟩
      rw [appendCompact, String.toList_push, written, String.toList_push]
      simp
  | @object members named _ ih =>
    by_cases given : members = []
    · subst given
      refine ⟨_, .noMembers isSpaces_nil, fun out => ?_⟩
      rw [appendCompact, appendMembers, String.toList_push, String.toList_push]
      simp
    · obtain ⟨text, listed, written⟩ := exists_membersText given named ih
      refine ⟨_, .object listed, fun out => ?_⟩
      rw [appendCompact, String.toList_push, written, String.toList_push]
      simp

/-- The compact text of a value is a text of the grammar that holds it. -/
theorem spacedText_compact {j : Json} (plain : j.IsPlain) : SpacedText j.compact.toList j := by
  obtain ⟨text, value, written⟩ := exists_writtenAs plain
  have whole : j.compact.toList = text := written ""
  rw [whole]
  exact spacedText_of_valueText value

/-- Reading the text of a value gives the value back. -/
theorem read_compact {j : Json} (plain : j.IsPlain) : read j.compact = some j :=
  read_of_spacedText (spacedText_compact plain)

end Intel8080.Json
