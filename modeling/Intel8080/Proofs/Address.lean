import Intel8080.Proofs.Text.Numeral
import Mathlib.Data.List.DropRight

/-!
# Addresses are read exactly

An address is a numeral in one of two forms (`AddressText`), and trimming leaves what has no blanks
at its ends (`Trims`). The reader accepts exactly the addresses whose value fits a word, cut off at
the blanks around them, and refuses everything else with the text that is left
(`parseAddress_exact`). So every word is read from all its spellings.
-/
namespace Intel8080

/-! ## Blanks -/

/-- A text cut off at its ends: only blanks are lost, and none is left at either end. -/
structure Trims (text core : List Char) : Prop where
  lost : ∃ before after, text = before ++ (core ++ after) ∧
    (∀ c ∈ before, isBlank c = true) ∧ ∀ c ∈ after, isBlank c = true
  front : ∀ c ∈ core.head?, isBlank c = false
  back : ∀ c ∈ core.getLast?, isBlank c = false

section Trims

variable {text core : List Char}

theorem dropWhile_append_of_head? {blanks rest : List Char} (all : ∀ c ∈ blanks, isBlank c = true)
    (front : ∀ c ∈ rest.head?, isBlank c = false) : (blanks ++ rest).dropWhile isBlank = rest := by
  rw [List.dropWhile_append_of_pos all]
  cases rest with
  | nil => rfl
  | cons c rest => exact List.dropWhile_cons_of_neg (by simp [front c rfl])

/-- There is one way to cut the blanks off. -/
theorem trimBlanks_of_trims (trims : Trims text core) : trimBlanks text = core := by
  obtain ⟨⟨before, after, rfl, blankBefore, blankAfter⟩, front, back⟩ := trims
  cases core with
  | nil =>
    have gone : (before ++ ([] ++ after)).dropWhile isBlank = [] := by
      rw [List.nil_append, List.dropWhile_append_of_pos blankBefore]
      exact List.dropWhile_eq_nil_iff.2 blankAfter
    rw [trimBlanks, gone]
    rfl
  | cons c cs =>
    have behind : ∀ d ∈ after.reverse, isBlank d = true :=
      fun d member => blankAfter d (List.mem_reverse.1 member)
    have last : ∀ d ∈ (c :: cs).reverse.head?, isBlank d = false := by
      rw [List.head?_reverse]
      exact back
    have first : ∀ d ∈ (c :: cs ++ after).head?, isBlank d = false := front
    rw [trimBlanks, dropWhile_append_of_head? blankBefore first, List.reverse_append,
      dropWhile_append_of_head? behind last, List.reverse_reverse]

theorem isBlank_of_mem_head?_dropWhile (cs : List Char) :
    ∀ c ∈ (cs.dropWhile isBlank).head?, isBlank c = false := by
  intro c first
  have stopped := List.head?_dropWhile_not isBlank cs
  rw [Option.mem_def.1 first] at stopped
  exact stopped

/-- Cutting the blanks off leaves none at either end. -/
theorem trims_trimBlanks (text : List Char) : Trims text (trimBlanks text) := by
  have cut : trimBlanks text = (text.dropWhile isBlank).rdropWhile isBlank := rfl
  refine ⟨⟨text.takeWhile isBlank, (text.dropWhile isBlank).rtakeWhile isBlank, ?_,
    fun c => List.mem_takeWhile_imp, fun c => List.mem_rtakeWhile_imp⟩, fun c first => ?_, ?_⟩
  · rw [cut, List.rdropWhile_append_rtakeWhile, List.takeWhile_append_dropWhile]
  · obtain ⟨rest, whole⟩ : trimBlanks text <+: text.dropWhile isBlank := List.rdropWhile_prefix _ _
    refine isBlank_of_mem_head?_dropWhile text c ?_
    rw [← whole, List.head?_append, Option.mem_def.1 first]
    rfl
  · rw [trimBlanks, List.getLast?_reverse]
    exact isBlank_of_mem_head?_dropWhile _

end Trims

/-! ## Addresses -/

/-- How an address is written, and its value: decimal digits, or hexadecimal ones behind `0x` or
`0X`, with a plus sign directly in front of the digits if liked. -/
inductive AddressText : List Char → Nat → Prop where
  | decimal {sign digits : List Char} {n : Nat} (plus : sign = [] ∨ sign = ['+'])
      (numeral : Numeral 10 digits n) : AddressText (sign ++ digits) n
  | hexadecimal {mark : Char} {sign digits : List Char} {n : Nat} (marks : mark = 'x' ∨ mark = 'X')
      (plus : sign = [] ∨ sign = ['+']) (numeral : Numeral 16 digits n) :
      AddressText ('0' :: mark :: (sign ++ digits)) n

section Addresses

variable {base : Nat} {cs : List Char} {n : Nat}

theorem plus_ne_digitChar : ∀ d < 16, '+'.toLower ≠ d.digitChar := by
  decide

/-- Exactly the numerals with at most one plus sign are read, and with their value. -/
theorem signedNumeral?_eq_some_iff (fits : base ≤ 16) :
    signedNumeral? base cs = some n ↔
      ∃ sign digits, (sign = [] ∨ sign = ['+']) ∧ cs = sign ++ digits ∧ Numeral base digits n := by
  constructor
  · intro value
    rw [signedNumeral?.eq_def] at value
    split at value
    · exact ⟨['+'], _, .inr rfl, rfl, (numeralValue?_eq_some_iff fits).1 value⟩
    · exact ⟨[], _, .inl rfl, rfl, (numeralValue?_eq_some_iff fits).1 value⟩
  · rintro ⟨sign, digits, rfl | rfl, rfl, numeral⟩
    · have value := (numeralValue?_eq_some_iff fits).2 numeral
      rw [signedNumeral?]
      · exact value
      · rintro rest rfl
        exact numeral.not_mem (fun d small => plus_ne_digitChar d (by omega)) List.mem_cons_self
    · exact (numeralValue?_eq_some_iff fits).2 numeral

/-- Decimal digits with a sign do not look like a mark of hexadecimal ones. -/
theorem append_ne_marked {sign digits : List Char} (plus : sign = [] ∨ sign = ['+'])
    (numeral : Numeral 10 digits n) {mark : Char} (other : ∀ d < 10, mark.toLower ≠ d.digitChar)
    (rest : List Char) : sign ++ digits ≠ '0' :: mark :: rest := by
  intro same
  rcases plus with rfl | rfl
  · rw [List.nil_append] at same
    subst same
    exact numeral.not_mem other (List.mem_cons_of_mem _ List.mem_cons_self)
  · exact absurd (List.cons.inj same).1 (by decide)

/-- Exactly the address texts are read whose value fits a word. -/
theorem addressValue?_eq_some_iff :
    addressValue? cs = some n ↔ AddressText cs n ∧ n < UInt16.size := by
  rw [addressValue?.eq_def, Option.filter_eq_some_iff, decide_eq_true_iff]
  refine and_congr_left fun _ => ⟨fun value => ?_, fun address => ?_⟩
  · split at value
    all_goals
      obtain ⟨sign, digits, plus, rfl, numeral⟩ := (signedNumeral?_eq_some_iff (by decide)).1 value
    · exact .hexadecimal (.inl rfl) plus numeral
    · exact .hexadecimal (.inr rfl) plus numeral
    · exact .decimal plus numeral
  · cases address with
    | hexadecimal marks plus numeral =>
      have value := (signedNumeral?_eq_some_iff (by decide)).2 ⟨_, _, plus, rfl, numeral⟩
      rcases marks with rfl | rfl
      · exact value
      · exact value
    | decimal plus numeral =>
      have value := (signedNumeral?_eq_some_iff (by decide)).2 ⟨_, _, plus, rfl, numeral⟩
      split
      · rename_i rest same
        exact absurd same (append_ne_marked plus numeral (by decide) rest)
      · rename_i rest same
        exact absurd same (append_ne_marked plus numeral (by decide) rest)
      · exact value

/-- The same behind the blanks that may stand around it. -/
theorem parseAddress_eq_ok_iff (text : String) (v : UInt16) :
    parseAddress text = .ok v ↔ AddressText (trimBlanks text.toList) v.toNat := by
  have value : parseAddress text = .ok v ↔
      addressValue? (trimBlanks text.toList) = some v.toNat := by
    rw [parseAddress]
    cases found : addressValue? (trimBlanks text.toList) with
    | none => simp
    | some n =>
      have fits := (addressValue?_eq_some_iff.1 found).2
      rw [Except.ok.injEq, Option.some.injEq, ← UInt16.toNat_inj, UInt16.toNat_ofNat_of_lt' fits]
  rw [value, addressValue?_eq_some_iff]
  exact and_iff_left v.toNat_lt

theorem not_isBlank_ascii : ∀ n < 128, ∀ d < 16,
    (Char.ofNat n).toLower = d.digitChar → isBlank (Char.ofNat n) = false := by
  decide +kernel

/-- No blank is part of a numeral, so trimming takes nothing off one. -/
theorem Numeral.not_isBlank (numeral : Numeral base cs n) (fits : base ≤ 16) :
    ∀ c ∈ cs, isBlank c = false := by
  intro c member
  obtain ⟨d, small, value⟩ := numeral.isDigit_of_mem c member
  have single : d < 16 := Nat.lt_of_lt_of_le small fits
  have plain := not_isBlank_ascii c.toNat (toNat_lt_of_toLower single value) d single
  rw [Char.ofNat_toNat] at plain
  exact plain value

/-- There are no blanks inside an address. -/
theorem AddressText.not_isBlank (address : AddressText cs n) : ∀ c ∈ cs, isBlank c = false := by
  have signed {sign : List Char} (plus : sign = [] ∨ sign = ['+']) :
      ∀ c ∈ sign, isBlank c = false := by
    rcases plus with rfl | rfl
    · exact nofun
    · exact List.forall_mem_singleton.2 rfl
  cases address with
  | decimal plus numeral =>
    exact List.forall_mem_append.2 ⟨signed plus, numeral.not_isBlank (by decide)⟩
  | hexadecimal marks plus numeral =>
    refine List.forall_mem_cons.2 ⟨rfl, List.forall_mem_cons.2 ⟨?_, ?_⟩⟩
    · rcases marks with rfl | rfl <;> rfl
    · exact List.forall_mem_append.2 ⟨signed plus, numeral.not_isBlank (by decide)⟩

/-- An address is read with any blanks around it. -/
theorem parseAddress_of_addressText {v : UInt16} (address : AddressText cs v.toNat)
    {before after : List Char} (blankBefore : ∀ c ∈ before, isBlank c = true)
    (blankAfter : ∀ c ∈ after, isBlank c = true) :
    parseAddress (String.ofList (before ++ (cs ++ after))) = .ok v := by
  have trims : Trims (before ++ (cs ++ after)) cs :=
    ⟨⟨before, after, rfl, blankBefore, blankAfter⟩,
      fun c first => address.not_isBlank c (List.mem_of_mem_head? first),
      fun c last => address.not_isBlank c (List.mem_of_getLast? last)⟩
  rw [parseAddress_eq_ok_iff, String.toList_ofList, trimBlanks_of_trims trims]
  exact address

end Addresses

/-- An address is accepted exactly if the text without the blanks around it is an address whose
value fits a word, and the value is given back; every other text is refused, and what is left of it
is kept. So a word is read from its decimal digits, and from its hexadecimal digits in any case
behind `0x` or `0X`, with any number of zeros in front and any blanks around. -/
theorem parseAddress_exact :
    (∀ text : String, let core := trimBlanks text.toList
      (Trims text.toList core ∧ ∀ other, Trims text.toList other → core = other) ∧
      (∀ v : UInt16, parseAddress text = .ok v ↔ AddressText core v.toNat) ∧
      ((∀ v : UInt16, ¬ AddressText core v.toNat) →
        parseAddress text = .error ⟨String.ofList core⟩)) ∧
    ∀ (v : UInt16) (zeros : Nat) (before after : List Char),
      (∀ c ∈ before, isBlank c = true) → (∀ c ∈ after, isBlank c = true) →
      parseAddress (String.ofList
        (before ++ (List.replicate zeros '0' ++ Nat.toDigits 10 v.toNat ++ after))) = .ok v ∧
      ∀ (mark : Char) (digits : List Char), mark = 'x' ∨ mark = 'X' →
        digits.map Char.toLower = Nat.toDigits 16 v.toNat →
        parseAddress (String.ofList
          (before ++ ('0' :: mark :: (List.replicate zeros '0' ++ digits) ++ after))) = .ok v := by
  refine ⟨fun text => ⟨⟨trims_trimBlanks _, fun other => trimBlanks_of_trims⟩,
    parseAddress_eq_ok_iff text, fun none => ?_⟩,
    fun v zeros before after blankBefore blankAfter => ⟨?_, fun mark digits marks lower => ?_⟩⟩
  · rw [parseAddress]
    cases found : addressValue? (trimBlanks text.toList) with
    | none => rfl
    | some n =>
      obtain ⟨address, fits⟩ := addressValue?_eq_some_iff.1 found
      have same : (UInt16.ofNat n).toNat = n := UInt16.toNat_ofNat_of_lt' fits
      exact absurd (same.symm ▸ address) (none (UInt16.ofNat n))
  · exact parseAddress_of_addressText (.decimal (.inl rfl)
      (numeral_zeros (by decide) (numeral_toDigits_ten v.toNat) zeros)) blankBefore blankAfter
  · exact parseAddress_of_addressText (.hexadecimal marks (.inl rfl)
      (numeral_zeros (by decide) (numeral_of_map_toLower (by decide) lower) zeros))
      blankBefore blankAfter

/-- A no-break space and zeros in front of the greatest word, in letters of both cases, and a line
feed behind it; the next number is refused. -/
theorem parseAddress_greatest :
    parseAddress "\u00A00X00fFfF\n" = .ok 0xFFFF ∧
      parseAddress " 0x10000" = .error ⟨"0x10000"⟩ := by
  obtain ⟨texts, spelled⟩ := parseAddress_exact
  refine ⟨?_, ?_⟩
  · have blanks := spelled 0xFFFF 2 ['\u00A0'] ['\n'] (List.forall_mem_singleton.2 rfl)
      (List.forall_mem_singleton.2 rfl)
    exact blanks.2 'X' ['f', 'F', 'f', 'F'] (.inr rfl) (by decide)
  · obtain ⟨-, -, refused⟩ := texts " 0x10000"
    have large : addressValue? (trimBlanks " 0x10000".toList) = none := by decide
    refine refused fun v address => ?_
    have value := addressValue?_eq_some_iff.2 ⟨address, v.toNat_lt⟩
    rw [large] at value
    cases value

end Intel8080
