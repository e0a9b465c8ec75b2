import Intel8080.Proofs.Text.Numeral
import Mathlib.Data.List.TakeDrop

/-!
# The grammar of JSON

Which texts are JSON, and which value each of them holds, is said without the reader, from numerals
and strings up to values with blanks around them (`SpacedText`). Every such text is read as its
value (`read_of_spacedText`), whatever stands in it: numerals of any size and form, escapes, halves
of surrogate pairs, items and members to any depth.

A numeral ends where no digit, point or exponent follows (`Ends`); everything else carries its own
end, so the text behind a value never matters. The length of the text is enough of a bound on the
depth of the calls.
-/
namespace Intel8080.Json

/-! ## Texts and their values -/

/-- Nothing but blanks between tokens. -/
def IsSpaces (cs : List Char) : Prop := ∀ c ∈ cs, c ∈ [' ', '\t', '\n', '\r']

/-- An integer without a sign: a zero alone, or digits of which the first is no zero. -/
inductive IntegerText : List Char → Nat → Prop where
  | zero : IntegerText ['0'] 0
  | digits {d : Char} {cs : List Char} {n : Nat} (nonzero : d ≠ '0')
      (numeral : Numeral 10 (d :: cs) n) : IntegerText (d :: cs) n

/-- A point with digits after it, or nothing. -/
inductive FractionText : List Char → Prop where
  | none : FractionText []
  | point {cs : List Char} {n : Nat} (digits : Numeral 10 cs n) : FractionText ('.' :: cs)

/-- A letter for the exponent with digits after it, which may have a sign, or nothing. -/
inductive ExponentText : List Char → Prop where
  | none : ExponentText []
  | unsigned {e : Char} {cs : List Char} {n : Nat} (letter : e = 'e' ∨ e = 'E')
      (digits : Numeral 10 cs n) : ExponentText (e :: cs)
  | signed {e s : Char} {cs : List Char} {n : Nat} (letter : e = 'e' ∨ e = 'E')
      (sign : s = '+' ∨ s = '-') (digits : Numeral 10 cs n) : ExponentText (e :: s :: cs)

/-- A number: an integer alone is a natural number, any other numeral is kept as written. -/
inductive NumberText : List Char → Json → Prop where
  | nat {cs : List Char} {n : Nat} (integer : IntegerText cs n) : NumberText cs (.nat n)
  | numeral {sign digits fraction exponent : List Char} {n : Nat} (minus : sign = [] ∨ sign = ['-'])
      (integer : IntegerText digits n) (part : FractionText fraction)
      (power : ExponentText exponent) (more : sign ≠ [] ∨ fraction ≠ [] ∨ exponent ≠ []) :
      NumberText (sign ++ (digits ++ (fraction ++ exponent)))
        (.numeral (String.ofList (sign ++ (digits ++ (fraction ++ exponent)))))

/-- The letters of escapes, with the characters that they stand for. -/
def escapes : List (Char × Char) :=
  [('"', '"'), ('\\', '\\'), ('/', '/'), ('b', '\x08'), ('f', '\x0c'), ('n', '\n'), ('r', '\r'),
    ('t', '\t')]

/-- An element of a string: a character as it is, or escaped by a letter, or a code unit escaped by
four hexadecimal digits. -/
inductive ElementText : List Char → Element → Prop where
  | plain {c : Char} (quote : c ≠ '"') (escape : c ≠ '\\') (printed : ¬ c.toNat < 32) :
      ElementText [c] (.char c)
  | letter {e c : Char} (stands : (e, c) ∈ escapes) : ElementText ['\\', e] (.char c)
  | unit {w x y z : Char} {a b c d : Nat} (first : IsDigit 16 w a) (second : IsDigit 16 x b)
      (third : IsDigit 16 y c) (fourth : IsDigit 16 z d) :
      ElementText ['\\', 'u', w, x, y, z] (.unit (((a * 16 + b) * 16 + c) * 16 + d))

inductive ElementsText : List Char → List Element → Prop where
  | nil : ElementsText [] []
  | cons {text rest : List Char} {e : Element} {es : List Element} (first : ElementText text e)
      (others : ElementsText rest es) : ElementsText (text ++ rest) (e :: es)

/-- The characters that elements stand for: code units by themselves or in pairs of surrogates. -/
inductive Spells : List Element → List Char → Prop where
  | nil : Spells [] []
  | char {c : Char} {es : List Element} {cs : List Char} (others : Spells es cs) :
      Spells (.char c :: es) (c :: cs)
  | unit {u : Nat} {es : List Element} {cs : List Char} (whole : u < 0xD800 ∨ 0xDFFF < u)
      (others : Spells es cs) : Spells (.unit u :: es) (Char.ofNat u :: cs)
  | pair {u v : Nat} {es : List Element} {cs : List Char} (high : 0xD800 ≤ u ∧ u ≤ 0xDBFF)
      (low : 0xDC00 ≤ v ∧ v ≤ 0xDFFF) (others : Spells es cs) :
      Spells (.unit u :: .unit v :: es)
        (Char.ofNat (0x10000 + (u - 0xD800) * 0x400 + (v - 0xDC00)) :: cs)

/-- What stands between the quotes of a string, and the text of the string: there is none if the
elements spell none. -/
inductive StringText : List Char → Option String → Prop where
  | spelled {text : List Char} {es : List Element} {s : String} (elements : ElementsText text es)
      (spells : Spells es s.toList) : StringText text (some s)
  | torn {text : List Char} {es : List Element} (elements : ElementsText text es)
      (unspelled : ∀ cs, ¬ Spells es cs) : StringText text none

/-- The name of a member in quotes, with blanks around it. -/
inductive NameText : List Char → Option String → Prop where
  | quoted {before text after : List Char} {name : Option String} (blanksBefore : IsSpaces before)
      (string : StringText text name) (blanksAfter : IsSpaces after) :
      NameText (before ++ '"' :: (text ++ '"' :: after)) name

mutual

inductive ValueText : List Char → Json → Prop where
  | null : ValueText ['n', 'u', 'l', 'l'] .null
  | true : ValueText ['t', 'r', 'u', 'e'] (.bool true)
  | false : ValueText ['f', 'a', 'l', 's', 'e'] (.bool false)
  | number {text : List Char} {j : Json} (number : NumberText text j) : ValueText text j
  | string {text : List Char} {s : Option String} (string : StringText text s) :
      ValueText ('"' :: (text ++ ['"'])) (.string s)
  | noItems {blanks : List Char} (spaces : IsSpaces blanks) :
      ValueText ('[' :: (blanks ++ [']'])) (.array [])
  | array {text : List Char} {items : List Json} (listed : ItemsText text items) :
      ValueText ('[' :: (text ++ [']'])) (.array items)
  | noMembers {blanks : List Char} (spaces : IsSpaces blanks) :
      ValueText ('\x7b' :: (blanks ++ ['\x7d'])) (.object [])
  | object {text : List Char} {members : List (Option String × Json)}
      (listed : MembersText text members) :
      ValueText ('\x7b' :: (text ++ ['\x7d'])) (.object members)

inductive SpacedText : List Char → Json → Prop where
  | spaced {before text after : List Char} {j : Json} (blanksBefore : IsSpaces before)
      (value : ValueText text j) (blanksAfter : IsSpaces after) :
      SpacedText (before ++ (text ++ after)) j

/-- The items of an array, with commas between them. -/
inductive ItemsText : List Char → List Json → Prop where
  | last {text : List Char} {item : Json} (value : SpacedText text item) : ItemsText text [item]
  | more {text rest : List Char} {item : Json} {items : List Json} (value : SpacedText text item)
      (others : ItemsText rest items) : ItemsText (text ++ ',' :: rest) (item :: items)

/-- The members of an object, with commas between them. -/
inductive MembersText : List Char → List (Option String × Json) → Prop where
  | last {head text : List Char} {name : Option String} {item : Json} (named : NameText head name)
      (value : SpacedText text item) : MembersText (head ++ ':' :: text) [(name, item)]
  | more {head text rest : List Char} {name : Option String} {item : Json}
      {members : List (Option String × Json)} (named : NameText head name)
      (value : SpacedText text item) (others : MembersText rest members) :
      MembersText (head ++ ':' :: (text ++ ',' :: rest)) ((name, item) :: members)

end

theorem isSpaces_nil : IsSpaces [] := nofun

theorem spacedText_of_valueText {text : List Char} {j : Json} (value : ValueText text j) :
    SpacedText text j := by
  have spaced : SpacedText ([] ++ (text ++ [])) j := .spaced isSpaces_nil value isSpaces_nil
  rw [List.append_nil] at spaced
  exact spaced

/-! ## Reading numbers -/

/-- The text that follows does not go on with a numeral. -/
def Ends (rest : List Char) : Prop :=
  ∀ c ∈ rest.head?, c.isDigit = false ∧ c ≠ '.' ∧ c ≠ 'e' ∧ c ≠ 'E'

theorem ends_nil : Ends [] := by
  intro c member
  cases member

theorem ends_cons {c : Char} (ends : c.isDigit = false ∧ c ≠ '.' ∧ c ≠ 'e' ∧ c ≠ 'E')
    (rest : List Char) : Ends (c :: rest) := by
  intro d member
  cases member
  exact ends

/-- The text that follows does not go on with digits. -/
def NoDigit (rest : List Char) : Prop := ∀ c ∈ rest.head?, c.isDigit = false

section Numbers

variable {cs fraction exponent rest : List Char} {n : Nat}

theorem isDigit_ascii : ∀ n < 128, ∀ d < 10, (Char.ofNat n).toLower = d.digitChar →
    (Char.ofNat n).isDigit = true ∧ (Char.ofNat n).toNat - 48 = d := by
  decide +kernel

theorem isDigit_of_isDigit_ten {c : Char} {d : Nat} (digit : IsDigit 10 c d) :
    c.isDigit = true ∧ c.toNat - 48 = d := by
  obtain ⟨small, value⟩ := digit
  have low := toNat_lt_of_toLower (Nat.lt_trans small (by decide)) value
  have ascii := isDigit_ascii c.toNat low d small
  rw [Char.ofNat_toNat] at ascii
  exact ascii value

theorem isDigit_of_numeral (numeral : Numeral 10 cs n) : ∀ c ∈ cs, c.isDigit = true := by
  intro c member
  obtain ⟨d, digit⟩ := numeral.isDigit_of_mem c member
  exact (isDigit_of_isDigit_ten digit).1

/-- The reader gives a decimal numeral its value. -/
theorem decimalValue_of_numeral (numeral : Numeral 10 cs n) : decimalValue cs = n := by
  induction numeral with
  | @digit c d value =>
    have digit := (isDigit_of_isDigit_ten value).2
    simp [decimalValue, digit]
  | @more cs n c d front value ih =>
    have digit := (isDigit_of_isDigit_ten value).2
    rw [decimalValue, List.foldl_append]
    change decimalValue cs * 10 + (c.toNat - 48) = n * 10 + d
    rw [ih, digit]

theorem span_digits (all : ∀ c ∈ cs, c.isDigit = true) (stops : NoDigit rest) :
    (cs ++ rest).span Char.isDigit = (cs, rest) := by
  have stop : rest.takeWhile Char.isDigit = [] ∧ rest.dropWhile Char.isDigit = rest := by
    cases rest with
    | nil => exact ⟨rfl, rfl⟩
    | cons c rest =>
      have other := stops c rfl
      simp [other]
  rw [List.span_eq_takeWhile_dropWhile, List.takeWhile_append_of_pos all,
    List.dropWhile_append_of_pos all, stop.1, stop.2, List.append_nil]

theorem readDigits?_of_numeral (numeral : Numeral 10 cs n) (stops : NoDigit rest) :
    readDigits? (cs ++ rest) = some (cs, rest) := by
  have given := numeral.ne_nil
  rw [readDigits?, span_digits (isDigit_of_numeral numeral) stops]
  cases cs with
  | nil => exact absurd rfl given
  | cons c cs => rfl

theorem readInteger?_of_integerText (integer : IntegerText cs n) (stops : NoDigit rest) :
    readInteger? (cs ++ rest) = some (cs, rest) := by
  cases integer with
  | zero => rfl
  | digits nonzero numeral =>
    rw [readInteger?]
    · exact readDigits?_of_numeral numeral stops
    · intro behind zero
      exact nonzero (List.cons.inj zero).1

theorem readFraction?_of_fractionText (part : FractionText fraction) (stops : NoDigit rest)
    (pointless : ∀ c ∈ rest.head?, c ≠ '.') :
    readFraction? (fraction ++ rest) = some (fraction, rest) := by
  cases part with
  | none =>
    rw [List.nil_append, readFraction?]
    rintro behind rfl
    exact pointless '.' rfl rfl
  | point digits =>
    rw [List.cons_append, readFraction?, readDigits?_of_numeral digits stops]
    rfl

theorem readExponent?_of_exponentText (power : ExponentText exponent) (ends : Ends rest) :
    readExponent? (exponent ++ rest) = some (exponent, rest) := by
  have stops : NoDigit rest := fun c first => (ends c first).1
  cases power with
  | none =>
    rw [List.nil_append]
    cases rest with
    | nil => rfl
    | cons c rest =>
      obtain ⟨-, -, lower, upper⟩ := ends c rfl
      simp [readExponent?, lower, upper]
  | @unsigned e cs n letter digits =>
    have read := readDigits?_of_numeral digits stops
    have given := digits.ne_nil
    have all := isDigit_of_numeral digits
    cases cs with
    | nil => exact absurd rfl given
    | cons d cs =>
      have digit := all d List.mem_cons_self
      have unsigned : (d == '+' || d == '-') = false := by
        rw [Bool.or_eq_false_iff, beq_eq_false_iff_ne, beq_eq_false_iff_ne]
        constructor <;> rintro rfl <;> cases digit
      rw [List.cons_append] at read
      rcases letter with rfl | rfl <;> simp [readExponent?, unsigned, read]
  | @signed e s cs n letter sign digits =>
    have read := readDigits?_of_numeral digits stops
    rcases letter with rfl | rfl <;> rcases sign with rfl | rfl <;> simp [readExponent?, read]

/-- A numeral starts with a minus sign or a digit. -/
theorem exists_first_of_integerText (integer : IntegerText cs n) :
    ∃ d ds, cs = d :: ds ∧ d.isDigit = true := by
  cases integer with
  | zero => exact ⟨'0', [], rfl, rfl⟩
  | digits nonzero numeral =>
    exact ⟨_, _, rfl, isDigit_of_numeral numeral _ List.mem_cons_self⟩

/-- What follows the fraction goes on neither with digits nor with a point. -/
theorem ends_of_exponentText (power : ExponentText exponent) (ends : Ends rest) :
    ∀ c ∈ (exponent ++ rest).head?, c.isDigit = false ∧ c ≠ '.' := by
  intro c first
  cases power with
  | none => exact ⟨(ends c first).1, (ends c first).2.1⟩
  | unsigned letter digits | signed letter sign digits =>
    cases first
    rcases letter with rfl | rfl <;> decide

theorem noDigit_of_fractionText (part : FractionText fraction)
    (stops : NoDigit rest) : NoDigit (fraction ++ rest) := by
  cases part with
  | none => exact stops
  | point digits =>
    intro c first
    cases first
    rfl

theorem readNumber?_parts {sign digits : List Char} (minus : sign = [] ∨ sign = ['-'])
    (integer : IntegerText digits n) (part : FractionText fraction) (power : ExponentText exponent)
    (ends : Ends rest) :
    readNumber? (sign ++ (digits ++ (fraction ++ (exponent ++ rest)))) =
      some (if sign.isEmpty && fraction.isEmpty && exponent.isEmpty then .nat (decimalValue digits)
        else .numeral (String.ofList (sign ++ digits ++ fraction ++ exponent)), rest) := by
  have tail := ends_of_exponentText power ends
  have afterFraction : NoDigit (exponent ++ rest) := fun c first => (tail c first).1
  have afterInteger := noDigit_of_fractionText part afterFraction
  have integerRead := readInteger?_of_integerText integer afterInteger
  have fractionRead := readFraction?_of_fractionText part afterFraction
    fun c first => (tail c first).2
  have exponentRead := readExponent?_of_exponentText power ends
  rcases minus with rfl | rfl
  · rw [List.nil_append, readNumber?]
    · simp only [integerRead, fractionRead, exponentRead, Option.bind_eq_bind, Option.bind_some]
      split <;> rfl
    · intro behind same
      obtain ⟨d, ds, rfl, digit⟩ := exists_first_of_integerText integer
      cases (List.cons.inj same).1
      cases digit
  · rw [List.singleton_append, readNumber?]
    simp only [integerRead, fractionRead, exponentRead, Option.bind_eq_bind, Option.bind_some]
    split <;> rfl

/-- A number of the grammar is read to its end. -/
theorem readNumber?_of_numberText {text : List Char} {j : Json} (number : NumberText text j)
    (ends : Ends rest) : readNumber? (text ++ rest) = some (j, rest) := by
  cases number with
  | @nat _ n integer =>
    have read := readNumber?_parts (.inl rfl) integer .none .none ends
    have value : decimalValue text = n := by
      cases integer with
      | zero => rfl
      | digits nonzero numeral => exact decimalValue_of_numeral numeral
    rw [value] at read
    exact read
  | numeral minus integer part power more =>
    have read := readNumber?_parts minus integer part power ends
    rw [if_neg] at read
    · simp only [List.append_assoc] at read ⊢
      exact read
    · simpa only [Bool.and_eq_true, List.isEmpty_iff, not_and_or, or_assoc] using more

end Numbers

/-! ## Reading strings -/

section Strings

variable (before : List Element) (rest : List Char)

theorem readElements?_quote : readElements? before ('"' :: rest) = some (before.reverse, rest) := by
  rw [readElements?.eq_def]
  rfl

theorem readElements?_letter {e c : Char} (letter : escaped? e = some c) :
    readElements? before ('\\' :: e :: rest) = readElements? (.char c :: before) rest := by
  have named : (e == 'u') = false := by
    rw [beq_eq_false_iff_ne]
    rintro rfl
    cases letter
  rw [readElements?.eq_def]
  simp [named, letter]

theorem readElements?_unit {w x y z : Char} {u : Nat} (value : unit? w x y z = some u) :
    readElements? before ('\\' :: 'u' :: w :: x :: y :: z :: rest) =
      readElements? (.unit u :: before) rest := by
  rw [readElements?.eq_def]
  simp [value]

theorem readElements?_plain {c : Char} (quote : c ≠ '"') (escape : c ≠ '\\')
    (printed : ¬ c.toNat < 32) :
    readElements? before (c :: rest) = readElements? (.char c :: before) rest := by
  rw [readElements?.eq_def]
  simp only [beq_eq_false_iff_ne.2 quote, beq_eq_false_iff_ne.2 escape, if_neg printed]
  rfl

theorem escaped?_of_mem : ∀ pair ∈ escapes, escaped? pair.1 = some pair.2 := by
  decide

/-- An element is read whether it is plain or escaped. -/
theorem readElements?_of_elementText {text : List Char} {e : Element}
    (element : ElementText text e) :
    readElements? before (text ++ rest) = readElements? (e :: before) rest := by
  cases element with
  | plain quote escape printed => exact readElements?_plain before rest quote escape printed
  | letter stands => exact readElements?_letter before rest (escaped?_of_mem _ stands)
  | unit first second third fourth =>
    refine readElements?_unit before rest ?_
    simp [unit?, hexValue?_eq_some_iff.2 first, hexValue?_eq_some_iff.2 second,
      hexValue?_eq_some_iff.2 third, hexValue?_eq_some_iff.2 fourth]

/-- The elements of a string are read up to the quote that ends it. -/
theorem readElements?_of_elementsText {text : List Char} {es : List Element}
    (elements : ElementsText text es) :
    readElements? before (text ++ '"' :: rest) = some (before.reverse ++ es, rest) := by
  induction elements generalizing before with
  | nil =>
    rw [List.append_nil]
    exact readElements?_quote before rest
  | cons first others ih =>
    rw [List.append_assoc, readElements?_of_elementText before _ first, ih, List.reverse_cons,
      List.append_assoc]
    rfl

theorem isHighSurrogate_iff {u : Nat} : isHighSurrogate u = true ↔ 0xD800 ≤ u ∧ u ≤ 0xDBFF := by
  simp [isHighSurrogate]

theorem isLowSurrogate_iff {u : Nat} : isLowSurrogate u = true ↔ 0xDC00 ≤ u ∧ u ≤ 0xDFFF := by
  simp [isLowSurrogate]

/-- Elements that spell characters are joined to them. -/
theorem joinElements?_of_spells {es : List Element} {cs : List Char} (spells : Spells es cs)
    (found : List Char) : joinElements? found es = some (found.reverse ++ cs) := by
  induction spells generalizing found with
  | nil => rw [joinElements?, List.append_nil]
  | char others ih =>
    rw [joinElements?, ih]
    simp
  | @unit u es cs whole others ih =>
    have notHigh : ¬ isHighSurrogate u = true := by
      rw [isHighSurrogate_iff]
      omega
    have notLow : ¬ isLowSurrogate u = true := by
      rw [isLowSurrogate_iff]
      omega
    rw [joinElements?.eq_def]
    simp [notHigh, notLow, ih]
  | pair high low others ih =>
    rw [joinElements?.eq_def]
    simp [isHighSurrogate_iff.2 high, isLowSurrogate_iff.2 low, ih]

/-- And only those are: half a pair is never joined. -/
theorem exists_spells_of_joinElements? {es : List Element} {found joined : List Char}
    (join : joinElements? found es = some joined) : ∃ cs, Spells es cs := by
  fun_induction joinElements? found es with
  | case1 found => exact ⟨[], .nil⟩
  | case2 found c rest ih =>
    obtain ⟨cs, spells⟩ := ih join
    exact ⟨_, .char spells⟩
  | case3 found u high v rest low ih =>
    obtain ⟨cs, spells⟩ := ih join
    exact ⟨_, .pair (isHighSurrogate_iff.1 high) (isLowSurrogate_iff.1 low) spells⟩
  | case4 => cases join
  | case5 => cases join
  | case6 => cases join
  | case7 found u rest notHigh notLow ih =>
    rw [isHighSurrogate_iff] at notHigh
    rw [isLowSurrogate_iff] at notLow
    obtain ⟨cs, spells⟩ := ih join
    exact ⟨_, .unit (by omega) spells⟩

/-- The text of a string is read with its closing quote. -/
theorem readString?_of_stringText {text : List Char} {s : Option String}
    (string : StringText text s) : readString? (text ++ '"' :: rest) = some (s, rest) := by
  cases string with
  | @spelled es s elements spells =>
    rw [readString?, readElements?_of_elementsText [] rest elements]
    simp [joinElements?_of_spells spells]
  | @torn es elements unspelled =>
    have none_joined : joinElements? [] es = none := by
      rw [Option.eq_none_iff_forall_ne_some]
      intro joined join
      obtain ⟨cs, spells⟩ := exists_spells_of_joinElements? join
      exact unspelled cs spells
    rw [readString?, readElements?_of_elementsText [] rest elements]
    simp [none_joined]

end Strings

/-! ## Reading values -/

/-- The reader skips a blank, and no numeral goes on with one. -/
theorem blank_of_mem {c : Char} (space : c ∈ [' ', '\t', '\n', '\r']) :
    isSpace c = true ∧ c.isDigit = false ∧ c ≠ '.' ∧ c ≠ 'e' ∧ c ≠ 'E' := by
  simp only [List.mem_cons, List.not_mem_nil, or_false] at space
  obtain rfl | rfl | rfl | rfl := space <;> decide

section Values

variable {blanks text rest : List Char}

theorem skipSpace_of_not {c : Char} (solid : isSpace c = false) (cs : List Char) :
    skipSpace (c :: cs) = c :: cs := by
  rw [skipSpace, List.dropWhile_cons_of_neg]
  rw [solid]
  exact Bool.false_ne_true

theorem skipSpace_append (spaces : IsSpaces blanks) {c : Char} (solid : isSpace c = false)
    (cs : List Char) : skipSpace (blanks ++ c :: cs) = c :: cs := by
  rw [skipSpace, List.dropWhile_append_of_pos fun d member =>
    (blank_of_mem (spaces d member)).1]
  exact skipSpace_of_not solid cs

/-- A text begins, after blanks, with something else than a closing bracket or brace. -/
def Opens (text : List Char) : Prop :=
  ∃ blanks c cs, text = blanks ++ c :: cs ∧ IsSpaces blanks ∧
    isSpace c = false ∧ c ≠ ']' ∧ c ≠ '\x7d'

theorem Opens.append (opens : Opens text) (rest : List Char) : Opens (text ++ rest) := by
  obtain ⟨blanks, c, cs, rfl, spaces, solid, apart⟩ := opens
  exact ⟨blanks, c, cs ++ rest, by simp, spaces, solid, apart⟩

theorem Opens.length_pos (opens : Opens text) : 0 < text.length := by
  obtain ⟨blanks, c, cs, rfl, -⟩ := opens
  simp only [List.length_append, List.length_cons]
  omega

/-- A number starts with a minus sign or a digit. -/
theorem exists_first_of_numberText {j : Json} (number : NumberText text j) :
    ∃ c cs, text = c :: cs ∧ (c = '-' ∨ c.isDigit = true) := by
  cases number with
  | nat integer =>
    obtain ⟨d, ds, rfl, digit⟩ := exists_first_of_integerText integer
    exact ⟨d, ds, rfl, .inr digit⟩
  | numeral minus integer part power more =>
    obtain ⟨d, ds, rfl, digit⟩ := exists_first_of_integerText integer
    rcases minus with rfl | rfl
    · exact ⟨d, _, rfl, .inr digit⟩
    · exact ⟨'-', _, rfl, .inl rfl⟩

/-- What starts a number starts nothing else. -/
theorem ne_of_first {c d : Char} (first : c = '-' ∨ c.isDigit = true) (sign : d ≠ '-')
    (plain : d.isDigit = false) : c ≠ d := by
  rintro rfl
  rcases first with same | digit
  · exact sign same
  · rw [plain] at digit
    cases digit

theorem isSpace_of_first {c : Char} (first : c = '-' ∨ c.isDigit = true) : isSpace c = false := by
  have other {d : Char} := ne_of_first (d := d) first
  simp only [isSpace, Bool.or_eq_false_iff, beq_eq_false_iff_ne]
  exact ⟨⟨⟨other (by decide) rfl, other (by decide) rfl⟩, other (by decide) rfl⟩,
    other (by decide) rfl⟩

/-- A value begins with something that is neither a blank nor a closing bracket or brace. -/
theorem opens_of_valueText {j : Json} (value : ValueText text j) : Opens text := by
  have opens {c : Char} (cs : List Char) (solid : isSpace c = false ∧ c ≠ ']' ∧ c ≠ '\x7d') :
      Opens (c :: cs) := ⟨[], c, cs, rfl, nofun, solid⟩
  cases value with
  | number number =>
    obtain ⟨c, cs, rfl, first⟩ := exists_first_of_numberText number
    exact opens cs ⟨isSpace_of_first first, ne_of_first first (by decide) rfl,
      ne_of_first first (by decide) rfl⟩
  | _ => exact opens _ (by decide)

theorem opens_of_spacedText {j : Json} (spaced : SpacedText text j) : Opens text := by
  cases spaced with
  | @spaced before text after j blanksBefore value blanksAfter =>
    obtain ⟨blanks, c, cs, parts, spaces, apart⟩ := (opens_of_valueText value).append after
    refine ⟨before ++ blanks, c, cs, ?_, List.forall_mem_append.2 ⟨blanksBefore, spaces⟩, apart⟩
    rw [parts, List.append_assoc]

theorem opens_of_itemsText {items : List Json} (listed : ItemsText text items) : Opens text := by
  cases listed with
  | last value => exact opens_of_spacedText value
  | more value others => exact (opens_of_spacedText value).append _

theorem opens_of_nameText {name : Option String} (named : NameText text name) : Opens text := by
  cases named with
  | quoted blanksBefore string blanksAfter =>
    exact ⟨_, '"', _, rfl, blanksBefore, by decide⟩

theorem opens_of_membersText {members : List (Option String × Json)}
    (listed : MembersText text members) : Opens text := by
  cases listed with
  | last named value => exact (opens_of_nameText named).append _
  | more named value others => exact (opens_of_nameText named).append _

/-- What follows a value in a text, blanks and a mark, does not go on with a numeral. -/
theorem ends_append (spaces : IsSpaces blanks) (ends : Ends rest) : Ends (blanks ++ rest) := by
  cases blanks with
  | nil => exact ends
  | cons c cs => exact ends_cons (blank_of_mem (spaces c List.mem_cons_self)).2 _

/-- Two levels are left behind with two brackets. -/
theorem exists_inner_fuel {left right : Char} {fuel : Nat}
    (enough : (left :: (text ++ [right])).length ≤ fuel + 1) :
    ∃ inner, fuel = inner + 1 ∧ text.length ≤ inner := by
  rw [List.length_cons, List.length_append, List.length_singleton] at enough
  exact ⟨fuel - 1, by omega, by omega⟩

/-- The members are read on from the value of the next one. -/
theorem readMembers?_of_nameText {head : List Char} {name : Option String}
    (named : NameText head name) (fuel : Nat) (before : List (Option String × Json))
    (rest : List Char) :
    readMembers? (fuel + 1) before (head ++ ':' :: rest) =
      (readValue? fuel rest).bind fun (item, rest) =>
        match skipSpace rest with
        | ',' :: rest => readMembers? fuel ((name, item) :: before) rest
        | '\x7d' :: rest => some (.object ((name, item) :: before).reverse, rest)
        | _ => none := by
  cases named with
  | quoted blanksBefore string blanksAfter =>
    rw [List.append_assoc, List.cons_append, List.append_assoc, List.cons_append, readMembers?,
      skipSpace_append blanksBefore rfl]
    simp only [readString?_of_stringText _ string, skipSpace_append blanksAfter (c := ':') rfl]
    cases readValue? fuel rest <;> rfl

end Values

mutual

/-- A value is read with the blanks in front of it. -/
theorem readValue?_of_valueText {text : List Char} {j : Json} (value : ValueText text j)
    (fuel : Nat) (enough : text.length ≤ fuel) {blanks rest : List Char} (spaces : IsSpaces blanks)
    (ends : Ends rest) : readValue? fuel (blanks ++ (text ++ rest)) = some (j, rest) := by
  have positive := (opens_of_valueText value).length_pos
  obtain ⟨fuel, rfl⟩ := Nat.exists_eq_add_one.2 (Nat.lt_of_lt_of_le positive enough)
  match value with
  | .null | .true | .false =>
    rw [List.cons_append, readValue?, skipSpace_append spaces rfl]
    rfl
  | .number number =>
    have read := readNumber?_of_numberText number ends
    obtain ⟨c, cs, rfl, first⟩ := exists_first_of_numberText number
    rw [List.cons_append, readValue?, skipSpace_append spaces (isSpace_of_first first)]
    split
    case h_7 => exact read
    all_goals
      rename_i same
      exact absurd (List.cons.inj same).1 (ne_of_first first (by decide) rfl)
  | .string quoted =>
    rw [List.cons_append, readValue?, skipSpace_append spaces rfl]
    simp [readString?_of_stringText rest quoted]
  | .noItems inside =>
    rw [List.cons_append, List.append_assoc, readValue?, skipSpace_append spaces rfl]
    simp only [List.singleton_append, skipSpace_append inside (c := ']') rfl]
  | .noMembers inside =>
    rw [List.cons_append, List.append_assoc, readValue?, skipSpace_append spaces rfl]
    simp only [List.singleton_append, skipSpace_append inside (c := '\x7d') rfl]
  | .array listed =>
    obtain ⟨fuel, rfl, inner⟩ := exists_inner_fuel enough
    have read := readItems?_of_itemsText listed fuel inner [] rest
    obtain ⟨inside, c, cs, rfl, blank, solid, bracket, -⟩ := opens_of_itemsText listed
    rw [List.append_assoc, List.cons_append] at read
    rw [List.cons_append, List.append_assoc, List.append_assoc, readValue?,
      skipSpace_append spaces rfl]
    simp only [List.cons_append, skipSpace_append blank solid]
    split
    · rename_i closed
      exact absurd (List.cons.inj closed).1 bracket
    · exact read
  | .object listed =>
    obtain ⟨fuel, rfl, inner⟩ := exists_inner_fuel enough
    have read := readMembers?_of_membersText listed fuel inner [] rest
    obtain ⟨inside, c, cs, rfl, blank, solid, -, brace⟩ := opens_of_membersText listed
    rw [List.append_assoc, List.cons_append] at read
    rw [List.cons_append, List.append_assoc, List.append_assoc, readValue?,
      skipSpace_append spaces rfl]
    simp only [List.cons_append, skipSpace_append blank solid]
    split
    · rename_i closed
      exact absurd (List.cons.inj closed).1 brace
    · exact read

/-- A value is read up to the blanks behind it. -/
theorem readValue?_of_spacedText {text : List Char} {j : Json} (spaced : SpacedText text j)
    (fuel : Nat) (enough : text.length ≤ fuel) {rest : List Char} (ends : Ends rest) :
    ∃ blanks, IsSpaces blanks ∧ readValue? fuel (text ++ rest) = some (j, blanks ++ rest) := by
  match spaced with
  | .spaced blanksBefore value blanksAfter =>
    simp only [List.length_append] at enough
    have read := readValue?_of_valueText value fuel (by omega) blanksBefore
      (ends_append blanksAfter ends)
    refine ⟨_, blanksAfter, ?_⟩
    rw [List.append_assoc, List.append_assoc]
    exact read

theorem readItems?_of_itemsText {text : List Char} {items : List Json}
    (listed : ItemsText text items) (fuel : Nat) (enough : text.length ≤ fuel)
    (before : List Json) (rest : List Char) :
    readItems? (fuel + 1) before (text ++ ']' :: rest) =
      some (.array (before.reverse ++ items), rest) := by
  match listed with
  | .last value =>
    obtain ⟨blanks, spaces, read⟩ := readValue?_of_spacedText value fuel enough
      (ends_cons (c := ']') (by decide) rest)
    rw [readItems?, read]
    simp only [skipSpace_append spaces (c := ']') rfl]
    simp
  | .more value others =>
    rw [List.length_append, List.length_cons] at enough
    obtain ⟨fuel, rfl⟩ : ∃ f, fuel = f + 1 := ⟨fuel - 1, by omega⟩
    obtain ⟨blanks, spaces, read⟩ := readValue?_of_spacedText value (fuel + 1) (by omega)
      (ends_cons (c := ',') (by decide) _)
    rw [List.append_assoc, List.cons_append, readItems?, read]
    simp only [skipSpace_append spaces (c := ',') rfl]
    rw [readItems?_of_itemsText others fuel (by omega)]
    simp

theorem readMembers?_of_membersText {text : List Char} {members : List (Option String × Json)}
    (listed : MembersText text members) (fuel : Nat) (enough : text.length ≤ fuel)
    (before : List (Option String × Json)) (rest : List Char) :
    readMembers? (fuel + 1) before (text ++ '\x7d' :: rest) =
      some (.object (before.reverse ++ members), rest) := by
  match listed with
  | .last named value =>
    rw [List.length_append, List.length_cons] at enough
    obtain ⟨blanks, spaces, read⟩ := readValue?_of_spacedText value fuel (by omega)
      (ends_cons (c := '\x7d') (by decide) rest)
    rw [List.append_assoc, List.cons_append, readMembers?_of_nameText named, read]
    simp only [Option.bind_some, skipSpace_append spaces (c := '\x7d') rfl]
    simp
  | .more named value others =>
    simp only [List.length_append, List.length_cons] at enough
    obtain ⟨fuel, rfl⟩ : ∃ f, fuel = f + 1 := ⟨fuel - 1, by omega⟩
    obtain ⟨blanks, spaces, read⟩ := readValue?_of_spacedText value (fuel + 1) (by omega)
      (ends_cons (c := ',') (by decide) _)
    rw [List.append_assoc, List.cons_append, List.append_assoc, List.cons_append,
      readMembers?_of_nameText named, read]
    simp only [Option.bind_some, skipSpace_append spaces (c := ',') rfl]
    rw [readMembers?_of_membersText others fuel (by omega)]
    simp

end

/-- A text of the grammar is read as its value. -/
theorem read_of_spacedText {text : String} {j : Json} (spaced : SpacedText text.toList j) :
    read text = some j := by
  obtain ⟨blanks, spaces, done⟩ := readValue?_of_spacedText spaced _ (Nat.le_succ _) ends_nil
  rw [List.append_nil] at done
  have nothing : skipSpace (blanks ++ []) = [] :=
    List.dropWhile_append_of_pos fun c member => (blank_of_mem (spaces c member)).1
  rw [read, done]
  simp only [nothing]
  rfl

end Intel8080.Json
