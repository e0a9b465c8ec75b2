import Intel8080.Address
import Mathlib.Data.List.Induction

/-!
# Numerals

What a numeral is and which number it stands for is said without the reader: digits by their
characters (`IsDigit`), numerals by their last digit (`Numeral`). The readers of digits accept
exactly these (`digitValue?_eq_some_iff`, `numeralValue?_eq_some_iff`). A number is written as a
numeral of it, in letters of either case (`numeral_of_map_toLower`), and zeros in front of it do not
count (`numeral_zeros`).
-/
namespace Intel8080

/-- A character is a digit of a base with some value, letters counting the same in both cases. -/
def IsDigit (base : Nat) (c : Char) (d : Nat) : Prop := d < base ∧ c.toLower = d.digitChar

/-- The digits of a numeral and what they are worth: a single digit, or a numeral with one digit
more behind it. -/
inductive Numeral (base : Nat) : List Char → Nat → Prop where
  | digit {c : Char} {d : Nat} (value : IsDigit base c d) : Numeral base [c] d
  | more {cs : List Char} {n : Nat} {c : Char} {d : Nat} (front : Numeral base cs n)
      (value : IsDigit base c d) : Numeral base (cs ++ [c]) (n * base + d)

section Digits

variable {base : Nat} {c : Char} {d : Nat}

theorem hexValue?_ascii : ∀ n < 128, ∀ d < 16,
    Json.hexValue? (Char.ofNat n) = some d ↔ (Char.ofNat n).toLower = d.digitChar := by
  decide +kernel

theorem hexValue?_lt : ∀ n < 128, ∀ d, Json.hexValue? (Char.ofNat n) = some d → d < 16 := by
  have all : ∀ n < 128, (Json.hexValue? (Char.ofNat n)).all (· < 16) = true := by decide +kernel
  intro n small d value
  have bound := all n small
  rw [value] at bound
  exact of_decide_eq_true bound

theorem toNat_lt_of_hexValue? (value : Json.hexValue? c = some d) : c.toNat < 128 := by
  have bounded (top : Char) (below : c ≤ top) (low : top.toNat < 128) : c.toNat < 128 :=
    Nat.lt_of_le_of_lt below low
  rw [Json.hexValue?] at value
  split at value
  · rename_i range
    exact bounded '9' (of_decide_eq_true (Bool.and_eq_true_iff.1 range).2) (by decide)
  · split at value
    · rename_i range
      exact bounded 'f' (of_decide_eq_true (Bool.and_eq_true_iff.1 range).2) (by decide)
    · split at value
      · rename_i range
        exact bounded 'F' (of_decide_eq_true (Bool.and_eq_true_iff.1 range).2) (by decide)
      · cases value

theorem toNat_digitChar_lt : ∀ d < 16, d.digitChar.toNat < 128 := by
  decide

/-- Only the letters from A to Z have another character as their lower case. -/
theorem toLower_of_not_upper (other : ¬ ('A' ≤ c ∧ c ≤ 'Z')) : c.toLower = c := dif_neg other

theorem toNat_lt_of_toLower (small : d < 16) (value : c.toLower = d.digitChar) : c.toNat < 128 := by
  by_cases upper : 'A' ≤ c ∧ c ≤ 'Z'
  · exact Nat.lt_of_le_of_lt upper.2 (by decide)
  · rw [toLower_of_not_upper upper] at value
    rw [value]
    exact toNat_digitChar_lt d small

/-- The hexadecimal digits are read with their values, in either case. -/
theorem hexValue?_eq_some_iff : Json.hexValue? c = some d ↔ IsDigit 16 c d := by
  have ascii (low : c.toNat < 128) (small : d < 16) :
      Json.hexValue? c = some d ↔ c.toLower = d.digitChar := by
    have same := hexValue?_ascii c.toNat low d small
    rw [Char.ofNat_toNat] at same
    exact same
  constructor
  · intro value
    have low := toNat_lt_of_hexValue? value
    have small : d < 16 := hexValue?_lt c.toNat low d (by rw [Char.ofNat_toNat]; exact value)
    exact ⟨small, (ascii low small).1 value⟩
  · rintro ⟨small, value⟩
    exact (ascii (toNat_lt_of_toLower small value) small).2 value

theorem digitValue?_eq_some_iff (fits : base ≤ 16) :
    digitValue? base c = some d ↔ IsDigit base c d := by
  rw [digitValue?, Option.filter_eq_some_iff, hexValue?_eq_some_iff, decide_eq_true_iff]
  exact ⟨fun digit => ⟨digit.2, digit.1.2⟩,
    fun digit => ⟨⟨Nat.lt_of_lt_of_le digit.1 fits, digit.2⟩, digit.1⟩⟩

end Digits

section Numerals

variable {base : Nat} {cs : List Char} {n : Nat}

theorem numeralValue?_singleton (base : Nat) (c : Char) :
    numeralValue? base [c] = digitValue? base c := by
  cases value : digitValue? base c with
  | none => simp [numeralValue?, value]
  | some d => simp [numeralValue?, value]

/-- A digit behind a numeral is the last one. -/
theorem numeralValue?_concat (base : Nat) (c : Char) (given : cs ≠ []) :
    numeralValue? base (cs ++ [c]) = (numeralValue? base cs).bind fun n =>
      (digitValue? base c).map fun d => n * base + d := by
  cases front : cs.mapM (digitValue? base) with
  | none => simp [numeralValue?, given, List.mapM_append, front]
  | some digits =>
    cases value : digitValue? base c with
    | none => simp [numeralValue?, given, List.mapM_append, front, value]
    | some d => simp [numeralValue?, given, List.mapM_append, front, value, List.foldl_append]

/-- The value of digits is that of the numeral that they are. -/
theorem numeralValue?_eq_some_iff (fits : base ≤ 16) :
    numeralValue? base cs = some n ↔ Numeral base cs n := by
  constructor
  · intro value
    induction cs using List.reverseRecOn generalizing n with
    | nil => cases value
    | append_singleton cs c ih =>
      by_cases given : cs = []
      · subst given
        rw [List.nil_append, numeralValue?_singleton] at value
        exact .digit ((digitValue?_eq_some_iff fits).1 value)
      · rw [numeralValue?_concat base c given, Option.bind_eq_some_iff] at value
        obtain ⟨m, front, value⟩ := value
        obtain ⟨d, last, rfl⟩ := Option.map_eq_some_iff.1 value
        exact .more (ih front) ((digitValue?_eq_some_iff fits).1 last)
  · intro numeral
    induction numeral with
    | digit value =>
      rw [numeralValue?_singleton]
      exact (digitValue?_eq_some_iff fits).2 value
    | @more cs n c d front value ih =>
      have given : cs ≠ [] := by
        rintro rfl
        cases ih
      rw [numeralValue?_concat base c given, ih, (digitValue?_eq_some_iff fits).2 value]
      rfl

/-- Zeros in front of a numeral do not change it. -/
theorem numeral_zeros (positive : 0 < base) (numeral : Numeral base cs n) (zeros : Nat) :
    Numeral base (List.replicate zeros '0' ++ cs) n := by
  have zero : IsDigit base '0' 0 := ⟨positive, rfl⟩
  have once {cs : List Char} {n : Nat} (numeral : Numeral base cs n) :
      Numeral base ('0' :: cs) n := by
    induction numeral with
    | @digit c d value =>
      have two := Numeral.more (.digit zero) value
      rw [Nat.zero_mul, Nat.zero_add] at two
      exact two
    | more _ value ih => exact .more ih value
  induction zeros with
  | zero => exact numeral
  | succ zeros ih => exact once ih

/-- A number is written as a numeral of it, and the case of the letters does not matter. -/
theorem numeral_of_map_toLower (two : 1 < base)
    (written : cs.map Char.toLower = Nat.toDigits base n) : Numeral base cs n := by
  induction n using Nat.strongRecOn generalizing cs with
  | ind n ih =>
    by_cases small : n < base
    · rw [Nat.toDigits_of_lt_base small] at written
      obtain ⟨c, rfl, digit⟩ := List.map_eq_singleton_iff.1 written
      exact .digit ⟨small, digit⟩
    · rw [Nat.toDigits_of_base_le two (Nat.le_of_not_lt small)] at written
      obtain ⟨front, last, rfl, high, low⟩ := List.map_eq_append_iff.1 written
      obtain ⟨c, rfl, digit⟩ := List.map_eq_singleton_iff.1 low
      have more := Numeral.more (ih (n / base) (Nat.div_lt_self (by omega) two) high)
        ⟨Nat.mod_lt n (by omega), digit⟩
      rw [Nat.div_add_mod'] at more
      exact more

theorem toLower_of_isDigit {c : Char} (digit : c.isDigit = true) : c.toLower = c := by
  apply toLower_of_not_upper
  rintro ⟨letter, -⟩
  have number : c ≤ '9' := of_decide_eq_true (Bool.and_eq_true_iff.1 digit).2
  exact absurd (UInt32.le_trans letter number) (by decide)

/-- A number is written as a decimal numeral of it. -/
theorem numeral_toDigits_ten (n : Nat) : Numeral 10 (Nat.toDigits 10 n) n := by
  have digits : ∀ c ∈ Nat.toDigits 10 n, c.toLower = c := fun c member =>
    toLower_of_isDigit (Nat.isDigit_of_mem_toDigits (by decide) (by decide) member)
  exact numeral_of_map_toLower (by decide) ((List.map_congr_left digits).trans (List.map_id' _))

theorem Numeral.ne_nil (numeral : Numeral base cs n) : cs ≠ [] := by
  cases numeral with
  | digit value => exact List.cons_ne_nil _ _
  | more front value => exact List.append_ne_nil_of_right_ne_nil _ (List.cons_ne_nil _ _)

theorem Numeral.isDigit_of_mem (numeral : Numeral base cs n) :
    ∀ c ∈ cs, ∃ d, IsDigit base c d := by
  induction numeral with
  | digit value =>
    intro c member
    rw [List.mem_singleton.1 member]
    exact ⟨_, value⟩
  | more front value ih =>
    intro c member
    rcases List.mem_append.1 member with inside | last
    · exact ih c inside
    · rw [List.mem_singleton.1 last]
      exact ⟨_, value⟩

theorem Numeral.not_mem (numeral : Numeral base cs n) {c : Char}
    (other : ∀ d < base, c.toLower ≠ d.digitChar) : c ∉ cs := by
  intro member
  obtain ⟨d, small, value⟩ := numeral.isDigit_of_mem c member
  exact other d small value

end Numerals

end Intel8080
