import Intel8080.Arithmetic
import Intel8080.Proofs.Arithmetic.Positional

/-!
# Decimal addition byte by byte

Numbers of any length are kept as packed decimal bytes, least significant first, two digits to a
byte. Adding two of them is one `adc` and one `daa` per byte, with the flags passed on. The
independent side is positional: `decimalValue` reads a list of bytes as a number and
`packedDigits` writes the digits of a number.

The low step of `daa` adds six modulo 256 and drops the carry out of that addition. A byte whose
tens add up to fifteen and whose units reach ten without reaching sixteen loses its carry there:
the tens come out as zero and the next byte is not told. `addDecimal_eq_sum_iff` says that this is
the only way to go wrong, and that it always does.
-/
namespace Intel8080.Arithmetic

def unitsDigit (b : UInt8) : Nat := b.toNat % 16

def tensDigit (b : UInt8) : Nat := b.toNat / 16

def IsPackedDecimal (b : UInt8) : Prop := unitsDigit b ≤ 9 ∧ tensDigit b ≤ 9

instance (b : UInt8) : Decidable (IsPackedDecimal b) := inferInstanceAs (Decidable (_ ∧ _))

/-- The number that the two digits of a byte write. -/
def packedValue (b : UInt8) : Nat := 10 * tensDigit b + unitsDigit b

/-- The number that the digits of a list of bytes write, least significant byte first. -/
def decimalValue (bytes : List UInt8) : Nat := Nat.ofDigits 100 (bytes.map packedValue)

/-- The byte that holds the last two digits of a number. -/
def packedByte (v : Nat) : UInt8 := UInt8.ofNat (16 * (v / 10 % 10) + v % 10)

/-- The last `2 * n` digits of a number in `n` bytes, least significant byte first. -/
def packedDigits (n v : Nat) : List UInt8 := (List.range n).map fun i => packedByte (v / 100 ^ i)

/-- Adds two bytes with the carry flag and adjusts the sum. -/
def addDecimalByte (f : Flags) (x y : UInt8) : UInt8 × Flags :=
  let (sum, f) := adc f x y
  daa f sum

/-- Adds two numbers of equal length from the least significant byte on. -/
def addDecimal (f : Flags) : List UInt8 → List UInt8 → List UInt8 × Flags
  | x :: xs, y :: ys =>
    let (r, f) := addDecimalByte f x y
    let (rs, f) := addDecimal f xs ys
    (r :: rs, f)
  | _, _ => ([], f)

/-- The addition of six carries out of the byte, and nothing else does. -/
def dropsCarry (carry : Nat) (x y : UInt8) : Bool :=
  tensDigit x + tensDigit y == 15 &&
    (10 ≤ unitsDigit x + unitsDigit y + carry && unitsDigit x + unitsDigit y + carry < 16)

/-- Some byte of a sum drops its carry, where each byte gets the carry of the decimal sum of the
bytes before it. -/
def dropsSomeCarry (carry : Nat) : List UInt8 → List UInt8 → Bool
  | x :: xs, y :: ys =>
    dropsCarry carry x y || dropsSomeCarry ((packedValue x + packedValue y + carry) / 100) xs ys
  | _, _ => false

@[simp] theorem decimalValue_nil : decimalValue [] = 0 := rfl

@[simp] theorem decimalValue_cons (b : UInt8) (rest : List UInt8) :
    decimalValue (b :: rest) = packedValue b + 100 * decimalValue rest := by
  simp [decimalValue, Nat.ofDigits_cons]

@[simp] theorem packedDigits_zero (v : Nat) : packedDigits 0 v = [] := rfl

theorem packedDigits_succ (n v : Nat) :
    packedDigits (n + 1) v = packedByte v :: packedDigits n (v / 100) :=
  lastDigits_succ packedByte 100 n v

theorem packedByte_mod (v : Nat) : packedByte (v % 100) = packedByte v := by
  unfold packedByte
  congr 2 <;> omega

/-- Digits that are cut off make no difference. -/
theorem packedDigits_mod (n v : Nat) : packedDigits n (v % 100 ^ n) = packedDigits n v :=
  lastDigits_mod packedByte 100 packedByte_mod n v

theorem toNat_packedByte (v : Nat) :
    (packedByte v).toNat = 16 * (v / 10 % 10) + v % 10 := by
  simp only [packedByte, UInt8.toNat_ofNat']
  omega

/-- What the addition leaves to the adjustment, in digits: `units` and `tens` are the sums of the
digits with the carry, before any of them is brought below ten. -/
structure RawSum (sum : UInt8) (f : Flags) (units tens : Nat) : Prop where
  sum_eq : sum.toNat = (16 * tens + units) % 256
  auxCarry_eq : f.auxCarry = decide (16 ≤ units)
  carry_eq : f.carry = decide (256 ≤ 16 * tens + units)
  units_le : units ≤ 19
  tens_le : tens ≤ 18

/-- The binary addition of two packed bytes leaves the digit sums where the adjustment looks for
them: in the nibbles, the auxiliary carry and the carry. -/
theorem adc_rawSum (f : Flags) (x y : UInt8) (hx : IsPackedDecimal x) (hy : IsPackedDecimal y) :
    RawSum (adc f x y).1 (adc f x y).2 (unitsDigit x + unitsDigit y + f.carry.toNat)
      (tensDigit x + tensDigit y) := by
  obtain ⟨xUnits, xTens⟩ := hx
  obtain ⟨yUnits, yTens⟩ := hy
  have bit : f.carry.toNat ≤ 1 := Bool.toNat_le f.carry
  have whole : x.toNat + y.toNat + f.carry.toNat =
      16 * (tensDigit x + tensDigit y) + (unitsDigit x + unitsDigit y + f.carry.toNat) := by
    unfold unitsDigit tensDigit
    omega
  refine ⟨?_, ?_, ?_, by omega, by omega⟩
  · simp only [adc, addWithCarry, UInt8.toNat_ofNat', whole]
  · rfl
  · simp only [adc, addWithCarry, Flags.withResult, whole]
    rfl

/-- The low step adds six, modulo 256, when the units have reached ten. -/
theorem toNat_adjustLow {sum : UInt8} {f : Flags} {units tens : Nat}
    (raw : RawSum sum f units tens) :
    (adjustLow f sum).1.toNat = (16 * tens + units + if 10 ≤ units then 6 else 0) % 256 := by
  obtain ⟨sum_eq, aux, -, units_le, -⟩ := raw
  unfold adjustLow
  by_cases reached : 10 ≤ units
  · have condition : (decide (9 < sum.toNat % 16) || f.auxCarry) = true := by
      rw [aux, Bool.or_eq_true, decide_eq_true_eq, decide_eq_true_eq]
      omega
    rw [if_pos condition, if_pos reached, UInt8.toNat_add, sum_eq, Nat.mod_add_mod]
    rfl
  · have condition : ¬ (decide (9 < sum.toNat % 16) || f.auxCarry) = true := by
      rw [aux, Bool.or_eq_true, decide_eq_true_eq, decide_eq_true_eq]
      omega
    rw [if_neg condition, if_neg reached, sum_eq, Nat.add_zero]

/-- This is the slip: the carry out of adding six goes nowhere. -/
theorem adjustLow_carry (f : Flags) (acc : UInt8) : (adjustLow f acc).2.carry = f.carry := by
  unfold adjustLow
  split <;> rfl

/-- The high step adds sixty, modulo 256, and carries out when the tens have reached ten or were
carried out by the addition. -/
theorem adjustHigh_effect {f : Flags} {total : Nat} (acc : UInt8)
    (carry : f.carry = decide (256 ≤ total)) :
    (adjustHigh f acc).1.toNat =
        (acc.toNat + if 160 ≤ acc.toNat ∨ 256 ≤ total then 96 else 0) % 256 ∧
      (adjustHigh f acc).2.carry = decide (160 ≤ acc.toNat ∨ 256 ≤ total) := by
  have bound := acc.toNat_lt
  unfold adjustHigh
  by_cases reached : 160 ≤ acc.toNat ∨ 256 ≤ total
  · have condition : (decide (9 < acc.toNat / 16) || f.carry) = true := by
      rw [carry, Bool.or_eq_true, decide_eq_true_eq, decide_eq_true_eq]
      omega
    rw [if_pos condition, if_pos reached, UInt8.toNat_add, decide_eq_true reached]
    refine ⟨rfl, ?_⟩
    rw [carry, Bool.or_eq_true, decide_eq_true_eq, decide_eq_true_eq]
    omega
  · have condition : ¬ (decide (9 < acc.toNat / 16) || f.carry) = true := by
      rw [carry, Bool.or_eq_true, decide_eq_true_eq, decide_eq_true_eq]
      omega
    rw [if_neg condition, if_neg reached, decide_eq_false reached]
    refine ⟨(Nat.mod_eq_of_lt bound).symm, ?_⟩
    rw [carry, decide_eq_false_iff_not]
    omega

/-- The adjustment in numbers: the two steps one after the other. -/
theorem daa_effect {sum : UInt8} {f : Flags} {units tens low : Nat} (raw : RawSum sum f units tens)
    (low_eq : low = (16 * tens + units + if 10 ≤ units then 6 else 0) % 256) :
    (daa f sum).1.toNat =
        (low + if 160 ≤ low ∨ 256 ≤ 16 * tens + units then 96 else 0) % 256 ∧
      (daa f sum).2.carry = decide (160 ≤ low ∨ 256 ≤ 16 * tens + units) := by
  have carry : (adjustLow f sum).2.carry = decide (256 ≤ 16 * tens + units) :=
    (adjustLow_carry f sum).trans raw.carry_eq
  have effect := adjustHigh_effect (adjustLow f sum).1 carry
  rw [toNat_adjustLow raw, ← low_eq] at effect
  exact effect

/-- Without a dropped carry the adjustment brings both digits below ten and carries the rest. -/
theorem daa_of_kept {sum : UInt8} {f : Flags} {units tens : Nat} (raw : RawSum sum f units tens)
    (kept : ¬ (tens = 15 ∧ 10 ≤ units ∧ units < 16)) :
    (daa f sum).1 = packedByte (10 * tens + units) ∧
      (daa f sum).2.carry = decide (100 ≤ 10 * tens + units) := by
  obtain ⟨low, low_eq⟩ : ∃ low, low = (16 * tens + units + if 10 ≤ units then 6 else 0) % 256 :=
    ⟨_, rfl⟩
  obtain ⟨value, carry⟩ := daa_effect raw low_eq
  have units_le := raw.units_le
  have tens_le := raw.tens_le
  refine ⟨UInt8.toNat_inj.1 ?_, ?_⟩
  · rw [value, toNat_packedByte]
    split at low_eq <;> split <;> omega
  · rw [carry, decide_eq_decide]
    split at low_eq <;> omega

/-- With a dropped carry the tens come out as zero, where six are due. -/
theorem daa_of_dropped {sum : UInt8} {f : Flags} {units : Nat} (raw : RawSum sum f units 15)
    (reached : 10 ≤ units) (below : units < 16) :
    (daa f sum).1 ≠ packedByte (10 * 15 + units) := by
  intro same
  obtain ⟨value, -⟩ := daa_effect raw rfl
  rw [same, toNat_packedByte, if_pos reached, if_neg (by omega)] at value
  omega

/-- One byte of a decimal sum, with the carry that goes on to the next. -/
theorem addDecimalByte_of_kept (f : Flags) (x y : UInt8) (hx : IsPackedDecimal x)
    (hy : IsPackedDecimal y) (kept : dropsCarry f.carry.toNat x y = false) :
    (addDecimalByte f x y).1 = packedByte (packedValue x + packedValue y + f.carry.toNat) ∧
      (addDecimalByte f x y).2.carry.toNat =
        (packedValue x + packedValue y + f.carry.toNat) / 100 := by
  have raw := adc_rawSum f x y hx hy
  have total : packedValue x + packedValue y + f.carry.toNat =
      10 * (tensDigit x + tensDigit y) + (unitsDigit x + unitsDigit y + f.carry.toNat) := by
    unfold packedValue
    omega
  have condition : ¬ (tensDigit x + tensDigit y = 15 ∧
      10 ≤ unitsDigit x + unitsDigit y + f.carry.toNat ∧
      unitsDigit x + unitsDigit y + f.carry.toNat < 16) := by
    simpa [dropsCarry] using kept
  obtain ⟨digits, carry⟩ := daa_of_kept raw condition
  have units_le := raw.units_le
  have tens_le := raw.tens_le
  refine ⟨digits.trans (by rw [total]), ?_⟩
  rw [total]
  refine (congrArg Bool.toNat carry).trans ?_
  by_cases reached : 100 ≤ 10 * (tensDigit x + tensDigit y) +
      (unitsDigit x + unitsDigit y + f.carry.toNat)
  · rw [decide_eq_true reached, Bool.toNat_true]
    omega
  · rw [decide_eq_false reached, Bool.toNat_false]
    omega

/-- A dropped carry always shows, so the condition of the main result is exact. -/
theorem addDecimalByte_of_dropped (f : Flags) (x y : UInt8) (hx : IsPackedDecimal x)
    (hy : IsPackedDecimal y) (dropped : dropsCarry f.carry.toNat x y = true) :
    (addDecimalByte f x y).1 ≠ packedByte (packedValue x + packedValue y + f.carry.toNat) := by
  have raw := adc_rawSum f x y hx hy
  simp only [dropsCarry, Bool.and_eq_true, beq_iff_eq, decide_eq_true_eq] at dropped
  obtain ⟨tens, reached, below⟩ := dropped
  have total : packedValue x + packedValue y + f.carry.toNat =
      10 * 15 + (unitsDigit x + unitsDigit y + f.carry.toNat) := by
    unfold packedValue
    omega
  rw [tens] at raw
  rw [total]
  exact daa_of_dropped raw reached below

/-- The sum of longer numbers is the sum of their first bytes and a hundred times the rest. -/
theorem decimal_sum_split (x y : UInt8) (xs ys : List UInt8) (carry : Nat) :
    (decimalValue (x :: xs) + decimalValue (y :: ys) + carry) / 100 =
      decimalValue xs + decimalValue ys + (packedValue x + packedValue y + carry) / 100 := by
  rw [decimalValue_cons, decimalValue_cons]
  omega

/-- Addition of numbers of equal length gives the digits of the sum, and the carry out of it,
exactly when no byte drops its carry. -/
theorem addDecimal_eq_sum_iff (f : Flags) (xs ys : List UInt8) (lengths : xs.length = ys.length)
    (hxs : ∀ b ∈ xs, IsPackedDecimal b) (hys : ∀ b ∈ ys, IsPackedDecimal b) :
    ((addDecimal f xs ys).1 = packedDigits xs.length
          ((decimalValue xs + decimalValue ys + f.carry.toNat) % 100 ^ xs.length) ∧
        ((addDecimal f xs ys).2.carry = true ↔
          100 ^ xs.length ≤ decimalValue xs + decimalValue ys + f.carry.toNat)) ↔
      dropsSomeCarry f.carry.toNat xs ys = false := by
  rw [packedDigits_mod]
  induction xs generalizing f ys with
  | nil =>
    cases ys with
    | cons y ys => simp at lengths
    | nil => cases carry : f.carry <;> simp [addDecimal, dropsSomeCarry, carry]
  | cons x xs ih =>
    cases ys with
    | nil => simp at lengths
    | cons y ys =>
      have hx := hxs x (by simp)
      have hy := hys y (by simp)
      have split := decimal_sum_split x y xs ys f.carry.toNat
      have first : packedByte (decimalValue (x :: xs) + decimalValue (y :: ys) + f.carry.toNat) =
          packedByte (packedValue x + packedValue y + f.carry.toNat) := by
        rw [← packedByte_mod, ← packedByte_mod (packedValue x + packedValue y + f.carry.toNat),
          decimalValue_cons, decimalValue_cons]
        congr 1
        omega
      rw [List.length_cons, packedDigits_succ, split, first]
      simp only [addDecimal, dropsSomeCarry, List.cons.injEq, Bool.or_eq_false_iff]
      cases dropped : dropsCarry f.carry.toNat x y with
      | true =>
        have wrong := addDecimalByte_of_dropped f x y hx hy dropped
        simp [wrong]
      | false =>
        obtain ⟨digits, carry⟩ := addDecimalByte_of_kept f x y hx hy dropped
        have rest := ih (addDecimalByte f x y).2 ys (by simpa using lengths)
          (fun b member => hxs b (by simp [member])) (fun b member => hys b (by simp [member]))
        have bound : 100 ^ (xs.length + 1) ≤
            decimalValue (x :: xs) + decimalValue (y :: ys) + f.carry.toNat ↔
            100 ^ xs.length ≤ decimalValue xs + decimalValue ys +
              (packedValue x + packedValue y + f.carry.toNat) / 100 := by
          rw [← split, Nat.le_div_iff_mul_le (by decide), pow_succ]
        rw [carry] at rest
        rw [bound, ← rest]
        simp [digits]

/-- 65 and 95 make 160, but their bytes give zero without a carry: the units are 10, so six is
added to FA, which leaves the byte. -/
theorem addDecimal_95_65_wrong :
    ¬ ((addDecimal .clear [0x95] [0x65]).1 = packedDigits 1
          ((decimalValue [0x95] + decimalValue [0x65] + Flags.clear.carry.toNat) % 100 ^ 1) ∧
        ((addDecimal .clear [0x95] [0x65]).2.carry = true ↔
          100 ^ 1 ≤ decimalValue [0x95] + decimalValue [0x65] + Flags.clear.carry.toNat)) := by
  decide

/-- 4738 and 9285 with a carry make 14024, through a carry between the bytes and one out of them. -/
theorem addDecimal_4738_9285 :
    dropsSomeCarry 1 [0x38, 0x47] [0x85, 0x92] = false ∧
      (addDecimal { Flags.clear with carry := true } [0x38, 0x47] [0x85, 0x92]).1 = [0x24, 0x40] ∧
      (addDecimal { Flags.clear with carry := true } [0x38, 0x47] [0x85, 0x92]).2.carry = true := by
  have kept : dropsSomeCarry 1 [0x38, 0x47] [0x85, 0x92] = false := by decide
  have sum := (addDecimal_eq_sum_iff { Flags.clear with carry := true } [0x38, 0x47] [0x85, 0x92]
    rfl (by simp [IsPackedDecimal, unitsDigit, tensDigit])
    (by simp [IsPackedDecimal, unitsDigit, tensDigit])).2 kept
  have digits : packedDigits 2 ((4738 + 9285 + 1) % 100 ^ 2) = [0x24, 0x40] := by decide
  exact ⟨kept, sum.1.trans digits, sum.2.2 (by decide)⟩

end Intel8080.Arithmetic
