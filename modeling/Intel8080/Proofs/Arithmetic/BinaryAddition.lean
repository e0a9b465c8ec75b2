import Intel8080.Arithmetic
import Intel8080.Proofs.Arithmetic.Positional
import Intel8080.Word

/-!
# Binary addition and subtraction byte by byte

Numbers of any length are added with one `adc` per byte and subtracted with one `sbb` per byte,
from the least significant byte on, with the flags passed on. Each byte keeps an exact account: the
result and the carry that leaves it are worth what went in (`adc_value`, `sbb_value`). Along the
bytes the accounts add up (`chain_adc_value`, `chain_sbb_value`), and since a result has no room
for more, they determine it: `chain_exact` says that sums and differences of any length are exact
modulo their room, with the carry telling whether something was lost. On two bytes the addition is
that of `dad`.
-/
namespace Intel8080.Arithmetic

/-- Combines two numbers of equal length from the least significant byte on, passing the flags
on. -/
def chain (op : Flags → UInt8 → UInt8 → UInt8 × Flags) (f : Flags) :
    List UInt8 → List UInt8 → List UInt8 × Flags
  | x :: xs, y :: ys =>
    let (r, f) := op f x y
    let (rs, f) := chain op f xs ys
    (r :: rs, f)
  | _, _ => ([], f)

/-- A chain gives a byte for each pair of bytes. -/
theorem length_chain (op : Flags → UInt8 → UInt8 → UInt8 × Flags) (f : Flags)
    (xs ys : List UInt8) (lengths : xs.length = ys.length) :
    (chain op f xs ys).1.length = xs.length := by
  induction xs generalizing f ys with
  | nil => cases ys <;> rfl
  | cons x xs ih =>
    cases ys with
    | nil => simp at lengths
    | cons y ys => exact congrArg (· + 1) (ih (op f x y).2 ys (Nat.succ.inj lengths))

/-- A carry out of a byte is worth 256. -/
theorem addWithCarry_value (f : Flags) (x y : UInt8) (carry : Bool) :
    (addWithCarry f x y carry).1.toNat + 256 * (addWithCarry f x y carry).2.carry.toNat =
      x.toNat + y.toNat + carry.toNat := by
  have bounds := And.intro x.toNat_lt y.toNat_lt
  have bit := Bool.toNat_le carry
  simp only [addWithCarry, Flags.withResult, UInt8.toNat_ofNat']
  by_cases exceeds : 255 < x.toNat + y.toNat + carry.toNat
  · rw [decide_eq_true exceeds, Bool.toNat_true]
    omega
  · rw [decide_eq_false exceeds, Bool.toNat_false]
    omega

/-- What does not fit the byte of a sum is in the carry. -/
theorem adc_value (f : Flags) (x y : UInt8) :
    (adc f x y).1.toNat + 256 * (adc f x y).2.carry.toNat =
      x.toNat + y.toNat + f.carry.toNat :=
  addWithCarry_value f x y f.carry

theorem toNat_complement (b : UInt8) : (~~~b).toNat = 255 - b.toNat := by
  rw [UInt8.toNat_not]
  rfl

theorem toNat_not_add (bit : Bool) : (!bit).toNat + bit.toNat = 1 := by
  cases bit <;> rfl

/-- A borrow is paid for by the carry that leaves the byte. The complement and both inverted
carries are worth 256 together. -/
theorem sbb_value (f : Flags) (x y : UInt8) :
    (sbb f x y).1.toNat + y.toNat + f.carry.toNat =
      x.toNat + 256 * (sbb f x y).2.carry.toNat := by
  have bound := y.toNat_lt
  have added := addWithCarry_value f x (~~~y) (!f.carry)
  have borrowIn := toNat_not_add f.carry
  have borrowOut := toNat_not_add (addWithCarry f x (~~~y) (!f.carry)).2.carry
  rw [toNat_complement] at added
  simp only [sbb, subWithBorrow]
  omega

/-- The account of a number and that of the bytes behind its first. -/
theorem pow_succ_mul (n carry : ℕ) : 256 ^ (n + 1) * carry = 256 * (256 ^ n * carry) := by
  rw [pow_succ', Nat.mul_assoc]

/-- The same for numbers of any length: the carry of the last byte is worth what does not fit. -/
theorem chain_adc_value (f : Flags) (xs ys : List UInt8) (lengths : xs.length = ys.length) :
    bytesValue (chain adc f xs ys).1 + 256 ^ xs.length * (chain adc f xs ys).2.carry.toNat =
      bytesValue xs + bytesValue ys + f.carry.toNat := by
  induction xs generalizing f ys with
  | nil =>
    cases ys with
    | cons y ys => simp at lengths
    | nil => simp [chain]
  | cons x xs ih =>
    cases ys with
    | nil => simp at lengths
    | cons y ys =>
      have first := adc_value f x y
      have rest := ih (adc f x y).2 ys (Nat.succ.inj lengths)
      simp only [chain, bytesValue_cons, List.length_cons, pow_succ_mul]
      omega

/-- A difference with what is taken from it makes the number again, up to the borrow of the last
byte. -/
theorem chain_sbb_value (f : Flags) (xs ys : List UInt8) (lengths : xs.length = ys.length) :
    bytesValue (chain sbb f xs ys).1 + bytesValue ys + f.carry.toNat =
      bytesValue xs + 256 ^ xs.length * (chain sbb f xs ys).2.carry.toNat := by
  induction xs generalizing f ys with
  | nil =>
    cases ys with
    | cons y ys => simp at lengths
    | nil => simp [chain]
  | cons x xs ih =>
    cases ys with
    | nil => simp at lengths
    | cons y ys =>
      have first := sbb_value f x y
      have rest := ih (sbb f x y).2 ys (Nat.succ.inj lengths)
      simp only [chain, bytesValue_cons, List.length_cons, pow_succ_mul]
      omega

/-- A number below the room and a bit worth the room are remainder and quotient. -/
theorem split_of_account {low room total : ℕ} {carry : Bool} (below : low < room)
    (account : low + room * carry.toNat = total) :
    low = total % room ∧ (carry = true ↔ room ≤ total) := by
  cases carry with
  | false =>
    rw [Bool.toNat_false, Nat.mul_zero, Nat.add_zero] at account
    subst account
    exact ⟨(Nat.mod_eq_of_lt below).symm, by simpa using below⟩
  | true =>
    rw [Bool.toNat_true, Nat.mul_one] at account
    subst account
    exact ⟨by rw [Nat.add_mod_right, Nat.mod_eq_of_lt below], by simp⟩

/-- The bytes of a chain are the sum as far as it fits, and the carry says whether it did not. -/
theorem chain_adc (f : Flags) (xs ys : List UInt8) (lengths : xs.length = ys.length) :
    (chain adc f xs ys).1 =
        bytesOf xs.length ((bytesValue xs + bytesValue ys + f.carry.toNat) % 256 ^ xs.length) ∧
      ((chain adc f xs ys).2.carry = true ↔
        256 ^ xs.length ≤ bytesValue xs + bytesValue ys + f.carry.toNat) := by
  have length := length_chain adc f xs ys lengths
  have below := bytesValue_lt (chain adc f xs ys).1
  rw [length] at below
  obtain ⟨value, carry⟩ := split_of_account below (chain_adc_value f xs ys lengths)
  exact ⟨eq_bytesOf length (by rw [Nat.mod_mod, value]), carry⟩

/-- The bytes of a chain are the difference modulo the room, and the carry says whether it was below
zero. -/
theorem chain_sbb (f : Flags) (xs ys : List UInt8) (lengths : xs.length = ys.length) :
    (chain sbb f xs ys).1 = bytesOf xs.length
        (((bytesValue xs : ℤ) - bytesValue ys - f.carry.toNat) % 256 ^ xs.length).toNat ∧
      ((chain sbb f xs ys).2.carry = true ↔ bytesValue xs < bytesValue ys + f.carry.toNat) := by
  have length := length_chain sbb f xs ys lengths
  have below := bytesValue_lt (chain sbb f xs ys).1
  have account := chain_sbb_value f xs ys lengths
  rw [length] at below
  have difference : ((bytesValue xs : ℤ) - bytesValue ys - f.carry.toNat) % 256 ^ xs.length =
      (bytesValue (chain sbb f xs ys).1 : ℕ) := by
    have paid : (bytesValue xs : ℤ) - bytesValue ys - f.carry.toNat =
        bytesValue (chain sbb f xs ys).1 -
          256 ^ xs.length * ((chain sbb f xs ys).2.carry.toNat : ℤ) := by
      zify at account
      linarith
    rw [paid, Int.sub_mul_emod_self_left]
    exact Int.emod_eq_of_lt (Int.natCast_nonneg _) (by exact_mod_cast below)
  refine ⟨eq_bytesOf length ?_, ?_⟩
  · rw [difference, Int.toNat_natCast, Nat.mod_eq_of_lt below]
  · generalize 256 ^ xs.length = room at account below
    cases borrow : (chain sbb f xs ys).2.carry with
    | false =>
      rw [borrow, Bool.toNat_false, Nat.mul_zero] at account
      simp only [Bool.false_eq_true, false_iff, not_lt]
      omega
    | true =>
      rw [borrow, Bool.toNat_true, Nat.mul_one] at account
      simp only [true_iff]
      omega

/-- Subtracting what was added gives the number back, if both start with the same carry. -/
theorem chain_sbb_chain_adc (f g : Flags) (same : g.carry = f.carry) (xs ys : List UInt8)
    (lengths : xs.length = ys.length) : (chain sbb g (chain adc f xs ys).1 ys).1 = xs := by
  have sumLength := length_chain adc f xs ys lengths
  have length : (chain sbb g (chain adc f xs ys).1 ys).1.length = xs.length :=
    (length_chain sbb g _ ys (sumLength.trans lengths)).trans sumLength
  have added := chain_adc_value f xs ys lengths
  have subtracted := chain_sbb_value g (chain adc f xs ys).1 ys (sumLength.trans lengths)
  have below := bytesValue_lt (chain sbb g (chain adc f xs ys).1 ys).1
  have xBelow := bytesValue_lt xs
  rw [length] at below
  rw [sumLength, same] at subtracted
  apply bytesValue_inj length
  -- Both numbers are below the room, so the carry that left is the borrow that comes back.
  generalize 256 ^ xs.length = room at *
  generalize (chain adc f xs ys).2.carry = carry at added
  generalize (chain sbb g (chain adc f xs ys).1 ys).2.carry = borrow at subtracted
  cases carry <;> cases borrow <;>
    simp only [Bool.toNat_false, Bool.toNat_true, Nat.mul_zero, Nat.mul_one] at added subtracted <;>
    omega

/-- The two bytes of a word are added as the word is. -/
theorem adc_add_eq_dad (f g : Flags) (u v : UInt16) :
    let low := add f (lowByte u) (lowByte v)
    let high := adc low.2 (highByte u) (highByte v)
    wordOf high.1 low.1 = (dad g u v).1 ∧ high.2.carry = (dad g u v).2.carry := by
  intro low high
  have lowAccount : low.1.toNat + 256 * low.2.carry.toNat =
      (lowByte u).toNat + (lowByte v).toNat + 0 :=
    addWithCarry_value f (lowByte u) (lowByte v) false
  have highAccount : high.1.toNat + 256 * high.2.carry.toNat =
      (highByte u).toNat + (highByte v).toNat + low.2.carry.toNat :=
    adc_value low.2 (highByte u) (highByte v)
  have account : (wordOf high.1 low.1).toNat + 65536 * high.2.carry.toNat =
      u.toNat + v.toNat := by
    rw [toNat_lowByte, toNat_lowByte] at lowAccount
    rw [toNat_highByte, toNat_highByte] at highAccount
    rw [toNat_wordOf]
    omega
  obtain ⟨value, carry⟩ := split_of_account (wordOf high.1 low.1).toNat_lt account
  refine ⟨UInt16.toNat_inj.1 (value.trans (UInt16.toNat_add u v).symm), ?_⟩
  rw [Bool.eq_iff_iff, carry]
  exact (decide_eq_true_iff).symm

/-- Sums and differences of numbers of any length are exact modulo the room they have, and the
carry says whether that was enough. Subtracting what was added gives the number back. On words the
chain of bytes and the addition of words agree, and the latter touches no flag but the carry. -/
theorem chain_exact (f : Flags) (xs ys : List UInt8) (lengths : xs.length = ys.length) :
    ((chain adc f xs ys).1 =
        bytesOf xs.length ((bytesValue xs + bytesValue ys + f.carry.toNat) % 256 ^ xs.length) ∧
      ((chain adc f xs ys).2.carry = true ↔
        256 ^ xs.length ≤ bytesValue xs + bytesValue ys + f.carry.toNat)) ∧
    ((chain sbb f xs ys).1 = bytesOf xs.length
        (((bytesValue xs : ℤ) - bytesValue ys - f.carry.toNat) % 256 ^ xs.length).toNat ∧
      ((chain sbb f xs ys).2.carry = true ↔ bytesValue xs < bytesValue ys + f.carry.toNat)) ∧
    (∀ g : Flags, g.carry = f.carry → (chain sbb g (chain adc f xs ys).1 ys).1 = xs) ∧
    ∀ (g : Flags) (u v : UInt16),
      let low := add f (lowByte u) (lowByte v)
      let high := adc low.2 (highByte u) (highByte v)
      wordOf high.1 low.1 = (dad g u v).1 ∧ high.2.carry = (dad g u v).2.carry ∧
        (dad g u v).2 = { g with carry := (dad g u v).2.carry } := by
  refine ⟨chain_adc f xs ys lengths, chain_sbb f xs ys lengths,
    fun g same => chain_sbb_chain_adc f g same xs ys lengths, fun g u v => ?_⟩
  obtain ⟨value, carry⟩ := adc_add_eq_dad f g u v
  exact ⟨value, carry, rfl⟩

/-- A carry runs through a byte of 255 and out of the number, and comes back when the second number
is taken away again. -/
theorem chain_carryThrough :
    let f := { Flags.clear with carry := true }
    let xs : List UInt8 := [0x80, 0xFF, 0xC0]
    let ys : List UInt8 := [0x7F, 0x00, 0x3F]
    (chain adc f xs ys).1 = [0x00, 0x00, 0x00] ∧ (chain adc f xs ys).2.carry = true ∧
      (chain sbb f xs ys).1 = [0x00, 0xFF, 0x81] ∧ (chain sbb f xs ys).2.carry = false ∧
      (chain sbb f [0x00, 0x00, 0x00] ys).1 = xs := by
  intro f xs ys
  obtain ⟨⟨sum, carry⟩, ⟨difference, borrow⟩, back, -⟩ := chain_exact f xs ys rfl
  have zeros : (chain adc f xs ys).1 = [0x00, 0x00, 0x00] := sum.trans (by decide)
  have again := back f rfl
  rw [zeros] at again
  refine ⟨zeros, carry.2 (by decide), difference.trans (by decide), ?_, again⟩
  rw [← Bool.not_eq_true, borrow]
  decide

end Intel8080.Arithmetic
