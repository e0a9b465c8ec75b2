import Mathlib.Data.Nat.Digits.Lemmas

/-!
# Numbers in a list of bytes

A list of bytes holds a number, least significant byte first. `bytesValue` reads the number and
`bytesOf` writes as many of its bytes as there is room for, so bytes are known by what they hold
(`eq_bytesOf`). Numbers are written in other digits the same way, and what writing does is stated
for any digits.
-/
namespace Intel8080

section Digits

variable {α : Type} (digit : ℕ → α) (base : ℕ)

/-- The last `n` digits of a number, least significant first. -/
def lastDigits (n v : ℕ) : List α := (List.range n).map fun i => digit (v / base ^ i)

theorem lastDigits_succ (n v : ℕ) :
    lastDigits digit base (n + 1) v = digit v :: lastDigits digit base n (v / base) := by
  simp only [lastDigits, List.range_succ_eq_map, List.map_cons, List.map_map, pow_zero,
    Nat.div_one]
  congr 1
  apply List.map_congr_left
  intro i _
  simp only [Function.comp_apply, pow_succ', Nat.div_div_eq_div_mul]

/-- Writing only looks at the digits it has room for. -/
theorem lastDigits_mod (only : ∀ v, digit (v % base) = digit v) (n v : ℕ) :
    lastDigits digit base n (v % base ^ n) = lastDigits digit base n v := by
  induction n generalizing v with
  | zero => rfl
  | succ n ih =>
    have low : digit (v % base ^ (n + 1)) = digit v := by
      rw [← only (v % base ^ (n + 1)), pow_succ', Nat.mod_mul_right_mod, only]
    have high : v % base ^ (n + 1) / base = v / base % base ^ n := by
      rw [pow_succ', Nat.mod_mul_right_div_self]
    rw [lastDigits_succ, lastDigits_succ, low, high, ih]

end Digits

/-- The number that a list of bytes holds, least significant byte first. -/
def bytesValue (bytes : List UInt8) : ℕ := Nat.ofDigits 256 (bytes.map UInt8.toNat)

/-- The last `n` bytes of a number, least significant first. -/
def bytesOf (n v : ℕ) : List UInt8 := lastDigits UInt8.ofNat 256 n v

@[simp] theorem bytesValue_nil : bytesValue [] = 0 := rfl

@[simp] theorem bytesValue_cons (b : UInt8) (rest : List UInt8) :
    bytesValue (b :: rest) = b.toNat + 256 * bytesValue rest := by
  simp [bytesValue, Nat.ofDigits_cons]

/-- Bytes hold less than their room. -/
theorem bytesValue_lt (bytes : List UInt8) : bytesValue bytes < 256 ^ bytes.length := by
  have bounds : ∀ n ∈ bytes.map UInt8.toNat, n < 256 := by
    simp only [List.mem_map, forall_exists_index, and_imp, forall_apply_eq_imp_iff₂]
    exact fun b _ => b.toNat_lt
  have bound := Nat.ofDigits_lt_base_pow_length (by decide : 1 < 256) bounds
  rwa [List.length_map] at bound

/-- The bytes of a number are read back from its value. -/
theorem bytesOf_bytesValue (bytes : List UInt8) :
    bytesOf bytes.length (bytesValue bytes) = bytes := by
  induction bytes with
  | nil => rfl
  | cons b rest ih =>
    have bound := b.toNat_lt
    have low : UInt8.ofNat (b.toNat + 256 * bytesValue rest) = b := by
      apply UInt8.toNat_inj.1
      rw [UInt8.toNat_ofNat']
      omega
    have high : (b.toNat + 256 * bytesValue rest) / 256 = bytesValue rest := by omega
    rw [bytesOf] at ih ⊢
    rw [List.length_cons, bytesValue_cons, lastDigits_succ, low, high, ih]

/-- Numbers of one length with one value have the same bytes. -/
theorem bytesValue_inj {one other : List UInt8} (length : one.length = other.length)
    (value : bytesValue one = bytesValue other) : one = other := by
  rw [← bytesOf_bytesValue one, length, value, bytesOf_bytesValue]

/-- Bytes that hold a number modulo what they have room for are the last bytes of the number. -/
theorem eq_bytesOf {bytes : List UInt8} {n v : ℕ} (length : bytes.length = n)
    (value : bytesValue bytes = v % 256 ^ n) : bytes = bytesOf n v := by
  have only (v : ℕ) : UInt8.ofNat (v % 256) = UInt8.ofNat v := by
    apply UInt8.toNat_inj.1
    rw [UInt8.toNat_ofNat', UInt8.toNat_ofNat', Nat.mod_mod]
  calc bytes
      = bytesOf bytes.length (bytesValue bytes) := (bytesOf_bytesValue bytes).symm
    _ = bytesOf n (v % 256 ^ n) := by rw [length, value]
    _ = bytesOf n v := lastDigits_mod UInt8.ofNat 256 only n v

end Intel8080
