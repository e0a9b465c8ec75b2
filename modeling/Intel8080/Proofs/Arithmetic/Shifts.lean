import Intel8080.Proofs.Arithmetic.BinaryAddition

/-!
# Shifts of numbers of any length

A rotation through the carry takes one bit into a byte and lets another one out. Passed over the
bytes of a number from the least significant one up, `ral` doubles the number; passed from the most
significant one down, `rar` halves it (`shift_exact`). On either way the bit that leaves a byte is
the one that enters the next, so the carry goes in at one end of the number and comes out at the
other. Nothing is lost, and each way undoes the other.
-/
namespace Intel8080.Arithmetic

/-- Flags of which the second may differ from the first in the carry and nowhere else. -/
def SameButCarry (f g : Flags) : Prop := g = { f with carry := g.carry }

namespace SameButCarry

variable {f g h : Flags}

theorem trans (first : SameButCarry f g) (second : SameButCarry g h) : SameButCarry f h := by
  unfold SameButCarry at *
  rw [second, first]

/-- Flags that agree in the carry as well are the same. -/
theorem eq_of_carry (same : SameButCarry f g) (carry : g.carry = f.carry) : g = f := by
  unfold SameButCarry at same
  rw [same, carry]

end SameButCarry

section Pass

variable (op : Flags → UInt8 → UInt8 × Flags)

/-- Replaces the bytes of a number from the least significant one up, passing the flags on. -/
def passUp (f : Flags) : List UInt8 → List UInt8 × Flags
  | [] => ([], f)
  | x :: xs =>
    let (r, f) := op f x
    let (rs, f) := passUp f xs
    (r :: rs, f)

/-- Replaces the bytes of a number from the most significant one down, passing the flags on. -/
def passDown (f : Flags) : List UInt8 → List UInt8 × Flags
  | [] => ([], f)
  | x :: xs =>
    let (rs, f) := passDown f xs
    let (r, f) := op f x
    (r :: rs, f)

variable (f : Flags) (xs : List UInt8)

theorem length_passUp : (passUp op f xs).1.length = xs.length := by
  induction xs generalizing f with
  | nil => rfl
  | cons x xs ih => simp only [passUp, List.length_cons, ih]

theorem length_passDown : (passDown op f xs).1.length = xs.length := by
  induction xs with
  | nil => rfl
  | cons x xs ih => simp only [passDown, List.length_cons, ih]

variable {op} (only : ∀ f x, SameButCarry f (op f x).2)

include only

/-- Each rotation changes the carry at most, so a program of them does too. -/
theorem sameButCarry_passUp : SameButCarry f (passUp op f xs).2 := by
  induction xs generalizing f with
  | nil => rfl
  | cons x xs ih => exact (only f x).trans (ih (op f x).2)

theorem sameButCarry_passDown : SameButCarry f (passDown op f xs).2 := by
  induction xs with
  | nil => rfl
  | cons x xs ih => exact ih.trans (only (passDown op f xs).2 x)

end Pass

section Rotation

variable (f : Flags) (x : UInt8)

theorem sameButCarry_ral : SameButCarry f (ral f x).2 := rfl

theorem sameButCarry_rar : SameButCarry f (rar f x).2 := rfl

/-- The bit that leaves at the top is worth 256. -/
theorem ral_value :
    (ral f x).1.toNat + 256 * (ral f x).2.carry.toNat = 2 * x.toNat + f.carry.toNat := by
  simp only [ral]
  revert x
  cases f.carry <;> exact forall_byte (by decide +kernel)

/-- The bit that enters at the top is worth 256 before it is moved down. -/
theorem rar_value :
    2 * (rar f x).1.toNat + (rar f x).2.carry.toNat = x.toNat + 256 * f.carry.toNat := by
  simp only [rar]
  revert x
  cases f.carry <;> exact forall_byte (by decide +kernel)

end Rotation

section Number

variable (f : Flags) (xs : List UInt8)

/-- Rotating a number left from its least significant byte doubles it; the bit that leaves it is in
the carry, and the carry before comes in at the other end. -/
theorem passUp_ral_value :
    bytesValue (passUp ral f xs).1 + 256 ^ xs.length * (passUp ral f xs).2.carry.toNat =
      2 * bytesValue xs + f.carry.toNat := by
  induction xs generalizing f with
  | nil => simp [passUp]
  | cons x xs ih =>
    have first := ral_value f x
    have rest := ih (ral f x).2
    simp only [passUp, bytesValue_cons, List.length_cons, pow_succ_mul]
    omega

/-- Rotating a number right from its most significant byte halves it, with the same account of the
carries. -/
theorem passDown_rar_value :
    2 * bytesValue (passDown rar f xs).1 + (passDown rar f xs).2.carry.toNat =
      bytesValue xs + 256 ^ xs.length * f.carry.toNat := by
  induction xs with
  | nil => simp [passDown]
  | cons x xs ih =>
    have last := rar_value (passDown rar f xs).2 x
    simp only [passDown, bytesValue_cons, List.length_cons, pow_succ_mul]
    omega

/-- Halving what was doubled gives the number and the flags back. -/
theorem passDown_passUp : passDown rar (passUp ral f xs).2 (passUp ral f xs).1 = (xs, f) := by
  have doubled := passUp_ral_value f xs
  have halved := passDown_rar_value (passUp ral f xs).2 (passUp ral f xs).1
  have length := length_passDown rar (passUp ral f xs).2 (passUp ral f xs).1
  have flags := (sameButCarry_passUp f xs sameButCarry_ral).trans
    (sameButCarry_passDown (passUp ral f xs).2 (passUp ral f xs).1 sameButCarry_rar)
  rw [length_passUp] at halved length
  generalize passDown rar (passUp ral f xs).2 (passUp ral f xs).1 = back at *
  -- Twice the number and a bit is the same before and after, so both are.
  have before := Bool.toNat_le f.carry
  have after := Bool.toNat_le back.2.carry
  have value : bytesValue back.1 = bytesValue xs := by omega
  have carry : back.2.carry = f.carry := by
    rw [Bool.eq_iff_iff, ← Bool.toNat_eq_one, ← Bool.toNat_eq_one]
    omega
  exact Prod.ext (bytesValue_inj length value) (flags.eq_of_carry carry)

/-- Doubling what was halved gives the number and the flags back. -/
theorem passUp_passDown : passUp ral (passDown rar f xs).2 (passDown rar f xs).1 = (xs, f) := by
  have halved := passDown_rar_value f xs
  have doubled := passUp_ral_value (passDown rar f xs).2 (passDown rar f xs).1
  have length := length_passUp ral (passDown rar f xs).2 (passDown rar f xs).1
  have flags := (sameButCarry_passDown f xs sameButCarry_rar).trans
    (sameButCarry_passUp (passDown rar f xs).2 (passDown rar f xs).1 sameButCarry_ral)
  rw [length_passDown] at doubled length
  generalize passUp ral (passDown rar f xs).2 (passDown rar f xs).1 = back at *
  have before := bytesValue_lt xs
  have after := bytesValue_lt back.1
  rw [length] at after
  obtain ⟨value, set⟩ := split_of_account after (doubled.trans halved)
  obtain ⟨valueBefore, setBefore⟩ := split_of_account before rfl
  have carry : back.2.carry = f.carry := Bool.eq_iff_iff.2 (set.trans setBefore.symm)
  exact Prod.ext (bytesValue_inj length (value.trans valueBefore.symm)) (flags.eq_of_carry carry)

end Number

/-- The room that a number of some bytes has is twice what its top bit is worth. -/
theorem room_eq_two_mul {n : ℕ} (positive : 0 < n) : 256 ^ n = 2 * 2 ^ (8 * n - 1) := by
  have bits : 8 * n = 8 * n - 1 + 1 := by omega
  calc 256 ^ n
      = 2 ^ (8 * n) := by rw [pow_mul]; rfl
    _ = 2 * 2 ^ (8 * n - 1) := by rw [bits, pow_succ']; rfl

/-- The top bit of a number is the one that leaves when the number is doubled. -/
theorem testBit_top_iff {n x : ℕ} (positive : 0 < n) (below : x < 256 ^ n) (entering : Bool) :
    x.testBit (8 * n - 1) = true ↔ 256 ^ n ≤ 2 * x + entering.toNat := by
  have bit := Bool.toNat_le entering
  rw [room_eq_two_mul positive] at below ⊢
  constructor
  · intro set
    have least := Nat.ge_two_pow_of_testBit set
    omega
  · intro exceeds
    apply Nat.testBit_of_two_pow_le_and_two_pow_add_one_gt
    · omega
    · rwa [pow_succ']

/-- A rotation left through the carry, passed up over the bytes of a number, doubles the number and
takes the carry in at the bottom; the top bit comes out. A rotation right, passed down, halves the
number and takes the carry in at the top; the low bit comes out. No other flag changes, and each of
the two gives back what the other was given. -/
theorem shift_exact (f : Flags) {xs : List UInt8} (given : xs ≠ []) :
    let n := xs.length
    let x := bytesValue xs
    let left := passUp ral f xs
    let right := passDown rar f xs
    (left.1 = bytesOf n ((2 * x + f.carry.toNat) % 256 ^ n) ∧
      left.2 = { f with carry := x.testBit (8 * n - 1) }) ∧
    (right.1 = bytesOf n (x / 2 + f.carry.toNat * 2 ^ (8 * n - 1)) ∧
      x / 2 + f.carry.toNat * 2 ^ (8 * n - 1) < 256 ^ n ∧
      right.2 = { f with carry := x.testBit 0 }) ∧
    passDown rar left.2 left.1 = (xs, f) ∧ passUp ral right.2 right.1 = (xs, f) := by
  intro n x left right
  have positive : 0 < n := List.length_pos_of_ne_nil given
  have below : x < 256 ^ n := bytesValue_lt xs
  refine ⟨?_, ?_, passDown_passUp f xs, passUp_passDown f xs⟩
  · have length : left.1.length = n := length_passUp ral f xs
    have room := bytesValue_lt left.1
    rw [length] at room
    obtain ⟨value, set⟩ := split_of_account room (passUp_ral_value f xs)
    have carry : left.2.carry = x.testBit (8 * n - 1) :=
      Bool.eq_iff_iff.2 (set.trans (testBit_top_iff positive below f.carry).symm)
    refine ⟨eq_bytesOf length (by rw [Nat.mod_mod, value]), ?_⟩
    rw [← carry]
    exact sameButCarry_passUp f xs sameButCarry_ral
  · have length : right.1.length = n := length_passDown rar f xs
    have room := bytesValue_lt right.1
    rw [length] at room
    have halved : 2 * bytesValue right.1 + right.2.carry.toNat = x + 256 ^ n * f.carry.toNat :=
      passDown_rar_value f xs
    rw [room_eq_two_mul positive, Nat.mul_assoc, Nat.mul_comm (2 ^ _)] at halved
    have bit := Bool.toNat_le right.2.carry
    have value : bytesValue right.1 = x / 2 + f.carry.toNat * 2 ^ (8 * n - 1) := by omega
    have carry : right.2.carry = x.testBit 0 := by
      rw [Nat.testBit_zero, Bool.eq_iff_iff, ← Bool.toNat_eq_one, decide_eq_true_iff]
      omega
    rw [← value, ← carry]
    exact ⟨eq_bytesOf length (Nat.mod_eq_of_lt room).symm, room,
      sameButCarry_passDown f xs sameButCarry_rar⟩

/-- Doubling 80FF01 lets its top bit out and halving it the low bit. The other flags stay set. -/
theorem shift_outOfBothEnds :
    let f : Flags := ⟨true, true, true, true, false⟩
    let g : Flags := ⟨true, true, true, true, true⟩
    let xs : List UInt8 := [0x01, 0xFF, 0x80]
    xs ≠ [] ∧ passUp ral f xs = ([0x02, 0xFE, 0x01], g) ∧
      passDown rar f xs = ([0x80, 0x7F, 0x40], g) ∧
      passDown rar g [0x02, 0xFE, 0x01] = (xs, f) ∧ passUp ral g [0x80, 0x7F, 0x40] = (xs, f) := by
  intro f g xs
  have given : xs ≠ [] := by simp [xs]
  obtain ⟨⟨doubled, top⟩, ⟨halved, -, low⟩, down, up⟩ := shift_exact f given
  have left : passUp ral f xs = ([0x02, 0xFE, 0x01], g) :=
    Prod.ext (doubled.trans (by decide)) (top.trans (by decide))
  have right : passDown rar f xs = ([0x80, 0x7F, 0x40], g) :=
    Prod.ext (halved.trans (by decide)) (low.trans (by decide))
  rw [left] at down
  rw [right] at up
  exact ⟨given, left, right, down, up⟩

end Intel8080.Arithmetic
