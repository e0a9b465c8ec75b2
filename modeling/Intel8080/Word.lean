/-!
# Words and their bytes

A word is two bytes. `wordOf` joins them, `highByte` and `lowByte` take them apart, and the lemmas
about them say that nothing is lost either way. In text, bytes are written with two and words with
four uppercase digits.

Embedded here are the splitting and joining of words and the hexadecimal formats that the other
modules share.
-/
namespace Intel8080

/-- The word with the given high and low byte. -/
def wordOf (high low : UInt8) : UInt16 := high.toUInt16 * 256 + low.toUInt16

def highByte (w : UInt16) : UInt8 := (w / 256).toUInt8

def lowByte (w : UInt16) : UInt8 := w.toUInt8

/-- The high byte is worth 256 times what it holds. -/
theorem toNat_wordOf (high low : UInt8) : (wordOf high low).toNat = high.toNat * 256 + low.toNat := by
  have := high.toNat_lt
  have := low.toNat_lt
  simp only [wordOf, UInt16.toNat_add, UInt16.toNat_mul, UInt8.toNat_toUInt16, UInt16.reduceToNat]
  omega

theorem toNat_highByte (w : UInt16) : (highByte w).toNat = w.toNat / 256 := by
  have := w.toNat_lt
  simp only [highByte, UInt16.toNat_toUInt8, UInt16.toNat_div, UInt16.reduceToNat]
  omega

theorem toNat_lowByte (w : UInt16) : (lowByte w).toNat = w.toNat % 256 := by
  simp [lowByte, UInt16.toNat_toUInt8]

@[simp] theorem highByte_wordOf (high low : UInt8) : highByte (wordOf high low) = high := by
  have := low.toNat_lt
  apply UInt8.toNat_inj.1
  rw [toNat_highByte, toNat_wordOf]
  omega

@[simp] theorem lowByte_wordOf (high low : UInt8) : lowByte (wordOf high low) = low := by
  have := low.toNat_lt
  apply UInt8.toNat_inj.1
  rw [toNat_lowByte, toNat_wordOf]
  omega

/-- A word is put together again from its bytes. -/
@[simp] theorem wordOf_bytes (w : UInt16) : wordOf (highByte w) (lowByte w) = w := by
  apply UInt16.toNat_inj.1
  rw [toNat_wordOf, toNat_highByte, toNat_lowByte]
  omega

/-- What holds of 256 numbers holds of every byte. -/
theorem forall_byte {p : UInt8 → Prop} (every : ∀ n < 256, p (UInt8.ofNat n)) (b : UInt8) :
    p b := by
  have this := every b.toNat b.toNat_lt
  rwa [UInt8.ofNat_toNat] at this

/-! ## Hexadecimal text -/

/-- The digit of a value below sixteen. -/
def hexDigit (n : Nat) : Char := if n < 10 then Char.ofNat (48 + n) else Char.ofNat (55 + n)

def byteHex (b : UInt8) : String := String.ofList [hexDigit (b.toNat / 16), hexDigit (b.toNat % 16)]

def wordHex (w : UInt16) : String := byteHex (highByte w) ++ byteHex (lowByte w)

/-- The four digits of a word with lowercase letters. -/
def wordHexLower (w : UInt16) : String := String.ofList ((wordHex w).toList.map Char.toLower)

end Intel8080
