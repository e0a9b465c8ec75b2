/-!
# Condition flags

Five flags, and the byte that packs them for the stack: sign, zero, auxiliary carry, parity and
carry in bits 7, 6, 4, 2 and 0. Bit 1 always reads as one; bits 5 and 3 read as zero.

Embedded here are `parity`, `to_byte`, `from_byte` and `set_szp`.
-/
namespace Intel8080

structure Flags where
  /-- Bit 7 of the last result. -/
  sign : Bool
  /-- The last result was zero. -/
  zero : Bool
  /-- Carry out of bit 3, read by the decimal adjustment. -/
  auxCarry : Bool
  /-- The last result had an even number of set bits. -/
  parity : Bool
  /-- Carry out of bit 7, or the borrow of a subtraction. -/
  carry : Bool
  deriving DecidableEq, Repr

def onesCount (b : UInt8) : Nat := (List.range 8).countP fun i => b.toNat.testBit i

/-- Whether an even number of bits is set. -/
def evenParity (b : UInt8) : Bool := onesCount b % 2 == 0

namespace Flags

def clear : Flags := ⟨false, false, false, false, false⟩

instance : Inhabited Flags := ⟨clear⟩

def toByte (f : Flags) : UInt8 :=
  2 ||| (if f.sign then 0x80 else 0) ||| (if f.zero then 0x40 else 0) |||
    (if f.auxCarry then 0x10 else 0) ||| (if f.parity then 0x04 else 0) |||
    (if f.carry then 0x01 else 0)

/-- Unpacks a byte; bits 5, 3 and 1 are ignored. -/
def ofByte (b : UInt8) : Flags where
  sign := b &&& 0x80 != 0
  zero := b &&& 0x40 != 0
  auxCarry := b &&& 0x10 != 0
  parity := b &&& 0x04 != 0
  carry := b &&& 0x01 != 0

/-- Sets sign, zero and parity from a result and keeps both carries. -/
def withResult (f : Flags) (result : UInt8) : Flags :=
  { f with
    sign := result &&& 0x80 != 0
    zero := result == 0
    parity := evenParity result }

end Flags

end Intel8080
