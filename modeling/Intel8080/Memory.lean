import Intel8080.Word

/-!
# Memory

Sixty-four kibibytes, addressed by words. The number of cells is part of the type, so every address
is valid and no access to a byte can fail; only loading an image and dumping a range have a bound to
check. Word accesses are little-endian and wrap from the top of memory to the bottom.

Embedded here are `read`, `write`, `read_word`, `write_word`, `clear`, `load` and `dump`, and the
conversion of bytes into memory. The sum in `load` is taken without a bound, as no list of bytes that
a host holds is long enough to overflow it; the one in `dump` has to fit 64 bits, or there is no
answer.
-/
namespace Intel8080

def memorySize : Nat := 65536

structure Memory where
  cells : Vector UInt8 65536
  deriving DecidableEq

inductive MemoryError where
  | imageTooLarge (base : UInt16) (size available : Nat)
  | wrongSize (size : Nat)
  deriving DecidableEq, Repr

def MemoryError.message : MemoryError → String
  | .imageTooLarge base size available =>
    "image of " ++ toString size ++ " bytes at 0x" ++ wordHexLower base ++
      " exceeds available space " ++ toString available
  | .wrongSize size => "memory snapshot has " ++ toString size ++ " bytes, expected 65536"

namespace Memory

def zero : Memory := ⟨Vector.replicate 65536 0⟩

instance : Inhabited Memory := ⟨zero⟩

def read (m : Memory) (address : UInt16) : UInt8 :=
  getElem m.cells address.toNat address.toNat_lt

def write (m : Memory) (address : UInt16) (value : UInt8) : Memory :=
  ⟨m.cells.set address.toNat value address.toNat_lt⟩

/-- The word at an address: low byte first, the high byte from the next address. -/
def readWord (m : Memory) (address : UInt16) : UInt16 :=
  wordOf (m.read (address + 1)) (m.read address)

/-- Stores a word: low byte first, the high byte at the next address. -/
def writeWord (m : Memory) (address : UInt16) (value : UInt16) : Memory :=
  (m.write address (lowByte value)).write (address + 1) (highByte value)

/-- Stores bytes at increasing addresses from `address` on. -/
def writeBytes (m : Memory) (address : UInt16) : List UInt8 → Memory
  | [] => m
  | b :: rest => (m.write address b).writeBytes (address + 1) rest

/-- Copies an image to `base`. An image that would run past the top of memory is refused, and the
memory comes back with the refusal. -/
def load (m : Memory) (base : UInt16) (image : List UInt8) : Except MemoryError Unit × Memory :=
  if memorySize < base.toNat + image.length then
    (.error (.imageTooLarge base image.length (memorySize - base.toNat)), m)
  else (.ok (), m.writeBytes base image)

/-- The bytes from `start` on, at most `count` of them and none past the top of memory. -/
def bytesFrom (m : Memory) (start : UInt16) (count : Nat) : List UInt8 :=
  (List.range (min count (memorySize - start.toNat))).map fun i => m.read (start + UInt16.ofNat i)

/-- The bytes from `start` on, as many as are asked for and there are. The position behind the last
one asked for has to fit 64 bits, or there is no answer. -/
def dump? (m : Memory) (start : UInt16) (count : UInt64) : Option (List UInt8) :=
  if start.toNat + count.toNat < UInt64.size then some (m.bytesFrom start count.toNat) else none

def toList (m : Memory) : List UInt8 := m.cells.toList

/-- Memory that holds exactly the given bytes, which must fill it. -/
def ofList (bytes : List UInt8) : Except MemoryError Memory :=
  if h : bytes.toArray.size = 65536 then .ok ⟨⟨bytes.toArray, h⟩⟩
  else .error (.wrongSize bytes.toArray.size)

def nonZeroCount (m : Memory) : Nat := m.cells.toList.countP (· != 0)

def describe (m : Memory) : String :=
  "Memory \x7b non_zero_bytes: " ++ toString m.nonZeroCount ++ ", total_bytes: 65536 \x7d"

/-- A dump is answered if its end fits 64 bits, even where that is far above the top of memory. -/
theorem dump?_of_fits (m : Memory) {start : UInt16} {count : UInt64}
    (fits : start.toNat + count.toNat < UInt64.size) :
    m.dump? start count = some (m.bytesFrom start count.toNat) := if_pos fits

/-- A store is read back at its address and nowhere else. -/
theorem read_write (m : Memory) (a b : UInt16) (v : UInt8) :
    (m.write a v).read b = if a = b then v else m.read b := by
  simp only [read, write, Vector.getElem_set, UInt16.toNat_inj]

@[simp] theorem read_write_self (m : Memory) (a : UInt16) (v : UInt8) :
    (m.write a v).read a = v := by
  simp [read_write]

theorem read_write_of_ne (m : Memory) {a b : UInt16} (h : a ≠ b) (v : UInt8) :
    (m.write a v).read b = m.read b := by
  simp [read_write, h]

@[simp] theorem read_zero (a : UInt16) : zero.read a = 0 := by
  simp [read, zero]

/-- Memories that read alike at every address are equal. -/
theorem ext_read {m n : Memory} (h : ∀ a, m.read a = n.read a) : m = n := by
  obtain ⟨c⟩ := m
  obtain ⟨d⟩ := n
  congr 1
  apply Vector.ext
  intro i hi
  have := h (UInt16.ofFin ⟨i, hi⟩)
  simpa [read] using this

end Memory

end Intel8080
