import Intel8080.Debugger.Basic

/-!
# The memory view

Rows of sixteen bytes from the first row shown to the last that fits, none past the top of memory.
Each byte has a role: the one at the program counter, the one at the stack pointer, or any other,
zero or not.

Embedded here is `draw_memory`.
-/
namespace Intel8080

/-- What a byte is to the machine. The program counter comes before the stack pointer. -/
inductive Debugger.ByteRole where
  | next | stackTop | plain | zero
  deriving DecidableEq, Repr

/-- A row of memory: the address of its first byte, and its bytes with their roles. -/
structure Debugger.MemoryRow where
  address : Nat
  bytes : List (UInt8 × Debugger.ByteRole)
  deriving DecidableEq, Repr

namespace Debugger

def byteRole (d : Debugger) (address : Nat) (value : UInt8) : ByteRole :=
  if address == d.machine.regs.pc.toNat then .next
  else if address == d.machine.regs.sp.toNat then .stackTop
  else if value != 0 then .plain
  else .zero

/-- A row of memory by its number. Its sixteen bytes are fewer than a dump could refuse. -/
def memoryRowAt (d : Debugger) (row : Nat) : MemoryRow :=
  let base := row * rowSize
  let bytes := d.machine.mem.bytesFrom (UInt16.ofNat base) rowSize
  ⟨base, bytes.mapIdx fun i value => (value, d.byteRole (base + i) value)⟩

def memoryView (d : Debugger) (lines : Nat) : List MemoryRow :=
  let last := min (d.memoryRow + lines) rowCount
  (List.range' d.memoryRow (last - d.memoryRow)).map d.memoryRowAt

end Debugger

end Intel8080
