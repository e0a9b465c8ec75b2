import Intel8080.Machine.Basic

/-!
# Operand bytes and the stack

Operand bytes are read at the program counter, which moves past them. The stack grows downward: a
push lowers the stack pointer and stores, a pop reads and raises it. Words are pushed high byte
first, so the stack pointer ends on the low byte.

Embedded here are `fetch_byte`, `fetch_word`, `push_byte`, `pop_byte`, `push_word` and `pop_word`.
-/
namespace Intel8080.Machine

variable {η : Type}

/-- Reads the byte at the program counter and moves past it. -/
def fetchByte (m : Machine η) : UInt8 × Machine η := (m.mem.read m.regs.pc, m.advancePc)

/-- Reads the word at the program counter, low byte first, and moves past it. -/
def fetchWord (m : Machine η) : UInt16 × Machine η :=
  let (low, m) := m.fetchByte
  let (high, m) := m.fetchByte
  (wordOf high low, m)

def pushByte (m : Machine η) (b : UInt8) : Machine η :=
  let sp := m.regs.sp - 1
  (m.setSp sp).writeByte sp b

def popByte (m : Machine η) : UInt8 × Machine η :=
  (m.mem.read m.regs.sp, m.setSp (m.regs.sp + 1))

def pushWord (m : Machine η) (w : UInt16) : Machine η :=
  (m.pushByte (highByte w)).pushByte (lowByte w)

def popWord (m : Machine η) : UInt16 × Machine η :=
  let (low, m) := m.popByte
  let (high, m) := m.popByte
  (wordOf high low, m)

end Intel8080.Machine
