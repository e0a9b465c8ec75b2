import Intel8080.Machine.Transfer

/-!
# Execution

A step decodes the instruction at the program counter, moves past the opcode and carries the
operation out; the operation fetches its own operand bytes. A step is refused only if the machine
is not running.

Embedded here are `step` and the handlers of the opcodes. The step counter wraps at 64 bits.
-/
namespace Intel8080.Machine

variable {η : Type}

def accumulate (m : Machine η) (op : AccumulatorOp) (operand : UInt8) : Machine η :=
  let (a, f) := op.apply m.regs.flags m.regs.a operand
  { m with regs := { m.regs with a := a, flags := f } }

/-- Replaces the accumulator and flags by a function of both. -/
def adjust (m : Machine η) (f : Flags → UInt8 → UInt8 × Flags) : Machine η :=
  let (a, flags) := f m.regs.flags m.regs.a
  { m with regs := { m.regs with a := a, flags := flags } }

/-- Replaces a byte operand and the flags by a function of both. -/
def adjustReg (m : Machine η) (r : Reg) (f : Flags → UInt8 → UInt8 × Flags) : Machine η :=
  let (value, flags) := f m.regs.flags (m.reg r)
  (m.setFlags flags).setReg r value

/-- Replaces a pair by a function of it. -/
def adjustPair (m : Machine η) (p : Pair) (f : UInt16 → UInt16) : Machine η :=
  { m with regs := m.regs.setPair p (f (m.regs.pair p)) }

def addPair (m : Machine η) (p : Pair) : Machine η :=
  let (hl, flags) := Arithmetic.dad m.regs.flags m.regs.hl (m.regs.pair p)
  { m with regs := { m.regs with flags := flags }.setHl hl }

/-- Moves past the operand of a port operation and reports it by the address of its opcode. -/
def skipPort (m : Machine η) (opcode : UInt8) : Machine η :=
  m.advancePc.report (m.regs.pc - 1) opcode

/-- Exchanges `HL` with the word on the stack. -/
def exchangeTop (m : Machine η) : Machine η :=
  let top := m.mem.readWord m.regs.sp
  let m := m.writeWord m.regs.sp m.regs.hl
  { m with regs := m.regs.setHl top }

/-- Whether a transfer on a condition is taken; one without a condition always is. -/
def taken (m : Machine η) : Option Condition → Bool
  | none => true
  | some c => c.holds m.regs.flags

/-- Carries out an operation whose opcode the program counter is just past. -/
def execute [TrapHandler η] (m : Machine η) : Operation → Machine η
  | .nop => m
  | .hlt => m.halt
  | .ei => { m with interruptsEnabled := true }
  | .di => { m with interruptsEnabled := false }
  | .mov target source => m.setReg target (m.reg source)
  | .mvi target =>
    let (value, m) := m.fetchByte
    m.setReg target value
  | .lxi pair =>
    let (value, m) := m.fetchWord
    { m with regs := m.regs.setPair pair value }
  | .stax pointer => m.writeByte (m.regs.pointer pointer) m.regs.a
  | .ldax pointer => m.setReg .a (m.mem.read (m.regs.pointer pointer))
  | .sta =>
    let (address, m) := m.fetchWord
    m.writeByte address m.regs.a
  | .lda =>
    let (address, m) := m.fetchWord
    m.setReg .a (m.mem.read address)
  | .shld =>
    let (address, m) := m.fetchWord
    m.writeWord address m.regs.hl
  | .lhld =>
    let (address, m) := m.fetchWord
    { m with regs := m.regs.setHl (m.mem.readWord address) }
  | .xchg => { m with regs := (m.regs.setDe m.regs.hl).setHl m.regs.de }
  | .accumulate op source => m.accumulate op (m.reg source)
  | .accumulateImmediate op =>
    let (operand, m) := m.fetchByte
    m.accumulate op operand
  | .inr target => m.adjustReg target Arithmetic.inr
  | .dcr target => m.adjustReg target Arithmetic.dcr
  | .inx pair => m.adjustPair pair (· + 1)
  | .dcx pair => m.adjustPair pair (· - 1)
  | .dad pair => m.addPair pair
  | .rlc => m.adjust Arithmetic.rlc
  | .rrc => m.adjust Arithmetic.rrc
  | .ral => m.adjust Arithmetic.ral
  | .rar => m.adjust Arithmetic.rar
  | .daa => m.adjust Arithmetic.daa
  | .cma => m.setReg .a (~~~m.regs.a)
  | .stc => m.setFlags { m.regs.flags with carry := true }
  | .cmc => m.setFlags { m.regs.flags with carry := !m.regs.flags.carry }
  | .push pair => m.pushWord (m.regs.stackPair pair)
  | .pop pair =>
    let (value, m) := m.popWord
    { m with regs := m.regs.setStackPair pair value }
  | .xthl => m.exchangeTop
  | .sphl => m.setSp m.regs.hl
  | .jump condition => m.jump (m.taken condition)
  | .call condition => m.call (m.taken condition)
  | .ret condition => m.ret (m.taken condition)
  | .rst vector => m.restart vector
  | .pchl => m.setPc m.regs.hl
  | .input => m.skipPort 0xDB
  | .output => m.skipPort 0xD3

def nextInstruction (m : Machine η) : Instruction := .decode m.mem m.regs.pc

def step [TrapHandler η] (m : Machine η) : Except MachineError (Instruction × Machine η) :=
  if m.isRunning then
    let i := m.nextInstruction
    let m := m.advancePc.execute (Opcode.operation i.opcode)
    .ok (i, { m with steps := m.steps + 1, lastInstruction := some i })
  else .error (.notRunning m.state)

end Intel8080.Machine
