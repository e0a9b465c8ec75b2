import Intel8080.Machine.Run
import Intel8080.Proofs.Fault.Checked
import Intel8080.RunConfig
import Intel8080.Snapshot

/-!
# The bare machine

A machine whose memory is an array of any size and whose accesses, table lookups, sums and
counters are all checked. It follows the machine operation by operation, so a fault says where the
machine would leave an array or a sum its bits. Nothing here says that there is none.
-/
namespace Intel8080

structure BareMachine where
  regs : Registers
  cells : Cells
  state : RunState
  interruptsEnabled : Bool
  steps : UInt64
  loadedEnd : Option UInt32
  traps : TrapTable Service
  console : Array UInt8
  reports : Array Report
  reportCount : UInt64
  lastInstruction : Option Instruction

namespace BareMachine

open Checked

/-! ## Registers, memory and operand bytes -/

section Access

variable (b : BareMachine)

def setRegs (regs : Registers) : BareMachine := { b with regs := regs }

def setPc (pc : UInt16) : BareMachine := b.setRegs { b.regs with pc := pc }

def setSp (sp : UInt16) : BareMachine := b.setRegs { b.regs with sp := sp }

def write (address : UInt16) (value : UInt8) : Checked BareMachine := do
  return { b with cells := ← b.cells.write address value }

def writeWord (address value : UInt16) : Checked BareMachine := do
  return { b with cells := ← b.cells.writeWord address value }

def reg : Reg → Checked UInt8
  | .b => return b.regs.b
  | .c => return b.regs.c
  | .d => return b.regs.d
  | .e => return b.regs.e
  | .h => return b.regs.h
  | .l => return b.regs.l
  | .m => b.cells.read b.regs.hl
  | .a => return b.regs.a

def setReg (r : Reg) (value : UInt8) : Checked BareMachine :=
  match r with
  | .b => return b.setRegs { b.regs with b := value }
  | .c => return b.setRegs { b.regs with c := value }
  | .d => return b.setRegs { b.regs with d := value }
  | .e => return b.setRegs { b.regs with e := value }
  | .h => return b.setRegs { b.regs with h := value }
  | .l => return b.setRegs { b.regs with l := value }
  | .m => b.write b.regs.hl value
  | .a => return b.setRegs { b.regs with a := value }

def fetchByte : Checked (UInt8 × BareMachine) := do
  let value ← b.cells.read b.regs.pc
  return (value, b.setRegs b.regs.advancePc)

def fetchWord : Checked (UInt16 × BareMachine) := do
  let (low, b) ← b.fetchByte
  let (high, b) ← b.fetchByte
  return (wordOf high low, b)

def pushByte (value : UInt8) : Checked BareMachine :=
  let sp := b.regs.sp - 1
  (b.setSp sp).write sp value

def popByte : Checked (UInt8 × BareMachine) := do
  let value ← b.cells.read b.regs.sp
  return (value, b.setSp (b.regs.sp + 1))

def pushWord (w : UInt16) : Checked BareMachine := do
  let b ← b.pushByte (highByte w)
  b.pushByte (lowByte w)

def popWord : Checked (UInt16 × BareMachine) := do
  let (low, b) ← b.popByte
  let (high, b) ← b.popByte
  return (wordOf high low, b)

end Access

/-- Moves past bytes that are read and dropped. -/
def skipBytes (b : BareMachine) : Nat → Checked BareMachine
  | 0 => return b
  | count + 1 => do
    let (_, b) ← b.fetchByte
    b.skipBytes count

/-! ## Services and transfers -/

/-- Prints from an address on, up to a terminator and at most `count` bytes. -/
def printFrom (b : BareMachine) (address : UInt16) : Nat → Checked BareMachine
  | 0 => return b
  | count + 1 => do
    let value ← b.cells.read address
    if value == Service.terminator then return b
    else printFrom { b with console := b.console.push value } (address + 1) count

section Transfer

variable (b : BareMachine)

def serve : Service → Checked (BareMachine × TrapAction)
  | .warmBoot => return (b, .stop)
  | .bdos =>
    if b.regs.c == Service.consoleOutput then
      return ({ b with console := b.console.push b.regs.e }, .resume)
    else if b.regs.c == Service.printString then do
      let b ← b.printFrom b.regs.de memorySize
      return (b, .resume)
    else return (b, .resume)

/-- The machine after the service of a trapped address. -/
def trap? (target : UInt16) : Checked (Option BareMachine) :=
  match b.traps.get? target with
  | none => return none
  | some service => do
    match ← b.serve service with
    | (b, .resume) => return some b
    | (b, .stop) => return some { b with state := .stopped }

def jump (taken : Bool) : Checked BareMachine := do
  let (target, b) ← b.fetchWord
  if taken then
    match ← b.trap? target with
    | some b => return b
    | none => return b.setPc target
  else return b

def call (taken : Bool) : Checked BareMachine := do
  let (target, b) ← b.fetchWord
  if taken then
    match ← b.trap? target with
    | some b => return b
    | none =>
      let b ← b.pushWord b.regs.pc
      return b.setPc target
  else return b

def ret (taken : Bool) : Checked BareMachine :=
  if taken then do
    let (target, b) ← b.popWord
    return b.setPc target
  else return b

def restart (vector : UInt8) : Checked BareMachine := do
  let b ← b.pushWord b.regs.pc
  return b.setPc ((vector &&& 7).toUInt16 * 8)

end Transfer

/-! ## Execution -/

section Execute

variable (b : BareMachine)

def accumulate (op : AccumulatorOp) (operand : UInt8) : Checked BareMachine := do
  let (a, f) ← applyOp op b.regs.flags b.regs.a operand
  return b.setRegs { b.regs with a := a, flags := f }

def adjust (f : Flags → UInt8 → UInt8 × Flags) : BareMachine :=
  let (a, flags) := f b.regs.flags b.regs.a
  b.setRegs { b.regs with a := a, flags := flags }

def adjustReg (r : Reg) (f : Flags → UInt8 → UInt8 × Flags) : Checked BareMachine := do
  let (value, flags) := f b.regs.flags (← b.reg r)
  (b.setRegs { b.regs with flags := flags }).setReg r value

def addPair (p : Pair) : BareMachine :=
  let (hl, flags) := Arithmetic.dad b.regs.flags b.regs.hl (b.regs.pair p)
  b.setRegs ({ b.regs with flags := flags }.setHl hl)

def report (address : UInt16) (opcode : UInt8) : Checked BareMachine := do
  let count ← countUp b.reportCount 1
  return { b with
    reportCount := count
    reports := if b.reports.size < maxReports then b.reports.push ⟨address, opcode⟩
      else b.reports }

/-- Moves past as many bytes as the table says and reports the address of the opcode. -/
def skipPort (opcode : UInt8) : Checked BareMachine := do
  let entry ← lookup opcode
  let next ← b.skipBytes (entry.size - 1)
  next.report (b.regs.pc - 1) opcode

def exchangeTop : Checked BareMachine := do
  let top ← b.cells.readWord b.regs.sp
  let b ← b.writeWord b.regs.sp b.regs.hl
  return b.setRegs (b.regs.setHl top)

def taken : Option Condition → Bool
  | none => true
  | some c => c.holds b.regs.flags

/-- Carries out an operation whose opcode the program counter is just past. -/
def execute : Operation → Checked BareMachine
  | .nop => return b
  | .hlt => return { b with state := .halted }
  | .ei => return { b with interruptsEnabled := true }
  | .di => return { b with interruptsEnabled := false }
  | .mov target source => do b.setReg target (← b.reg source)
  | .mvi target => do
    let (value, b) ← b.fetchByte
    b.setReg target value
  | .lxi pair => do
    let (value, b) ← b.fetchWord
    return b.setRegs (b.regs.setPair pair value)
  | .stax pointer => b.write (b.regs.pointer pointer) b.regs.a
  | .ldax pointer => do b.setReg .a (← b.cells.read (b.regs.pointer pointer))
  | .sta => do
    let (address, b) ← b.fetchWord
    b.write address b.regs.a
  | .lda => do
    let (address, b) ← b.fetchWord
    b.setReg .a (← b.cells.read address)
  | .shld => do
    let (address, b) ← b.fetchWord
    b.writeWord address b.regs.hl
  | .lhld => do
    let (address, b) ← b.fetchWord
    return b.setRegs (b.regs.setHl (← b.cells.readWord address))
  | .xchg => return b.setRegs ((b.regs.setDe b.regs.hl).setHl b.regs.de)
  | .accumulate op source => do b.accumulate op (← b.reg source)
  | .accumulateImmediate op => do
    let (operand, b) ← b.fetchByte
    b.accumulate op operand
  | .inr target => b.adjustReg target Arithmetic.inr
  | .dcr target => b.adjustReg target Arithmetic.dcr
  | .inx pair => return b.setRegs (b.regs.setPair pair (b.regs.pair pair + 1))
  | .dcx pair => return b.setRegs (b.regs.setPair pair (b.regs.pair pair - 1))
  | .dad pair => return b.addPair pair
  | .rlc => return b.adjust Arithmetic.rlc
  | .rrc => return b.adjust Arithmetic.rrc
  | .ral => return b.adjust Arithmetic.ral
  | .rar => return b.adjust Arithmetic.rar
  | .daa => return b.adjust Arithmetic.daa
  | .cma => b.setReg .a (~~~b.regs.a)
  | .stc => return b.setRegs { b.regs with flags := { b.regs.flags with carry := true } }
  | .cmc =>
    return b.setRegs { b.regs with flags := { b.regs.flags with carry := !b.regs.flags.carry } }
  | .push pair => b.pushWord (b.regs.stackPair pair)
  | .pop pair => do
    let (value, b) ← b.popWord
    return b.setRegs (b.regs.setStackPair pair value)
  | .xthl => b.exchangeTop
  | .sphl => return b.setSp b.regs.hl
  | .jump condition => b.jump (b.taken condition)
  | .call condition => b.call (b.taken condition)
  | .ret condition => b.ret (b.taken condition)
  | .rst vector => b.restart vector
  | .pchl => return b.setPc b.regs.hl
  | .input => b.skipPort 0xDB
  | .output => b.skipPort 0xD3

/-- The instruction at the program counter, with the operand that the table asks for. -/
def nextInstruction : Checked Instruction := do
  let opcode ← b.cells.read b.regs.pc
  let entry ← lookup opcode
  match entry.size with
  | 2 => return ⟨b.regs.pc, opcode, .byte (← b.cells.read (b.regs.pc + 1))⟩
  | 3 => return ⟨b.regs.pc, opcode, .word (← b.cells.readWord (b.regs.pc + 1))⟩
  | _ => return ⟨b.regs.pc, opcode, .none⟩

def step : Checked (Except MachineError (Instruction × BareMachine)) :=
  if b.state == .running then do
    let i ← b.nextInstruction
    let next ← (b.setRegs b.regs.advancePc).execute (← operation i.opcode)
    let steps ← countUp next.steps 1
    return .ok (i, { next with steps := steps, lastInstruction := some i })
  else return .error (.notRunning b.state)

/-- Without cells the opcode itself is out of range. -/
example : ({ b with cells := #[], state := .running } : BareMachine).step =
    .error (.outOfRange b.regs.pc.toNat 0) := rfl

end Execute

/-! ## Runs -/

def goesOn (b : BareMachine) : Bool :=
  b.state == .running && b.regs.pc.toUInt32 < b.loadedEnd.getD 65536

/-- Repeats steps while the run goes on and the step counter is below the limit. -/
def stepWhile? (limit : UInt64) (b : BareMachine) :
    Option (Checked (Except MachineError BareMachine)) :=
  if b.goesOn && b.steps < limit then
    match b.step with
    | .error fault => some (.error fault)
    | .ok (.error e) => some (.ok (.error e))
    | .ok (.ok (_, next)) => next |>.stepWhile? limit
  else some (.ok (.ok b))
partial_fixpoint

/-- Runs for at most `count` steps; gives the number of steps and the machine after them. -/
def runLimited (b : BareMachine) (count : UInt64) :
    Checked (Except MachineError (UInt64 × BareMachine)) := do
  let limit ← countUp b.steps count
  match b.stepWhile? limit with
  | none => .error .endless
  | some result =>
    match ← result with
    | .error e => return .error e
    | .ok final =>
      let taken ← sub final.steps.toNat b.steps.toNat
      return .ok (UInt64.ofNat taken, final)

/-! ## Beginnings -/

/-- A machine with every register and byte zero that consults the given traps. -/
def fresh (traps : TrapTable Service) : BareMachine where
  regs := .zero
  cells := Array.replicate 65536 0
  state := .running
  interruptsEnabled := false
  steps := 0
  loadedEnd := none
  traps := traps
  console := #[]
  reports := #[]
  reportCount := 0
  lastInstruction := none

/-- The initial state again; the traps stay, and so does the size of memory. -/
def reset (b : BareMachine) : BareMachine := { fresh b.traps with cells := b.cells.clear }

/-- Copies an image into memory and extends the loaded region over it, in a sum of 32 bits. -/
def loadProgram (b : BareMachine) (base : UInt16) (image : List UInt8) :
    Checked (Except MemoryError Unit × BareMachine) := do
  let (result, cells) ← b.cells.load base image
  let b := { b with cells := cells }
  match result with
  | .error e => return (.error e, b)
  | .ok () =>
    let last := UInt32.ofNat (← add 32 base.toNat (UInt32.ofNat image.length).toNat)
    return (.ok (), { b with loadedEnd := some (b.loadedEnd.elim last (max · last)) })

/-- A machine with the image of a configuration loaded, ready at the entry. -/
def build (c : RunConfig) (image : List UInt8) : Checked (Except MemoryError BareMachine) := do
  match ← (fresh c.traps).loadProgram c.loadAddress image with
  | (.error e, _) => return .error e
  | (.ok (), b) => return .ok ((b.setPc c.entry).setSp (c.stackPointer.getD b.regs.sp))

/-- The cells that a snapshot lists. -/
def cells? : Json → Option Cells
  | .array items =>
    match items.mapM Json.asUInt8? with
    | some bytes => (Cells.ofList bytes).toOption
    | none => none
  | _ => none

/-- The machine that a snapshot describes, with no traps, output or reports. -/
def restore? (j : Json) : Option BareMachine :=
  match j.allFields?
      ["regs", "mem", "state", "interrupts_enabled", "steps", "loaded_end", "last_instr"] with
  | some [some regs, some mem, some s, some enabled, some steps, loadedEnd, last] => do
    return {
      regs := ← Snapshot.registers? regs
      cells := ← cells? mem
      state := ← Snapshot.state? s
      interruptsEnabled := ← enabled.asBool?
      steps := ← steps.asUInt64?
      loadedEnd := ← Json.optional? Json.asUInt32? (loadedEnd.getD .null)
      traps := .empty
      console := #[]
      reports := #[]
      reportCount := 0
      lastInstruction := ← Json.optional? Snapshot.instruction? (last.getD .null) }
  | _ => none

end BareMachine

end Intel8080
