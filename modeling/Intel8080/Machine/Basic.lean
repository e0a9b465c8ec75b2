import Intel8080.Instruction
import Intel8080.TrapTable

/-!
# The machine

Registers, memory and run state, with what the host keeps about the run: a step counter, the end
of the loaded images, the trap table, console output not yet taken, and reports of instructions
that are not carried out. The type `η` names the host's handlers.

Embedded here are the machine with `new`, `with_traps`, `reset`, `load_program`, `program_end`,
`reg`, `set_reg`, `console_write`, `take_console`, `report_unimplemented` and `take_diagnostics`.
The counters have 64 bits and wrap, as they do where overflow is not checked.
-/
namespace Intel8080

inductive RunState where
  | running
  /-- A halt instruction was executed. -/
  | halted
  /-- A handler ended the run. -/
  | stopped
  deriving DecidableEq, Repr

def RunState.name : RunState → String
  | .running => "Running"
  | .halted => "Halted"
  | .stopped => "Stopped"

/-- An executed instruction that is not carried out. -/
structure Report where
  address : UInt16
  opcode : UInt8
  deriving DecidableEq, Repr

/-- How many reports are kept until the host takes them. -/
def maxReports : Nat := 64

structure Machine (η : Type) where
  regs : Registers
  mem : Memory
  state : RunState
  /-- The interrupt flip-flop. Nothing reads it. -/
  interruptsEnabled : Bool
  /-- How many instructions were executed. -/
  steps : UInt64
  /-- One past the last byte of the loaded images, if any was loaded. -/
  loadedEnd : Option UInt32
  traps : TrapTable η
  /-- Console output that the host has not taken. -/
  console : Array UInt8
  /-- The first reports since the host last took them. -/
  reports : Array Report
  /-- How many reports were made, kept or not. -/
  reportCount : UInt64
  lastInstruction : Option Instruction

/-- Why a request to the machine is refused. -/
inductive MachineError where
  | notRunning (state : RunState)
  | memory (cause : MemoryError)
  deriving DecidableEq, Repr

def MachineError.message : MachineError → String
  | .notRunning state => "CPU not running: " ++ state.name
  | .memory cause => "memory error: " ++ cause.message

namespace Machine

variable {η : Type}

/-- A machine with every register and byte zero that consults the given traps. -/
def withTraps (traps : TrapTable η) : Machine η where
  regs := .zero
  mem := .zero
  state := .running
  interruptsEnabled := false
  steps := 0
  loadedEnd := none
  traps := traps
  console := #[]
  reports := #[]
  reportCount := 0
  lastInstruction := none

def new : Machine η := withTraps .empty

instance : Inhabited (Machine η) := ⟨new⟩

/-- The initial state again; only the traps stay. -/
def reset (m : Machine η) : Machine η := withTraps m.traps

/-- Copies an image into memory and, unless that is refused, extends the loaded region over it. The
program counter does not move. -/
def loadProgram (m : Machine η) (base : UInt16) (image : List UInt8) :
    Except MemoryError Unit × Machine η :=
  let (result, mem) := m.mem.load base image
  let m := { m with mem := mem }
  match result with
  | .error e => (.error e, m)
  | .ok () =>
    let last := UInt32.ofNat (base.toNat + image.length)
    (.ok (), { m with loadedEnd := some (m.loadedEnd.elim last (max · last)) })

/-- One past the last address of the program: all of memory if nothing was loaded. -/
def programEnd (m : Machine η) : UInt32 := m.loadedEnd.getD 65536

def isRunning (m : Machine η) : Bool := m.state == .running

def isHalted (m : Machine η) : Bool := m.state == .halted

/-- Whether the program counter is below the end of the program. -/
def pcInProgram (m : Machine η) : Bool := m.regs.pc.toUInt32 < m.programEnd

def setPc (m : Machine η) (pc : UInt16) : Machine η := { m with regs := { m.regs with pc := pc } }

def setSp (m : Machine η) (sp : UInt16) : Machine η := { m with regs := { m.regs with sp := sp } }

def advancePc (m : Machine η) : Machine η := { m with regs := m.regs.advancePc }

def writeByte (m : Machine η) (address : UInt16) (value : UInt8) : Machine η :=
  { m with mem := m.mem.write address value }

def writeWord (m : Machine η) (address value : UInt16) : Machine η :=
  { m with mem := m.mem.writeWord address value }

/-- The value of a byte operand. -/
def reg (m : Machine η) : Reg → UInt8
  | .b => m.regs.b | .c => m.regs.c | .d => m.regs.d | .e => m.regs.e
  | .h => m.regs.h | .l => m.regs.l | .m => m.mem.read m.regs.hl | .a => m.regs.a

def setReg (m : Machine η) (r : Reg) (value : UInt8) : Machine η :=
  match r with
  | .b => { m with regs := { m.regs with b := value } }
  | .c => { m with regs := { m.regs with c := value } }
  | .d => { m with regs := { m.regs with d := value } }
  | .e => { m with regs := { m.regs with e := value } }
  | .h => { m with regs := { m.regs with h := value } }
  | .l => { m with regs := { m.regs with l := value } }
  | .m => m.writeByte m.regs.hl value
  | .a => { m with regs := { m.regs with a := value } }

def setFlags (m : Machine η) (f : Flags) : Machine η := { m with regs := { m.regs with flags := f } }

def halt (m : Machine η) : Machine η := { m with state := .halted }

def stop (m : Machine η) : Machine η := { m with state := .stopped }

def writeConsole (m : Machine η) (b : UInt8) : Machine η :=
  { m with console := m.console.push b }

def takeConsole (m : Machine η) : Array UInt8 × Machine η := (m.console, { m with console := #[] })

/-- Counts an instruction that is not carried out, and keeps the report while there is room. -/
def report (m : Machine η) (address : UInt16) (opcode : UInt8) : Machine η :=
  { m with
    reportCount := m.reportCount + 1
    reports := if m.reports.size < maxReports then m.reports.push ⟨address, opcode⟩
      else m.reports }

/-- The kept reports, and the machine without them. The count stays. -/
def takeReports (m : Machine η) : Array Report × Machine η := (m.reports, { m with reports := #[] })

end Machine

end Intel8080
