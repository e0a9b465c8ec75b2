import Intel8080.Machine.Run
import Intel8080.RunConfig
import Intel8080.Text.Utf8

/-!
# The debugger

A machine under observation: it is stepped by hand or in batches, stops at breakpoints and at the
limits of its configuration, and shows its console, the addresses it has executed and a window of
memory. What the debugger keeps for itself never reaches the machine.

Embedded here are `new`, `step`, `run`, `tick`, `toggle_breakpoint`, `reset`, `scroll_up`,
`scroll_down` and `drain_console` of the debugger, and the paging of its key loop. The loop itself,
which reads keys from a terminal, is left out.
-/
namespace Intel8080

/-- The last thing that happened, for the status line. -/
inductive Debugger.Status where
  | ready
  /-- A step was asked for, but the machine is not running. -/
  | notRunning (state : RunState)
  | executed (instruction : Instruction)
  | failed (error : MachineError)
  | running
  | ended (state : RunState) (steps : UInt64)
  | leftProgram (pc : UInt16)
  | limitReached (limit : UInt64)
  | atBreakpoint (pc : UInt16)
  | breakpointSet (pc : UInt16)
  | breakpointRemoved (pc : UInt16)
  | wasReset
  | resetFailed (error : MemoryError)
  deriving DecidableEq, Repr

def Debugger.Status.message : Status → String
  | .ready => "Ready. Press 's' to step, 'r' to run, 'q' to quit."
  | .notRunning state => "CPU stopped: " ++ state.name
  | .executed i => "PC=" ++ wordHex i.address ++ ": " ++ i.text
  | .failed error => "Error: " ++ error.message
  | .running => "Running..."
  | .ended state steps => state.name ++ " after " ++ toString steps.toNat ++ " steps"
  | .leftProgram pc => "PC=" ++ wordHex pc ++ " left the program"
  | .limitReached limit => "Step limit " ++ toString limit.toNat ++ " reached"
  | .atBreakpoint pc => "Breakpoint at PC=" ++ wordHex pc
  | .breakpointSet pc => "Set breakpoint at PC=" ++ wordHex pc
  | .breakpointRemoved pc => "Removed breakpoint at PC=" ++ wordHex pc
  | .wasReset => "Reset. Ready."
  | .resetFailed error => "Reset failed: " ++ error.message

structure Debugger where
  machine : Machine Service
  config : RunConfig
  image : List UInt8
  /-- The breakpoint addresses, ascending and without repetition. -/
  breakpoints : List UInt16
  /-- Whether batches of steps are executed. -/
  running : Bool
  /-- Whether the debugger is to be left. -/
  quitting : Bool
  status : Debugger.Status
  /-- The first row of memory shown. -/
  memoryRow : Nat
  /-- Everything the program has printed. -/
  console : String
  /-- The last executed addresses, oldest first. -/
  history : List UInt16

namespace Debugger

def stepsPerTick : Nat := 500

def historyLength : Nat := 8

def rowSize : Nat := 16

def rowCount : Nat := memorySize / rowSize

def new (config : RunConfig) (image : List UInt8) : Except MemoryError Debugger :=
  match config.build image with
  | .error e => .error e
  | .ok machine => .ok {
      machine := machine
      config := config
      image := image
      breakpoints := []
      running := false
      quitting := false
      status := .ready
      memoryRow := config.loadAddress.toNat / rowSize
      console := ""
      history := [] }

/-- Moves pending output of the machine to the console, read as text by itself. -/
def drainConsole (d : Debugger) : Debugger :=
  let (bytes, machine) := d.machine.takeConsole
  { d with
    machine := machine
    console := if bytes.isEmpty then d.console else d.console ++ Utf8.decodeLossy bytes.toList }

/-- The executed addresses after one more. -/
def remember (history : List UInt16) (address : UInt16) : List UInt16 :=
  (if history.length == historyLength then history.drop 1 else history) ++ [address]

def step (d : Debugger) : Debugger :=
  if d.machine.isRunning then
    match d.machine.step with
    | .ok (i, machine) =>
      { d with
        machine := machine
        status := .executed i
        history := remember d.history i.address }.drainConsole
    | .error e => { d with status := .failed e, running := false }.drainConsole
  else { d with status := .notRunning d.machine.state, running := false }

def run (d : Debugger) : Debugger := { d with running := true, status := .running }

def pauseFor (d : Debugger) (reason : Status) : Debugger :=
  { d with running := false, status := reason }

/-- Whether the configured number of steps is used up. -/
def limitReached? (d : Debugger) : Option UInt64 := d.config.maxSteps.filter (· ≤ d.machine.steps)

/-- Why the next step of a batch is not taken: the machine ended, the program was left, or the
limit is reached. -/
def stopReason? (d : Debugger) : Option Status :=
  if !d.machine.isRunning then some (.ended d.machine.state d.machine.steps)
  else if !d.machine.pcInProgram then some (.leftProgram d.machine.regs.pc)
  else d.limitReached?.map .limitReached

def checkBreakpoint (d : Debugger) : Debugger :=
  let pc := d.machine.regs.pc
  if d.running && d.breakpoints.contains pc then d.pauseFor (.atBreakpoint pc) else d

/-- Executes at most the given number of steps of a batch. -/
def batch (d : Debugger) : Nat → Debugger
  | 0 => d
  | n + 1 =>
    if d.running then
      match d.stopReason? with
      | some reason => d.pauseFor reason
      | none => d.step.checkBreakpoint.batch n
    else d

def tick (d : Debugger) : Debugger := d.batch stepsPerTick

/-- A set of addresses, ascending, with one more in its place. -/
def insertAddress (address : UInt16) : List UInt16 → List UInt16
  | [] => [address]
  | a :: rest =>
    if address < a then address :: a :: rest
    else if address == a then a :: rest
    else a :: insertAddress address rest

def addBreakpoint (d : Debugger) (address : UInt16) : Debugger :=
  { d with breakpoints := insertAddress address d.breakpoints }

/-- Sets or removes the breakpoint at the program counter. -/
def toggleBreakpoint (d : Debugger) : Debugger :=
  let pc := d.machine.regs.pc
  if d.breakpoints.contains pc then
    { d with
      breakpoints := d.breakpoints.filter (· != pc)
      status := .breakpointRemoved pc }
  else { d.addBreakpoint pc with status := .breakpointSet pc }

/-- Loads the image again and starts over. -/
def reset (d : Debugger) : Debugger :=
  let d := match d.config.build d.image with
    | .ok machine => { d with machine := machine, status := .wasReset }
    | .error e => { d with status := .resetFailed e }
  { d with console := "", history := [], running := false }

def scrollUp (d : Debugger) : Debugger := { d with memoryRow := d.memoryRow - 1 }

def scrollDown (d : Debugger) : Debugger :=
  if d.memoryRow + 1 < rowCount then { d with memoryRow := d.memoryRow + 1 } else d

def pageRows : Nat := 16

def pageUp (d : Debugger) : Debugger := { d with memoryRow := d.memoryRow - pageRows }

/-- Shows memory from some rows later, as far as there are any. -/
def scrollDownBy (d : Debugger) : Nat → Debugger
  | 0 => d
  | rows + 1 => d.scrollDown.scrollDownBy rows

def pageDown (d : Debugger) : Debugger := d.scrollDownBy pageRows

end Debugger

end Intel8080
