import Intel8080.Service

/-!
# Events

What a step has to say to a log, read off the machine before the step: that an instruction is
executed, and then whatever the instruction brings about. Events only describe; no step depends
on them. A line of the log holds the level, the message and the fields of an event.

Embedded here are the calls of the log in `step`, `halt`, `stop`, `report_unimplemented`, `trap`,
`bdos`, `print_string` and `load_image`. The form of a line is taken from the log library, without
the time in front of it.
-/
namespace Intel8080

/-- The importance of an event, lowest first. -/
inductive Level where
  | trace | debug | info | warn | error
  deriving DecidableEq, Repr

namespace Level

def name : Level → String
  | .trace => "TRACE" | .debug => "DEBUG" | .info => "INFO" | .warn => "WARN" | .error => "ERROR"

def rank : Level → Nat
  | .trace => 0 | .debug => 1 | .info => 2 | .warn => 3 | .error => 4

end Level

inductive Event where
  | imageLoaded (path : String) (size : Nat)
  | executed (instruction : Instruction)
  /-- A transfer is answered by a handler. -/
  | trapped (target : UInt16)
  | serviceCalled (function : UInt8) (de : UInt16)
  | functionUnsupported (function : UInt8)
  /-- A string to print has no end. -/
  | stringUnterminated (start : UInt16)
  /-- An instruction is skipped rather than carried out. -/
  | unimplemented (report : Report)
  | halted (pc : UInt16) (steps : UInt64)
  | stopped (pc : UInt16) (steps : UInt64)
  deriving DecidableEq, Repr

namespace Event

def level : Event → Level
  | .executed _ => .trace
  | .imageLoaded .. | .trapped _ | .serviceCalled .. | .functionUnsupported _ => .debug
  | .halted .. | .stopped .. => .info
  | .stringUnterminated _ | .unimplemented _ => .warn

def message : Event → String
  | .imageLoaded .. => "loaded image"
  | .executed _ => "execute"
  | .trapped _ => "trap"
  | .serviceCalled .. => "BDOS call"
  | .functionUnsupported _ => "unsupported BDOS function"
  | .stringUnterminated _ => "unterminated BDOS string"
  | .unimplemented _ => "unimplemented instruction"
  | .halted .. => "halted"
  | .stopped .. => "stopped by trap"

/-- The fields by name, in the order they are written. -/
def fields : Event → List (String × String)
  | .imageLoaded path size => [("path", path), ("size", toString size)]
  | .executed i =>
    [("address", wordHex i.address), ("opcode", byteHex i.opcode),
      ("mnemonic", "\"" ++ i.mnemonic ++ "\"")]
  | .trapped target => [("address", wordHex target)]
  | .serviceCalled function de => [("function", toString function.toNat), ("de", wordHex de)]
  | .functionUnsupported function => [("function", toString function.toNat)]
  | .stringUnterminated start => [("start", wordHex start)]
  | .unimplemented r => [("address", wordHex r.address), ("opcode", byteHex r.opcode)]
  | .halted pc steps | .stopped pc steps =>
    [("pc", wordHex pc), ("steps", toString steps.toNat)]

def line (e : Event) : String :=
  e.level.name ++ " " ++ e.message ++ String.join (e.fields.map fun f => " " ++ f.1 ++ "=" ++ f.2)

end Event

/-- What a service has to say when it runs on a machine. -/
def Service.events {η : Type} (s : Service) (m : Machine η) : List Event :=
  match s with
  | .warmBoot => []
  | .bdos =>
    .serviceCalled m.regs.c m.regs.de ::
      (if m.regs.c == consoleOutput then []
      else if m.regs.c == printString then
        if isTerminated m.mem m.regs.de then [] else [.stringUnterminated m.regs.de]
      else [.functionUnsupported m.regs.c])

namespace Machine

/-- Where the next instruction transfers to, if it is a taken jump or call. -/
def transferTarget? {η : Type} (m : Machine η) : Option UInt16 :=
  match Opcode.operation (m.mem.read m.regs.pc) with
  | .jump condition | .call condition =>
    if m.taken condition then some (m.mem.readWord (m.regs.pc + 1)) else none
  | _ => none

/-- The trapped address that the next instruction transfers to, with its handler. -/
def pendingTrap? {η : Type} (m : Machine η) : Option (UInt16 × η) :=
  m.transferTarget?.bind fun target => (m.traps.get? target).map fun handler => (target, handler)

/-- What the next step has to say, the instruction first. -/
def stepEvents (m : Machine Service) : List Event :=
  let i := m.nextInstruction
  .executed i ::
    match Opcode.operation i.opcode with
    | .hlt => [.halted (m.regs.pc + 1) m.steps]
    | .input | .output => [.unimplemented ⟨i.address, i.opcode⟩]
    | _ =>
      match m.pendingTrap? with
      | none => []
      | some (target, service) =>
        .trapped target :: service.events m ++
          (match service with
          | .warmBoot => [.stopped (m.regs.pc + 3) m.steps]
          | .bdos => [])

end Machine

end Intel8080
