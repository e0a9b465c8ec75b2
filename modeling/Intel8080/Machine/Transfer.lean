import Intel8080.Machine.Stack

/-!
# Transfers of control

Jumps and calls always consume their address operand, taken or not. A taken jump or call to a
trapped address runs the handler in place of the transfer: nothing is pushed and the program
counter stays after the operand. Returns and restarts are never trapped.

Embedded here are `trap`, `jump`, `call`, `ret` and `restart`.
-/
namespace Intel8080

/-- What the machine does once a handler returns. -/
inductive TrapAction where
  /-- Continue with the instruction after the jump or call. -/
  | resume
  /-- End the run. -/
  | stop
  deriving DecidableEq, Repr

/-- The meaning of the host's handlers. -/
class TrapHandler (η : Type) where
  run : η → Machine η → Machine η × TrapAction

namespace Machine

variable {η : Type}

/-- Runs a handler and ends the run if it says so. -/
def runHandler [TrapHandler η] (m : Machine η) (handler : η) : Machine η :=
  match TrapHandler.run handler m with
  | (m, .resume) => m
  | (m, .stop) => m.stop

/-- The machine after the handler of a trapped address, or nothing for an address that is not
trapped. -/
def trap? [TrapHandler η] (m : Machine η) (target : UInt16) : Option (Machine η) :=
  match m.traps.get? target with
  | none => none
  | some handler => some (m.runHandler handler)

def jump [TrapHandler η] (m : Machine η) (taken : Bool) : Machine η :=
  let (target, m) := m.fetchWord
  if taken then
    match m.trap? target with
    | some m => m
    | none => m.setPc target
  else m

/-- Calls the operand if taken, pushing the address of the next instruction. -/
def call [TrapHandler η] (m : Machine η) (taken : Bool) : Machine η :=
  let (target, m) := m.fetchWord
  if taken then
    match m.trap? target with
    | some m => m
    | none => (m.pushWord m.regs.pc).setPc target
  else m

/-- Returns to the word on the stack if taken. -/
def ret (m : Machine η) (taken : Bool) : Machine η :=
  if taken then
    let (target, m) := m.popWord
    m.setPc target
  else m

/-- Calls the vector numbered by the low three bits, eight bytes apart from zero on. -/
def restart (m : Machine η) (vector : UInt8) : Machine η :=
  (m.pushWord m.regs.pc).setPc ((vector &&& 7).toUInt16 * 8)

end Machine

end Intel8080
