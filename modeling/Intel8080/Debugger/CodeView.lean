import Intel8080.Debugger.Basic

/-!
# The code view

The instructions last executed, and then those from the program counter on. Executed addresses
take at most a third of the rows, and the one at the program counter is not repeated.

Embedded here is `get_disassembly`.
-/
namespace Intel8080

/-- An instruction in memory, and whether it is the next one. -/
structure Debugger.CodeRow where
  address : UInt16
  text : String
  isCurrent : Bool
  deriving DecidableEq, Repr

namespace Debugger

def codeRow (d : Debugger) (address : UInt16) (isCurrent : Bool) : CodeRow :=
  ⟨address, (Instruction.decode d.machine.mem address).text, isCurrent⟩

/-- The executed addresses that are shown in a number of rows. -/
def shownHistory (d : Debugger) (rows : Nat) : List UInt16 :=
  (d.history.drop (d.history.length - min d.history.length (rows / 3))).filter
    (· != d.machine.regs.pc)

/-- The rows of consecutive instructions from an address on. -/
def rowsFrom (d : Debugger) (address : UInt16) : Nat → List CodeRow
  | 0 => []
  | rows + 1 =>
    d.codeRow address (address == d.machine.regs.pc) ::
      d.rowsFrom (address + UInt16.ofNat (Instruction.decode d.machine.mem address).size) rows

/-- The given number of rows around the program counter. -/
def codeView (d : Debugger) (rows : Nat) : List CodeRow :=
  let executed := (d.shownHistory rows).map fun address => d.codeRow address false
  executed ++ d.rowsFrom d.machine.regs.pc (rows - executed.length)

end Debugger

end Intel8080
