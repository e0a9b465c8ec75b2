import Intel8080.Json.Writer
import Intel8080.Machine.Basic

/-!
# Snapshots

A snapshot is a machine as JSON: registers, the bytes of memory as an array, run state, interrupt
flip-flop, step counter, end of the loaded images and last instruction. Traps, console and reports
belong to the host and are left out. Reading takes structures also as arrays of all their fields;
absent optional fields are null, and every other field must be there.

Embedded here are the derived writing and reading of a machine and of its parts, by the documented
rules of the JSON library.
-/
namespace Intel8080.Snapshot

/-! ## Writing -/

def byte (b : UInt8) : Json := .nat b.toNat

def word (w : UInt16) : Json := .nat w.toNat

def flags (f : Flags) : Json :=
  .record [
    ("sign", .bool f.sign), ("zero", .bool f.zero), ("aux_carry", .bool f.auxCarry),
    ("parity", .bool f.parity), ("carry", .bool f.carry)]

def registers (r : Registers) : Json :=
  .record [
    ("b", byte r.b), ("c", byte r.c), ("d", byte r.d), ("e", byte r.e), ("h", byte r.h),
    ("l", byte r.l), ("a", byte r.a), ("pc", word r.pc), ("sp", word r.sp),
    ("flags", flags r.flags)]

def memory (m : Memory) : Json := .array (m.toList.map byte)

def state (s : RunState) : Json := .text s.name

def operand : Operand → Json
  | .none => .text "None"
  | .byte b => .record [("Byte", byte b)]
  | .word w => .record [("Word", word w)]

def instruction (i : Instruction) : Json :=
  .record [("address", word i.address), ("opcode", byte i.opcode), ("operand", operand i.operand)]

def fields {η : Type} (m : Machine η) : List (String × Json) :=
  [("regs", registers m.regs), ("mem", memory m.mem), ("state", state m.state),
    ("interrupts_enabled", .bool m.interruptsEnabled), ("steps", .nat m.steps.toNat),
    ("loaded_end", .ofOption (fun n => .nat n.toNat) m.loadedEnd),
    ("last_instr", .ofOption instruction m.lastInstruction)]

def ofMachine {η : Type} (m : Machine η) : Json := .record (fields m)

/-! ## Reading -/

/-- A variant of an enumeration with its content, if it has any. -/
def variant? : Json → Option (String × Option Json)
  | .string (some name) => some (name, none)
  | .object [(some name, content)] => some (name, some content)
  | _ => none

/-- Whether a variant without content is given none, or null. -/
def isUnit : Option Json → Bool
  | none => true
  | some .null => true
  | _ => false

def flags? (j : Json) : Option Flags :=
  match j.allFields? ["sign", "zero", "aux_carry", "parity", "carry"] with
  | some [some s, some z, some a, some p, some c] => do
    return ⟨← s.asBool?, ← z.asBool?, ← a.asBool?, ← p.asBool?, ← c.asBool?⟩
  | _ => none

def registers? (j : Json) : Option Registers :=
  match j.allFields? ["b", "c", "d", "e", "h", "l", "a", "pc", "sp", "flags"] with
  | some [some b, some c, some d, some e, some h, some l, some a, some pc, some sp, some f] => do
    return ⟨← b.asUInt8?, ← c.asUInt8?, ← d.asUInt8?, ← e.asUInt8?, ← h.asUInt8?, ← l.asUInt8?,
      ← a.asUInt8?, ← pc.asUInt16?, ← sp.asUInt16?, ← flags? f⟩
  | _ => none

def memory? : Json → Option Memory
  | .array items =>
    match items.mapM Json.asUInt8? with
    | some bytes => (Memory.ofList bytes).toOption
    | none => none
  | _ => none

def state? (j : Json) : Option RunState :=
  match variant? j with
  | some ("Running", content) => if isUnit content then some .running else none
  | some ("Halted", content) => if isUnit content then some .halted else none
  | some ("Stopped", content) => if isUnit content then some .stopped else none
  | _ => none

def operand? (j : Json) : Option Operand :=
  match variant? j with
  | some ("None", content) => if isUnit content then some .none else none
  | some ("Byte", some content) => content.asUInt8?.map .byte
  | some ("Word", some content) => content.asUInt16?.map .word
  | _ => none

def instruction? (j : Json) : Option Instruction :=
  match j.allFields? ["address", "opcode", "operand"] with
  | some [some address, some opcode, some o] => do
    return ⟨← address.asUInt16?, ← opcode.asUInt8?, ← operand? o⟩
  | _ => none

/-- The machine that a snapshot describes, with no traps, output or reports. -/
def toMachine? {η : Type} (j : Json) : Option (Machine η) :=
  match j.allFields?
      ["regs", "mem", "state", "interrupts_enabled", "steps", "loaded_end", "last_instr"] with
  | some [some regs, some mem, some s, some enabled, some steps, loadedEnd, last] => do
    return {
      regs := ← registers? regs
      mem := ← memory? mem
      state := ← state? s
      interruptsEnabled := ← enabled.asBool?
      steps := ← steps.asUInt64?
      loadedEnd := ← Json.optional? Json.asUInt32? (loadedEnd.getD .null)
      traps := .empty
      console := #[]
      reports := #[]
      reportCount := 0
      lastInstruction := ← Json.optional? instruction? (last.getD .null) }
  | _ => none

end Intel8080.Snapshot
