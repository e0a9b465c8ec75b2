import Intel8080.Address
import Intel8080.Json.Writer
import Intel8080.Service

/-!
# Run configurations

Where an image goes, where execution starts and which host services there are. A configuration is
written as a JSON object of all five fields. It is read from an object that gives any of them, or
from an array of up to five values in their order; absent fields keep their defaults.

Embedded here are the configuration with `entry`, `cpm`, `build_cpu`, `from_json_str` and its
derived writing. Which members of an object fill which fields follows the derived rules of the JSON
library, which are taken as documented.
-/
namespace Intel8080

structure RunConfig where
  /-- Where the image is copied to. -/
  loadAddress : UInt16
  /-- The first program counter; the load address unless set. -/
  entryPoint : Option UInt16
  /-- Whether the CP/M services answer. -/
  cpm : Bool
  /-- The first stack pointer; zero unless set. -/
  stackPointer : Option UInt16
  /-- The most instructions to execute. -/
  maxSteps : Option UInt64
  deriving DecidableEq, Repr

namespace RunConfig

/-- Load at zero, with no services and no limit. -/
def default : RunConfig := ⟨0, none, false, none, none⟩

instance : Inhabited RunConfig := ⟨default⟩

/-- The load address of CP/M programs. -/
def cpmLoadAddress : UInt16 := 0x0100

def cpmProgram : RunConfig := { default with loadAddress := cpmLoadAddress, cpm := true }

def entry (c : RunConfig) : UInt16 := c.entryPoint.getD c.loadAddress

def traps (c : RunConfig) : TrapTable Service := if c.cpm then Service.traps else .empty

/-- A machine with the image loaded, ready at the entry. -/
def build (c : RunConfig) (image : List UInt8) : Except MemoryError (Machine Service) :=
  match (Machine.withTraps c.traps).loadProgram c.loadAddress image with
  | (.error e, _) => .error e
  | (.ok (), m) => .ok ((m.setPc c.entry).setSp (c.stackPointer.getD m.regs.sp))

/-- A machine that was built has executed and printed nothing yet. -/
theorem build_fresh {c : RunConfig} {image : List UInt8} {start : Machine Service}
    (built : c.build image = .ok start) : start.console = #[] ∧ start.steps = 0 := by
  unfold build Machine.loadProgram Memory.load at built
  by_cases large : memorySize < c.loadAddress.toNat + image.length
  · rw [if_pos large] at built
    cases built
  · rw [if_neg large] at built
    cases built
    exact ⟨rfl, rfl⟩

def fieldNames : List String :=
  ["load_address", "entry_point", "cpm", "stack_pointer", "max_steps"]

def toJson (c : RunConfig) : Json :=
  .record [
    ("load_address", .nat c.loadAddress.toNat),
    ("entry_point", .ofOption (fun w => .nat w.toNat) c.entryPoint),
    ("cpm", .bool c.cpm),
    ("stack_pointer", .ofOption (fun w => .nat w.toNat) c.stackPointer),
    ("max_steps", .ofOption (fun n => .nat n.toNat) c.maxSteps)]

/-- The value of a field that may be absent. -/
def field? {α : Type} (absent : α) (f : Json → Option α) : Option Json → Option α
  | none => some absent
  | some j => f j

def ofJson? (j : Json) : Option RunConfig :=
  match j.fields? fieldNames with
  | some [loadAddress, entryPoint, cpm, stackPointer, maxSteps] => do
    return {
      loadAddress := ← field? default.loadAddress Json.asUInt16? loadAddress
      entryPoint := ← field? default.entryPoint (Json.optional? Json.asUInt16?) entryPoint
      cpm := ← field? default.cpm Json.asBool? cpm
      stackPointer := ← field? default.stackPointer (Json.optional? Json.asUInt16?) stackPointer
      maxSteps := ← field? default.maxSteps (Json.optional? Json.asUInt64?) maxSteps }
  | _ => none

def render (c : RunConfig) : String := c.toJson.compact

def parse? (text : String) : Option RunConfig := (Json.read text).bind ofJson?

end RunConfig

end Intel8080
