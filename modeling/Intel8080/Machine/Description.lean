import Intel8080.Machine.Basic

/-!
# Descriptions

The text that shows a machine to its developers: run state, step counter, registers and trapped
addresses, each structure with its name and its fields in order.

Embedded here are the texts for debugging that the machine and its parts have.
-/
namespace Intel8080

/-- A structure with its name and fields. -/
def describeFields (name : String) (fields : List (String × String)) : String :=
  name ++ " \x7b " ++ ", ".intercalate (fields.map fun f => f.1 ++ ": " ++ f.2) ++ " \x7d"

def describeBool (b : Bool) : String := if b then "true" else "false"

def Flags.describe (f : Flags) : String :=
  describeFields "Flags" [
    ("sign", describeBool f.sign), ("zero", describeBool f.zero),
    ("aux_carry", describeBool f.auxCarry), ("parity", describeBool f.parity),
    ("carry", describeBool f.carry)]

def Registers.describe (r : Registers) : String :=
  describeFields "Registers" [
    ("b", toString r.b.toNat), ("c", toString r.c.toNat), ("d", toString r.d.toNat),
    ("e", toString r.e.toNat), ("h", toString r.h.toNat), ("l", toString r.l.toNat),
    ("a", toString r.a.toNat), ("pc", toString r.pc.toNat), ("sp", toString r.sp.toNat),
    ("flags", r.flags.describe)]

def Machine.describe {η : Type} (m : Machine η) : String :=
  describeFields "Cpu" [
    ("state", m.state.name), ("steps", toString m.steps.toNat), ("regs", m.regs.describe),
    ("traps", m.traps.describe)]

end Intel8080
