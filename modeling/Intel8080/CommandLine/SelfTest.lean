import Intel8080.Machine.Run
import Intel8080.Service

/-!
# The self-test

A few computations with known results, and the report of how they came out.

Embedded here is `run_self_test`.
-/
namespace Intel8080.CommandLine

structure Check where
  name : String
  passed : Bool
  deriving DecidableEq, Repr

/-- The machine after loading a program, setting the program counter and running, or nothing if
any of it is refused or the run never ends. -/
def ranProgram (traps : TrapTable Service) (base : UInt16) (program : List UInt8) :
    Option (Machine Service) :=
  match (Machine.withTraps traps).loadProgram base program with
  | (.error _, _) => none
  | (.ok (), m) =>
    match (m.setPc base).run with
    | some (.ok (_, m)) => some m
    | _ => none

def checks : List Check :=
  let (sum, sumFlags) := Arithmetic.adc { Flags.clear with carry := true } 0x42 0x3D
  let (zero, zeroFlags) := Arithmetic.sub .clear 0x3E 0x3E
  let (borrowed, borrowFlags) := Arithmetic.sub .clear 0x01 0x02
  let (adjusted, adjustedFlags) := Arithmetic.daa .clear 0x9B
  let (wide, wideFlags) := Arithmetic.dad .clear 0xFFFF 0x0001
  let added := ranProgram .empty 0 [0x3E, 0x05, 0x06, 0x03, 0x80, 0x76]
  let printed := ranProgram Service.traps 0x0100
    [0x0E, 0x02, 0x1E, 0x2A, 0xCD, 0x05, 0x00, 0xC3, 0x00, 0x00]
  [⟨"ADC 42+3D+1 = 80", sum == 0x80 && sumFlags.sign && !sumFlags.carry⟩,
    ⟨"SUB A,A clears A", zero == 0 && zeroFlags.zero && zeroFlags.parity && !zeroFlags.carry⟩,
    ⟨"SUB 01-02 borrows", borrowed == 0xFF && borrowFlags.carry⟩,
    ⟨"DAA 9B = 01 carry", adjusted == 0x01 && adjustedFlags.carry && adjustedFlags.auxCarry⟩,
    ⟨"DAD carry out", wide == 0 && wideFlags.carry && !wideFlags.zero⟩,
    ⟨"CPU MVI/ADD/HLT", added.any fun m => m.isHalted && m.regs.a == 8⟩,
    ⟨"CP/M BDOS console output",
      printed.any fun m => m.state == .stopped && m.console.toList == [0x2A]⟩]

def checkReport (cs : List Check) : List String :=
  let passed := cs.countP (·.passed)
  let failed := cs.length - passed
  ["━━━ i8080 Self-Test ━━━", ""] ++
    cs.map (fun c => c.name ++ "... " ++ (if c.passed then "✓" else "✗")) ++
    ["", String.ofList (List.replicate 30 '━'),
      "Results: " ++ toString passed ++ " passed, " ++ toString failed ++ " failed"] ++
    (if failed == 0 then ["✓ All tests passed!"] else [])

end Intel8080.CommandLine
