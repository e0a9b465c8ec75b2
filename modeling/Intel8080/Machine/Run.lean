import Intel8080.Machine.Execute

/-!
# Runs

A run repeats steps while the machine is running and the program counter is inside the program.
`run` has no other end. `runLimited` also ends once the step counter reaches the value it had at
the start plus the given number, so it counts steps as long as no handler sets the counter.

Embedded here are `run` and `run_limited`. The limit is a sum of 64 bits that wraps, so near its end
a run may take no step at all. A run that does not end gives nothing back.
-/
namespace Intel8080.Machine

variable {η : Type}

def goesOn (m : Machine η) : Bool := m.isRunning && m.pcInProgram

/-- Repeats steps while the run goes on and the step counter is below the limit, if there is one.
Nothing, if that never ends. -/
def stepWhile? [TrapHandler η] (limit : Option UInt64) (m : Machine η) :
    Option (Except MachineError (Machine η)) :=
  if m.goesOn && limit.all (m.steps < ·) then
    match m.step with
    | .error e => some (.error e)
    | .ok (_, next) => next |>.stepWhile? limit
  else some (.ok m)
partial_fixpoint

/-- What a run from `m` on gives: what the step counter grew by, and the machine at the end. -/
def counted (m final : Machine η) : UInt64 × Machine η := (final.steps - m.steps, final)

/-- A run that is not refused gives its number of steps with the machine at its end. -/
theorem map_counted (m final : Machine η) :
    (Except.ok final : Except MachineError (Machine η)).map m.counted =
      .ok (final.steps - m.steps, final) := rfl

/-- Runs for at most `limit` steps. -/
def runLimited [TrapHandler η] (m : Machine η) (limit : Nat) :
    Option (Except MachineError (UInt64 × Machine η)) :=
  (m.stepWhile? (some (m.steps + UInt64.ofNat limit))).map (·.map m.counted)

/-- Runs until the machine halts, is stopped or leaves the program. -/
def run [TrapHandler η] (m : Machine η) : Option (Except MachineError (UInt64 × Machine η)) :=
  (m.stepWhile? none).map (·.map m.counted)

end Intel8080.Machine
