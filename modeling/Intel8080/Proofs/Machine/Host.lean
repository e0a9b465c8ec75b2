import Intel8080.Proofs.Machine.OperandAgreement

/-!
# The host's side of a machine

Beside registers and memory a machine carries what the host keeps: the step counter, the end of
the program, the traps, the console and the last instruction. An operation that no handler answers
neither reads nor changes any of it (`execute_withHost`), whatever the handlers mean. An operation
that a handler answers is that handler's work and nothing else (`execute_answered`).
-/
namespace Intel8080.Machine

variable {η : Type}

def withHost (m host : Machine η) : Machine η :=
  { m with
    steps := host.steps
    loadedEnd := host.loadedEnd
    traps := host.traps
    console := host.console
    lastInstruction := host.lastInstruction }

/-- The handler that answers an operation at the program counter: the one of the address that a
taken jump or call goes to. -/
def answering? (m : Machine η) : Operation → Option η
  | .jump condition | .call condition =>
    if m.taken condition then m.traps.get? (m.mem.readWord (m.regs.pc + 1)) else none
  | _ => none

/-- Without traps no handler answers. -/
theorem answering?_of_untrapped {m : Machine η} (untrapped : m.traps = .empty) (o : Operation) :
    m.answering? o = none := by
  cases o with
  | jump condition | call condition =>
    rw [answering?, untrapped]
    exact ite_self none
  | _ => rfl

/-- A handler that says so stops the run; nothing else is added to what it does. -/
theorem runHandler_eq [TrapHandler η] (m : Machine η) (handler : η) :
    m.runHandler handler =
      { (TrapHandler.run handler m).1 with
        state := if (TrapHandler.run handler m).2 = .stop then .stopped
          else (TrapHandler.run handler m).1.state } := by
  rw [runHandler]
  cases TrapHandler.run handler m with
  | mk done action => cases action <;> rfl

/-- What a handler answers is not carried out otherwise. -/
theorem execute_answered [TrapHandler η] (m : Machine η) (o : Operation) {handler : η}
    (answered : m.answering? o = some handler) :
    m.advancePc.execute o = (m.setPc (m.regs.pc + 3)).runHandler handler := by
  cases o with
  | jump condition =>
    simp only [answering?, Option.ite_none_right_eq_some] at answered
    rw [execute, taken_advancePc, jump_advancePc, if_pos answered.1, answered.2]
  | call condition =>
    simp only [answering?, Option.ite_none_right_eq_some] at answered
    rw [execute, taken_advancePc, call_advancePc, if_pos answered.1, answered.2]
  | _ => cases answered

section Frame

variable (one other : TrapHandler η) (m host : Machine η)

theorem setReg_withHost (r : Reg) (value : UInt8) :
    (m.withHost host).setReg r value = (m.setReg r value).withHost host := by
  cases r <;> rfl

theorem reg_withHost (r : Reg) : (m.withHost host).reg r = m.reg r := by
  cases r <;> rfl

theorem adjustReg_withHost (r : Reg) (f : Flags → UInt8 → UInt8 × Flags) :
    (m.withHost host).adjustReg r f = (m.adjustReg r f).withHost host := by
  cases r <;> rfl

theorem taken_withHost (condition : Option Condition) :
    (m.withHost host).taken condition = m.taken condition := by
  cases condition <;> rfl

/-- A jump that is not trapped goes to its operand. -/
theorem jump_of_free [TrapHandler η] {taken : Bool}
    (free : taken = true → m.traps.get? (m.mem.readWord (m.regs.pc + 1)) = none) :
    m.advancePc.jump taken =
      m.setPc (if taken then m.mem.readWord (m.regs.pc + 1) else m.regs.pc + 3) := by
  rw [jump_advancePc]
  cases taken with
  | false => rfl
  | true =>
    rw [free rfl]
    rfl

/-- A call that is not trapped pushes the address behind its operand and goes to it. -/
theorem call_of_free [TrapHandler η] {taken : Bool}
    (free : taken = true → m.traps.get? (m.mem.readWord (m.regs.pc + 1)) = none) :
    m.advancePc.call taken =
      if taken then (m.pushWord (m.regs.pc + 3)).setPc (m.mem.readWord (m.regs.pc + 1))
      else m.setPc (m.regs.pc + 3) := by
  rw [call_advancePc]
  cases taken with
  | false => rfl
  | true => rw [free rfl]

theorem jump_withHost {taken : Bool}
    (free : taken = true → m.traps.get? (m.mem.readWord (m.regs.pc + 1)) = none)
    (hostFree : taken = true → host.traps.get? (m.mem.readWord (m.regs.pc + 1)) = none) :
    @jump η one (m.withHost host).advancePc taken =
      (@jump η other m.advancePc taken).withHost host := by
  rw [@jump_of_free η (m.withHost host) one taken hostFree, @jump_of_free η m other taken free]
  rfl

theorem call_withHost {taken : Bool}
    (free : taken = true → m.traps.get? (m.mem.readWord (m.regs.pc + 1)) = none)
    (hostFree : taken = true → host.traps.get? (m.mem.readWord (m.regs.pc + 1)) = none) :
    @call η one (m.withHost host).advancePc taken =
      (@call η other m.advancePc taken).withHost host := by
  rw [@call_of_free η (m.withHost host) one taken hostFree, @call_of_free η m other taken free]
  cases taken <;> rfl

/-- An operation that no handler answers, before or after the exchange of the host's side, does
the same to the rest, whatever the handlers mean. -/
theorem execute_withHost (o : Operation) (free : m.answering? o = none)
    (hostFree : (m.withHost host).answering? o = none) :
    @execute η one (m.withHost host).advancePc o =
      (@execute η other m.advancePc o).withHost host := by
  cases o with
  | mov target source =>
    exact (congrArg _ (reg_withHost m.advancePc host source)).trans
      (setReg_withHost m.advancePc host target _)
  | mvi target => exact setReg_withHost (m.advancePc.fetchByte).2 host target _
  | accumulate op source =>
    exact congrArg ((m.withHost host).advancePc.accumulate op)
      (reg_withHost m.advancePc host source)
  | inr target => exact adjustReg_withHost m.advancePc host target Arithmetic.inr
  | dcr target => exact adjustReg_withHost m.advancePc host target Arithmetic.dcr
  | jump condition =>
    simp only [answering?, ite_eq_right_iff, taken_withHost] at free hostFree
    simp only [execute, taken_advancePc, taken_withHost]
    exact jump_withHost one other m host free hostFree
  | call condition =>
    simp only [answering?, ite_eq_right_iff, taken_withHost] at free hostFree
    simp only [execute, taken_advancePc, taken_withHost]
    exact call_withHost one other m host free hostFree
  | ret condition =>
    simp only [execute, taken_advancePc, taken_withHost, ret]
    cases m.taken condition <;> rfl
  | _ => rfl

/-- An operation that no handler answers leaves the host's side as it is. -/
theorem execute_free [TrapHandler η] (o : Operation) (free : m.answering? o = none) :
    m.advancePc.execute o = (m.advancePc.execute o).withHost m :=
  execute_withHost _ _ m m o free free

end Frame

end Intel8080.Machine
