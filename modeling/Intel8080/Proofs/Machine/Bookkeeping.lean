import Intel8080.Proofs.Service.Effect

/-!
# Bookkeeping is never read

Interrupt flip-flop, step counter, end of the program, console, reports and last instruction are
written by execution and read by the host alone. So machines that agree on everything else
(`Alike`) take the same steps for ever, print the same bytes and make the same reports, and a host
that changes the bookkeeping between the steps changes nothing about them (`after_alike`). The
proof says once what a step does to the bookkeeping (`noteStep`) and that it does the same to the
rest whatever the bookkeeping was (`next_withBooks`).
-/
namespace Intel8080.Machine

section Core

variable {η : Type}

/-- Machines that agree on registers, memory, run state and traps. -/
structure Alike (m other : Machine η) : Prop where
  regs : other.regs = m.regs
  mem : other.mem = m.mem
  state : other.state = m.state
  traps : other.traps = m.traps

/-- A machine with the bookkeeping of another. -/
def withBooks (m books : Machine η) : Machine η :=
  { books with regs := m.regs, mem := m.mem, state := m.state, traps := m.traps }

/-- The bookkeeping after an operation that no handler answers and whose opcode stands at an
address. -/
def note (books : Machine η) (address : UInt16) : Operation → Machine η
  | .ei => { books with interruptsEnabled := true }
  | .di => { books with interruptsEnabled := false }
  | .input => books.report address 0xDB
  | .output => books.report address 0xD3
  | _ => books

theorem Alike.trans {m middle other : Machine η} (first : Alike m middle)
    (second : Alike middle other) : Alike m other :=
  ⟨second.regs.trans first.regs, second.mem.trans first.mem, second.state.trans first.state,
    second.traps.trans first.traps⟩

theorem alike_withBooks (m books : Machine η) : Alike m (m.withBooks books) := ⟨rfl, rfl, rfl, rfl⟩

theorem Alike.eq_withBooks {m other : Machine η} (alike : Alike m other) :
    other = m.withBooks other := by
  rw [withBooks, ← alike.regs, ← alike.mem, ← alike.state, ← alike.traps]

section Frame

variable (m books : Machine η)

theorem setReg_withBooks (r : Reg) (value : UInt8) :
    (m.withBooks books).setReg r value = (m.setReg r value).withBooks books := by
  cases r <;> rfl

theorem reg_withBooks (r : Reg) : (m.withBooks books).reg r = m.reg r := by
  cases r <;> rfl

theorem adjustReg_withBooks (r : Reg) (f : Flags → UInt8 → UInt8 × Flags) :
    (m.withBooks books).adjustReg r f = (m.adjustReg r f).withBooks books := by
  cases r <;> rfl

theorem taken_withBooks (condition : Option Condition) :
    (m.withBooks books).taken condition = m.taken condition := by
  cases condition <;> rfl

/-- A port operation moves past its operand and is reported by the address of its opcode. -/
theorem skipPort_advancePc (opcode : UInt8) :
    m.advancePc.skipPort opcode = (m.setPc (m.regs.pc + 2)).report m.regs.pc opcode := by
  have back : m.regs.pc + 1 - 1 = m.regs.pc := UInt16.add_sub_cancel _ _
  change m.advancePc.advancePc.report (m.regs.pc + 1 - 1) opcode = _
  rw [back, ← add_one_add_one]
  rfl

/-- A skipped port instruction is the same but for the report, which goes to the books. -/
theorem skipPort_withBooks (opcode : UInt8) :
    (m.withBooks books).advancePc.skipPort opcode =
      (m.advancePc.skipPort opcode).withBooks (books.report m.regs.pc opcode) := by
  rw [skipPort_advancePc, skipPort_advancePc]
  rfl

/-- An operation that no handler answers does the same to all but the bookkeeping. -/
theorem execute_withBooks [TrapHandler η] (o : Operation) (free : m.answering? o = none) :
    (m.withBooks books).advancePc.execute o =
      (m.advancePc.execute o).withBooks (books.note m.regs.pc o) := by
  cases o with
  | mov target source =>
    exact (congrArg _ (reg_withBooks m.advancePc books source)).trans
      (setReg_withBooks m.advancePc books target _)
  | mvi target => exact setReg_withBooks (m.advancePc.fetchByte).2 books target _
  | accumulate op source =>
    exact congrArg ((m.withBooks books).advancePc.accumulate op)
      (reg_withBooks m.advancePc books source)
  | inr target => exact adjustReg_withBooks m.advancePc books target Arithmetic.inr
  | dcr target => exact adjustReg_withBooks m.advancePc books target Arithmetic.dcr
  | input => exact skipPort_withBooks m books 0xDB
  | output => exact skipPort_withBooks m books 0xD3
  | jump condition =>
    simp only [answering?, ite_eq_right_iff] at free
    simp only [execute, taken_advancePc, taken_withBooks]
    rw [jump_of_free m free, jump_of_free (m.withBooks books) free]
    rfl
  | call condition =>
    simp only [answering?, ite_eq_right_iff] at free
    simp only [execute, taken_advancePc, taken_withBooks]
    rw [call_of_free m free, call_of_free (m.withBooks books) free]
    cases m.taken condition <;> rfl
  | ret condition =>
    simp only [execute, taken_advancePc, taken_withBooks, ret]
    cases m.taken condition <;> rfl
  | _ => rfl

end Frame

end Core

/-- The bookkeeping after the next step of a machine, if it was `books` before. -/
def noteStep (m books : Machine Service) : Machine Service :=
  (match m.answering? m.nextOperation with
  | some s => { books with console := books.console ++ s.printed m.regs m.mem }
  | none => books.note m.regs.pc m.nextOperation).book m.nextInstruction

/-- The list of kept reports after more are made: the first of them, as many as there is room
for. -/
def keepReports (kept made : Array Report) : Array Report :=
  made.foldl (fun kept r => if kept.size < maxReports then kept.push r else kept) kept

/-- The reports that the next step makes: what it leaves in an emptied list. -/
def reported (m : Machine Service) : Array Report := m.takeReports.2.next.reports

/-- What the host is told when it asks for a step. -/
def outcome (m : Machine Service) : Except MachineError Instruction := m.step.map Prod.fst

/-- Two machines whose next steps give the same result, print the same bytes and make the same
reports. -/
structure SameStep (m other : Machine Service) : Prop where
  outcome : other.outcome = m.outcome
  printed : other.printed = m.printed
  reported : other.reported = m.reported

/-- A run in which the host interferes before each step. -/
def attended (host : ℕ → Machine Service → Machine Service) (m : Machine Service) :
    ℕ → Machine Service
  | 0 => host 0 m
  | n + 1 => host (n + 1) (attended host m n).next

section Step

variable (m books : Machine Service)

theorem runHandler_withBooks (s : Service) (pc : UInt16) :
    ((m.withBooks books).setPc pc).runHandler s =
      ((m.setPc pc).runHandler s).withBooks
        { books with console := books.console ++ s.printed m.regs m.mem } := by
  rw [runHandler_service, runHandler_service]
  rfl

/-- A step does the same to all but the bookkeeping, and to that what `noteStep` says. -/
theorem next_withBooks (running : m.state = .running) :
    (m.withBooks books).next = m.next.withBooks (m.noteStep books) := by
  cases answer : m.answering? m.nextOperation with
  | some s =>
    have answerHere : (m.withBooks books).answering? (m.withBooks books).nextOperation = some s :=
      answer
    rw [noteStep, answer, next_answered m running answer,
      next_answered (m.withBooks books) running answerHere]
    exact congrArg (book · m.nextInstruction) (runHandler_withBooks m books s (m.regs.pc + 3))
  | none =>
    rw [noteStep, answer, next_of_running m running, next_of_running (m.withBooks books) running]
    exact congrArg (book · m.nextInstruction) (execute_withBooks m books m.nextOperation answer)

theorem printed_eq_noteStep (running : m.state = .running) :
    m.printed = (m.noteStep m.drained).console := by
  have whole : m.drained = m.withBooks m.drained := rfl
  rw [printed, whole, next_withBooks m _ running]
  rfl

theorem reported_eq_noteStep (running : m.state = .running) :
    m.reported = (m.noteStep m.takeReports.2).reports := by
  have whole : m.takeReports.2 = m.withBooks m.takeReports.2 := rfl
  rw [reported, whole, next_withBooks m _ running]
  rfl

theorem noteStep_console (running : m.state = .running) :
    (m.noteStep books).console = books.console ++ m.printed := by
  rw [printed_eq_noteStep m running, noteStep, noteStep]
  cases m.answering? m.nextOperation with
  | some s => exact congrArg (books.console ++ ·) Array.empty_append.symm
  | none => cases m.nextOperation <;> exact Array.append_empty.symm

theorem noteStep_reports (running : m.state = .running) :
    (m.noteStep books).reports = keepReports books.reports m.reported ∧
      (m.noteStep books).reportCount = books.reportCount + UInt64.ofNat m.reported.size := by
  rw [reported_eq_noteStep m running, noteStep, noteStep]
  cases m.answering? m.nextOperation with
  | some s => exact ⟨rfl, (UInt64.add_zero _).symm⟩
  | none =>
    cases m.nextOperation with
    | input | output => exact ⟨rfl, rfl⟩
    | _ => exact ⟨rfl, (UInt64.add_zero _).symm⟩

theorem outcome_of_running (running : m.state = .running) : m.outcome = .ok m.nextInstruction := by
  rw [outcome, step_of_running m running]
  rfl

section Rest

variable (rest : m.state ≠ .running)

include rest

theorem outcome_of_not_running : m.outcome = .error (.notRunning m.state) := by
  rw [outcome, step_of_not_running m rest]
  rfl

theorem printed_of_not_running : m.printed = #[] := by
  rw [printed, next_of_not_running m.drained rest]
  rfl

theorem reported_of_not_running : m.reported = #[] := by
  rw [reported, next_of_not_running m.takeReports.2 rest]
  rfl

end Rest

/-- A step keeps of the reports that it makes those that there is room for, and counts them all. -/
theorem next_reports :
    m.next.reports = keepReports m.reports m.reported ∧
      m.next.reportCount = m.reportCount + UInt64.ofNat m.reported.size := by
  by_cases running : m.state = .running
  · have whole : m.next = m.next.withBooks (m.noteStep m) := next_withBooks m m running
    rw [whole]
    exact noteStep_reports m m running
  · rw [next_of_not_running m running, reported_of_not_running m running]
    exact ⟨rfl, (UInt64.add_zero _).symm⟩

end Step

section Alike

variable {m other : Machine Service}

/-- A step reads nothing of the books. -/
theorem next_alike (alike : Alike m other) : Alike m.next other.next := by
  by_cases running : m.state = .running
  · rw [alike.eq_withBooks, next_withBooks m other running]
    exact alike_withBooks m.next (m.noteStep other)
  · have rest : other.state ≠ .running := by
      rw [alike.state]
      exact running
    rw [next_of_not_running m running, next_of_not_running other rest]
    exact alike

theorem sameStep (alike : Alike m other) : SameStep m other := by
  by_cases running : m.state = .running
  · have runningHere : other.state = .running := alike.state.trans running
    have same (books : Machine Service) : other.noteStep books = m.noteStep books := by
      rw [alike.eq_withBooks]
      rfl
    refine ⟨?_, ?_, ?_⟩
    · rw [outcome_of_running m running, outcome_of_running other runningHere, nextInstruction,
        alike.regs, alike.mem]
      rfl
    · rw [printed_eq_noteStep other runningHere, same, noteStep_console m _ running]
      exact Array.empty_append
    · -- Both start from an empty list, so both keep the same of what `m` reports.
      calc other.reported
          = (m.noteStep other.takeReports.2).reports := by
            rw [reported_eq_noteStep other runningHere, same]
        _ = keepReports #[] m.reported := (noteStep_reports m _ running).1
        _ = (m.noteStep m.takeReports.2).reports := (noteStep_reports m m.takeReports.2 running).1.symm
        _ = m.reported := (reported_eq_noteStep m running).symm
  · have rest : other.state ≠ .running := by
      rw [alike.state]
      exact running
    refine ⟨?_, ?_, ?_⟩
    · rw [outcome_of_not_running m running, outcome_of_not_running other rest, alike.state]
    · rw [printed_of_not_running m running, printed_of_not_running other rest]
    · rw [reported_of_not_running m running, reported_of_not_running other rest]

/-- So machines that agree go on agreeing. -/
theorem after_of_alike (alike : Alike m other) (n : Nat) : Alike (m.after n) (other.after n) := by
  induction n with
  | zero => exact alike
  | succ n ih =>
    rw [after_succ_eq_next, after_succ_eq_next]
    exact next_alike ih

/-- Even if a host interferes with one of them before each step, as long as it touches nothing but
the books. -/
theorem attended_of_alike (alike : Alike m other) {host : ℕ → Machine Service → Machine Service}
    (harmless : ∀ i m, Alike m (host i m)) (n : Nat) : Alike (m.after n) (attended host other n) := by
  induction n with
  | zero => exact alike.trans (harmless 0 other)
  | succ n ih =>
    rw [after_succ_eq_next]
    exact (next_alike ih).trans (harmless (n + 1) _)

/-- Machines that agree on all but the bookkeeping go on agreeing, with the same result, output and
reports at every step, also if a host changes the bookkeeping of one of them between the steps.
What a step prints and reports is what it adds to the console and to the reports. Taking either is
such a change, and so is all that the interrupt instructions do beyond a no-operation. -/
theorem after_alike (alike : Alike m other) :
    (∀ n, Alike (m.after n) (other.after n) ∧ SameStep (m.after n) (other.after n)) ∧
    (∀ host : ℕ → Machine Service → Machine Service, (∀ i m, Alike m (host i m)) →
      ∀ n, Alike (m.after n) (attended host other n) ∧
        SameStep (m.after n) (attended host other n)) ∧
    ∀ m : Machine Service,
      m.next.console = m.console ++ m.printed ∧
      m.next.reports = keepReports m.reports m.reported ∧
      m.next.reportCount = m.reportCount + UInt64.ofNat m.reported.size ∧
      Alike m m.takeConsole.2 ∧ Alike m m.takeReports.2 ∧
      Alike (m.execute .nop) (m.execute .ei) ∧ Alike (m.execute .nop) (m.execute .di) := by
  refine ⟨fun n => ?_, fun host harmless n => ?_, fun m => ?_⟩
  · have ahead := after_of_alike alike n
    exact ⟨ahead, sameStep ahead⟩
  · have ahead := attended_of_alike alike harmless n
    exact ⟨ahead, sameStep ahead⟩
  · obtain ⟨kept, counted⟩ := next_reports m
    exact ⟨next_console m, kept, counted, ⟨rfl, rfl, rfl, rfl⟩, ⟨rfl, rfl, rfl, rfl⟩,
      ⟨rfl, rfl, rfl, rfl⟩, ⟨rfl, rfl, rfl, rfl⟩⟩

end Alike

/-- `MVI E,48`, `MVI C,2`, `CALL 0005`, `OUT 10`, `EI` and `HLT`. -/
def printsAndReports : Machine Service :=
  { withTraps Service.traps with
    mem := Memory.zero.writeBytes 0 [0x1E, 0x48, 0x0E, 0x02, 0xCD, 0x05, 0x00, 0xD3, 0x10, 0xFB, 0x76] }

/-- The same with another past: interrupts enabled, output pending and the list of reports full. -/
def printsAndReportsLater : Machine Service :=
  { printsAndReports with
    interruptsEnabled := true
    steps := 1000
    loadedEnd := some 3
    console := #[0x3F]
    reports := Array.replicate maxReports ⟨0x2000, 0xDB⟩
    reportCount := 100
    lastInstruction := some ⟨0x2000, 0xDB, .byte 0⟩ }

/-- Both print the same byte in the third step, report the same port in the fourth though one of
them has no room for it, and refuse the seventh; so does the second when its output is taken. -/
theorem after_printsAndReports :
    let m := printsAndReports
    let other := printsAndReportsLater
    let taking : ℕ → Machine Service → Machine Service := fun _ m => m.takeConsole.2
    Alike m other ∧ (∀ i m, Alike m (taking i m)) ∧
      (other.after 2).printed = #[0x48] ∧ (other.after 3).reported = #[⟨0x0007, 0xD3⟩] ∧
      (other.after 3).next.reportCount = 101 ∧
      (other.after 6).outcome = .error (.notRunning .halted) ∧
      (attended taking other 2).printed = #[0x48] ∧
      (attended taking other 6).regs = (m.after 6).regs := by
  intro m other taking
  have alike : Alike m other := ⟨rfl, rfl, rfl, rfl⟩
  have harmless : ∀ i m, Alike m (taking i m) := fun _ _ => ⟨rfl, rfl, rfl, rfl⟩
  obtain ⟨ahead, hosted, -⟩ := after_alike alike
  have prints : (m.after 2).printed = #[0x48] := by decide +kernel
  have reports : (m.after 3).reported = #[⟨0x0007, 0xD3⟩] := by decide +kernel
  have halted : (m.after 6).state = .halted := by decide +kernel
  refine ⟨alike, harmless, ?_, ?_, ?_, ?_, ?_, ?_⟩
  · rw [(ahead 2).2.printed, prints]
  · rw [(ahead 3).2.reported, reports]
  · decide +kernel
  · rw [(ahead 6).2.outcome, outcome_of_not_running _ (by rw [halted]; decide), halted]
  · rw [(hosted taking harmless 2).2.printed, prints]
  · exact (hosted taking harmless 6).1.regs

end Intel8080.Machine
