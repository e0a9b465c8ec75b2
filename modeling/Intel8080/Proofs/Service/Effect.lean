import Intel8080.Proofs.Machine.Course
import Intel8080.Proofs.Memory

/-!
# What the services do

A service appends to the console and says whether the run goes on; it leaves everything else of
the machine as it is (`run_eq`). Both are a matter of registers and memory alone, so output that
is already pending only stays in front (`next_withPending`).
-/
namespace Intel8080

namespace Service

/-- The bytes that a service prints. -/
def printed (s : Service) (regs : Registers) (mem : Memory) : Array UInt8 :=
  match s with
  | .warmBoot => #[]
  | .bdos =>
    if regs.c == consoleOutput then #[regs.e]
    else if regs.c == printString then (appendString mem regs.de memorySize #[]).1
    else #[]

def action : Service → TrapAction
  | .warmBoot => .stop
  | .bdos => .resume

/-- A string is appended to what is there. -/
theorem appendString_eq (mem : Memory) (address : UInt16) (count : Nat) (out : Array UInt8) :
    (appendString mem address count out).1 = out ++ (appendString mem address count #[]).1 := by
  induction count generalizing address out with
  | zero => exact (Array.append_empty).symm
  | succ count ih =>
    simp only [appendString]
    by_cases stop : (mem.read address == terminator) = true
    · rw [if_pos stop, if_pos stop]
      exact (Array.append_empty).symm
    · rw [if_neg stop, if_neg stop, ih, ih _ (#[].push _), ← Array.append_assoc]
      rfl

/-- A terminator is met exactly if one of the bytes looked at is one. -/
theorem appendString_met_iff (mem : Memory) (address : UInt16) (count : Nat) (out : Array UInt8) :
    (appendString mem address count out).2 = true ↔
      ∃ i < count, mem.read (address + UInt16.ofNat i) = terminator := by
  induction count generalizing address out with
  | zero => simp [appendString]
  | succ count ih =>
    have later (i : Nat) := add_ofNat_succ address i
    simp only [appendString, beq_iff_eq]
    by_cases now : mem.read address = terminator
    · rw [if_pos now]
      exact ⟨fun _ => ⟨0, Nat.succ_pos count, (add_ofNat_zero address).symm ▸ now⟩, fun _ => rfl⟩
    · rw [if_neg now, ih]
      constructor
      · rintro ⟨i, below, met⟩
        exact ⟨i + 1, Nat.succ_lt_succ below, (later i).symm ▸ met⟩
      · rintro ⟨i, below, met⟩
        cases i with
        | zero => exact absurd (add_ofNat_zero address ▸ met) now
        | succ i => exact ⟨i, Nat.lt_of_succ_lt_succ below, later i ▸ met⟩

/-- A string has an end wherever it starts, unless there is no terminator in all of memory. -/
theorem isTerminated_eq_false_iff (mem : Memory) (start : UInt16) :
    isTerminated mem start = false ↔ ∀ address, mem.read address ≠ terminator := by
  rw [isTerminated, ← Bool.not_eq_true, appendString_met_iff]
  constructor
  · intro never address met
    exact never ⟨(address - start).toNat, (address - start).toNat_lt,
      (add_ofNat_sub start address).symm ▸ met⟩
  · rintro none ⟨i, -, met⟩
    exact none _ met

/-- A service prints and does nothing else to its machine. -/
theorem run_eq {η : Type} (s : Service) (m : Machine η) :
    s.run m = ({ m with console := m.console ++ s.printed m.regs m.mem }, s.action) := by
  cases s with
  | warmBoot =>
    rw [printed, Array.append_empty]
    rfl
  | bdos =>
    simp only [run, printed]
    by_cases byte : (m.regs.c == consoleOutput) = true
    · rw [if_pos byte, if_pos byte]
      rfl
    · rw [if_neg byte, if_neg byte]
      by_cases string : (m.regs.c == printString) = true
      · rw [if_pos string, if_pos string, ← appendString_eq]
        rfl
      · rw [if_neg string, if_neg string, Array.append_empty]
        rfl

theorem keepsSteps : Machine.KeepsSteps Service := by
  intro s m
  change (s.run m).1.steps = m.steps
  rw [run_eq]

end Service

namespace Machine

/-- A machine with output pending in front of its own. -/
def withPending (m : Machine Service) (pending : Array UInt8) : Machine Service :=
  { m with console := pending ++ m.console }

/-- A service in answer to a transfer prints and may stop the run. -/
theorem runHandler_service (m : Machine Service) (s : Service) :
    m.runHandler s =
      { m with
        console := m.console ++ s.printed m.regs m.mem
        state := if s.action = .stop then .stopped else m.state } := by
  have ran : TrapHandler.run s m = s.run m := rfl
  rw [runHandler_eq, ran, Service.run_eq]

theorem runHandler_withPending (m : Machine Service) (pending : Array UInt8) (s : Service) :
    (m.withPending pending).runHandler s = (m.runHandler s).withPending pending := by
  rw [runHandler_service, runHandler_service]
  simp only [withPending, Array.append_assoc]

/-- Output that is pending stays in front and changes nothing else. -/
theorem next_withPending (m : Machine Service) (pending : Array UInt8) :
    (m.withPending pending).next = m.next.withPending pending := by
  by_cases running : m.state = .running
  · cases answer : m.answering? m.nextOperation with
    | some s =>
      have answerHere : (m.withPending pending).answering? (m.withPending pending).nextOperation =
          some s := answer
      rw [next_answered m running answer, next_answered (m.withPending pending) running answerHere]
      exact congrArg (book · m.nextInstruction) (runHandler_withPending (m.setPc _) pending s)
    | none =>
      have answerHere : (m.withPending pending).answering? (m.withPending pending).nextOperation =
          none := answer
      have exchanged := execute_withHost inferInstance inferInstance m (m.withPending pending)
        m.nextOperation answer answerHere
      rw [next_of_running (m.withPending pending) running, next_free m running answer]
      exact congrArg (book · m.nextInstruction) exchanged
  · rw [next_of_not_running m running, next_of_not_running (m.withPending pending) running]

/-- A machine whose output was taken. -/
def drained (m : Machine Service) : Machine Service := m.takeConsole.2

theorem drained_of_empty (m : Machine Service) (empty : m.console = #[]) : m.drained = m := by
  rw [drained, takeConsole, ← empty]

/-- The bytes that the next step prints. -/
def printed (m : Machine Service) : Array UInt8 := m.drained.next.console

theorem eq_withPending_drained (m : Machine Service) : m = m.drained.withPending m.console := by
  rw [withPending, drained, takeConsole, Array.append_empty]

/-- A step is that of the drained machine with the pending output in front. -/
theorem next_eq_withPending (m : Machine Service) :
    m.next = m.drained.next.withPending m.console := by
  rw [← next_withPending, ← eq_withPending_drained]

/-- A step puts what it prints behind the output. -/
theorem next_console (m : Machine Service) : m.next.console = m.console ++ m.printed := by
  rw [next_eq_withPending]
  rfl

/-- Taking the output early makes no difference to what is left when it is taken again. -/
theorem drained_next (m : Machine Service) : m.next.drained = m.drained.next.drained := by
  rw [next_eq_withPending]
  rfl

end Machine

end Intel8080
