import Intel8080.Proofs.Debugger.StartingOver
import Intel8080.Proofs.Listing.Sweep
import Mathlib.Data.List.Chain

/-!
# What the code view shows

Every step that is taken leaves the address that it was taken at on a trail, and a reset wipes the
trail out (`trail`); of a machine that nobody else changes it is the way from the start
(`trail_eq_firstAddresses`). Whatever is done to a debugger, it remembers the end of its trail
(`history_foldl`), and so the code view shows an end of it. From the program counter on the view
walks over memory by the sizes of the instructions there. They have at most three bytes, so a view
of few enough rows does not come back around to the program counter (`not_isCurrent_rowsFrom`), and
one row only is the current one (`codeView_wellFormed`).
-/
namespace Intel8080.Debugger

/-! ## The trail -/

/-- The address that a step executes, if it executes one. -/
def executedByStep (d : Debugger) : List UInt16 :=
  if d.machine.isRunning then [d.machine.regs.pc] else []

def executedByBatch (d : Debugger) : Nat → List UInt16
  | 0 => []
  | n + 1 =>
    if d.running then
      match d.stopReason? with
      | some _ => []
      | none => d.executedByStep ++ d.step.checkBreakpoint.executedByBatch n
    else []

/-- The addresses executed since the last reset after more deeds, oldest first, if they were
`before` at first. -/
def trail (before : List UInt16) (d : Debugger) : List Deed → List UInt16
  | [] => before
  | deed :: rest =>
    let after := match deed with
      | .act .step => before ++ d.executedByStep
      | .act .tick => before ++ d.executedByBatch stepsPerTick
      | .act .reset => []
      | _ => before
    trail after (d.undergo deed) rest

/-- The last addresses of a trail, as many as are kept. -/
def lastOf (trail : List UInt16) : List UInt16 := trail.drop (trail.length - historyLength)

theorem length_lastOf (trail : List UInt16) :
    (lastOf trail).length = min historyLength trail.length := by
  rw [lastOf, List.length_drop]
  omega

/-- One more address displaces the oldest one that is kept, if there is no place left. -/
theorem remember_lastOf (trail : List UInt16) (address : UInt16) :
    remember (lastOf trail) address = lastOf (trail ++ [address]) := by
  have kept := length_lastOf trail
  rw [remember]
  -- A trail that fills its place makes room at the front; a shorter one is kept whole.
  by_cases full : historyLength ≤ trail.length
  · have most : ((lastOf trail).length == historyLength) = true := by
      rw [kept, Nat.min_eq_left full]
      rfl
    have later : (trail ++ [address]).length - historyLength =
        trail.length - historyLength + 1 := by
      rw [List.length_append, List.length_singleton]
      omega
    have inside : trail.length - historyLength + 1 ≤ trail.length := by
      have : 0 < historyLength := by decide
      omega
    rw [if_pos most, lastOf, lastOf, later, List.drop_drop, List.drop_append_of_le_length inside]
  · have few : ¬ ((lastOf trail).length == historyLength) = true := by
      rw [kept, beq_iff_eq]
      omega
    have all : (trail ++ [address]).length - historyLength = 0 := by
      rw [List.length_append, List.length_singleton]
      omega
    have allBefore : trail.length - historyLength = 0 := by omega
    rw [if_neg few, lastOf, lastOf, all, allBefore, List.drop_zero, List.drop_zero]

section History

variable {d : Debugger} {before : List UInt16}

/-- The history stays the end of the trail over a step. -/
theorem history_step (remembers : d.history = lastOf before) :
    d.step.history = lastOf (before ++ d.executedByStep) := by
  rw [executedByStep]
  by_cases running : d.machine.state = .running
  · have go : d.machine.isRunning = true := beq_iff_eq.2 running
    rw [step_of_running d running, if_pos go, ← remember_lastOf, ← remembers]
    rfl
  · have refused : ¬ d.machine.isRunning = true := fun go => running (beq_iff_eq.1 go)
    rw [step_of_not_running d running, if_neg refused, List.append_nil]
    exact remembers

theorem history_checkBreakpoint (d : Debugger) : d.checkBreakpoint.history = d.history := by
  simp only [checkBreakpoint]
  split <;> rfl

/-- And so over a batch, by induction on its steps. -/
theorem history_batch (count : Nat) (remembers : d.history = lastOf before) :
    (d.batch count).history = lastOf (before ++ d.executedByBatch count) := by
  induction count generalizing d before with
  | zero =>
    rw [executedByBatch, List.append_nil]
    exact remembers
  | succ count ih =>
    rw [batch, executedByBatch]
    split
    · cases d.stopReason? with
      | some reason =>
        rw [List.append_nil]
        exact remembers
      | none =>
        dsimp only
        rw [← List.append_assoc]
        exact ih ((history_checkBreakpoint d.step).trans (history_step remembers))
    · rw [List.append_nil]
      exact remembers

/-- Whatever is done, the debugger remembers the end of its trail. -/
theorem history_foldl (deeds : List Deed) (remembers : d.history = lastOf before) :
    (deeds.foldl undergo d).history = lastOf (trail before d deeds) := by
  induction deeds generalizing d before with
  | nil => exact remembers
  | cons deed rest ih =>
    refine ih ?_
    cases deed with
    | edit change => exact remembers
    | quit => exact remembers
    | act action =>
      cases action with
      | step => exact history_step remembers
      | tick => exact history_batch stepsPerTick remembers
      | reset => rfl
      | run | addBreakpoint address | scrollUp => exact remembers
      | toggleBreakpoint =>
        simp only [undergo, perform, toggleBreakpoint]
        split <;> exact remembers
      | scrollDown =>
        simp only [undergo, perform, scrollDown]
        split <;> exact remembers

end History

section Undisturbed

variable {start : Machine Service} {n : Nat} {d : Debugger}

/-- The addresses that a machine executes in its first steps. -/
def firstAddresses (start : Machine Service) (n : Nat) : List UInt16 :=
  (List.range n).map fun i => (start.after i).regs.pc

/-- A debugger executes what the machine alone executes next. -/
theorem firstAddresses_step (follows : Follows start n d) :
    firstAddresses start (n + d.stepCount) = firstAddresses start n ++ d.executedByStep := by
  rw [stepCount, executedByStep]
  split
  · rw [firstAddresses, List.range_succ, List.map_append, follows.machine]
    rfl
  · rw [List.append_nil]
    rfl

theorem firstAddresses_batch (count : Nat) (follows : Follows start n d) :
    firstAddresses start (n + d.batchCount count) =
      firstAddresses start n ++ d.executedByBatch count := by
  induction count generalizing n d with
  | zero => exact (List.append_nil _).symm
  | succ count ih =>
    rw [batchCount, executedByBatch]
    split
    · cases d.stopReason? with
      | some reason => exact (List.append_nil _).symm
      | none =>
        dsimp only
        rw [← Nat.add_assoc, ih (follows_checkBreakpoint (follows_step follows)),
          firstAddresses_step follows, List.append_assoc]
    · exact (List.append_nil _).symm

/-- If nobody changes the machine, the trail is the way that the machine goes from its start. -/
theorem trail_eq_firstAddresses (actions : List Action) (follows : Follows start n d) :
    trail (firstAddresses start n) d (actions.map .act) =
      firstAddresses start (elapsed n d actions) := by
  induction actions generalizing n d with
  | nil => rfl
  | cons action rest ih =>
    have onward := ih (follows_foldl [action] follows)
    cases action with
    | step =>
      rw [List.map_cons, trail, ← firstAddresses_step follows]
      exact onward
    | tick =>
      rw [List.map_cons, trail, ← firstAddresses_batch stepsPerTick follows]
      exact onward
    | _ => exact onward

end Undisturbed

/-! ## The walk -/

section Walk

variable (d : Debugger)

def nextAddress (address : UInt16) : UInt16 :=
  address + UInt16.ofNat (Instruction.decode d.machine.mem address).size

theorem length_rowsFrom (address : UInt16) (rows : Nat) :
    (d.rowsFrom address rows).length = rows := by
  induction rows generalizing address with
  | zero => rfl
  | succ rows ih => rw [rowsFrom, List.length_cons, ih]

/-- Each row begins behind the instruction of the row before it. -/
theorem isChain_rowsFrom (address : UInt16) (rows : Nat) :
    (d.rowsFrom address rows).IsChain fun r s => s.address = d.nextAddress r.address := by
  induction rows generalizing address with
  | zero => exact .nil
  | succ rows ih =>
    rw [rowsFrom]
    cases rows with
    | zero => exact .singleton _
    | succ rows =>
      rw [rowsFrom]
      refine .cons_cons rfl ?_
      have behind := ih (d.nextAddress address)
      rw [rowsFrom] at behind
      exact behind

/-- The rows of a view hold the text of what stands in memory at their address. -/
theorem text_codeView {rows : Nat} {row : CodeRow} (shown : row ∈ d.codeView rows) :
    row.text = (Instruction.decode d.machine.mem row.address).text := by
  have walked (address : UInt16) (count : Nat) : ∀ row ∈ d.rowsFrom address count,
      row.text = (Instruction.decode d.machine.mem row.address).text := by
    induction count generalizing address with
    | zero => exact nofun
    | succ count ih =>
      intro row member
      rcases List.mem_cons.1 member with rfl | later
      · rfl
      · exact ih _ row later
  rcases List.mem_append.1 shown with executed | ahead
  · obtain ⟨address, -, rfl⟩ := List.mem_map.1 executed
    rfl
  · exact walked _ _ row ahead

/-- Rows that begin behind the program counter do not come back to it before memory is through.
The last of them begins at most three bytes further for each row before it. -/
theorem not_isCurrent_rowsFrom {offset rows : Nat} (positive : 0 < offset)
    (few : offset + 3 * rows ≤ 65538) :
    ∀ row ∈ d.rowsFrom (d.machine.regs.pc + UInt16.ofNat offset) rows, row.isCurrent = false := by
  induction rows generalizing offset with
  | zero => exact nofun
  | succ rows ih =>
    intro row member
    rw [rowsFrom, ← add_ofNat_add] at member
    rcases List.mem_cons.1 member with rfl | later
    · change (d.machine.regs.pc + UInt16.ofNat offset == d.machine.regs.pc) = false
      rw [beq_eq_false_iff_ne]
      exact add_ofNat_ne positive (by omega) d.machine.regs.pc
    · -- A row fewer is left, and the next one is at most three bytes further.
      have short := (Instruction.decode d.machine.mem
        (d.machine.regs.pc + UInt16.ofNat offset)).size_le
      exact ih (by omega) (by omega) row later

end Walk

/-! ## The view -/

section View

variable {d : Debugger} {executed : List UInt16} {rows : Nat}

/-- The addresses that are shown of a trail. -/
theorem shownHistory_eq (remembers : d.history = lastOf executed) :
    d.shownHistory rows =
      (executed.drop (executed.length - min d.history.length (rows / 3))).filter
        (· != d.machine.regs.pc) := by
  have kept : d.history.length = min historyLength executed.length := by
    rw [remembers, length_lastOf]
  have skipped : executed.length - historyLength +
      (d.history.length - min d.history.length (rows / 3)) =
        executed.length - min d.history.length (rows / 3) := by omega
  have shown : d.history.drop (d.history.length - min d.history.length (rows / 3)) =
      executed.drop (executed.length - min d.history.length (rows / 3)) := by
    rw [← skipped, ← List.drop_drop, ← lastOf, ← remembers]
  rw [shownHistory, shown]

/-- The history takes a third of the rows at most. -/
theorem length_shownHistory_le (d : Debugger) (rows : Nat) :
    (d.shownHistory rows).length ≤ rows / 3 := by
  refine (List.length_filter_le _ _).trans ?_
  rw [List.length_drop]
  omega

/-- There are as many rows as asked for, whatever the history holds. -/
theorem length_codeView (d : Debugger) (rows : Nat) : (d.codeView rows).length = rows := by
  have few := length_shownHistory_le d rows
  rw [codeView, List.length_append, length_rowsFrom, List.length_map]
  omega

end View

/-- Whatever was done to a debugger, a view of at least one row, and of so few that they do not
reach around memory, has just as many rows. One of them is the current one, and it is at the program
counter. Before it stand the last addresses executed since the last reset, as many as are kept and
fit into a third of the rows, without those at the program counter. From it on each row is at the
address behind the one before. Every row shows what stands in memory now. -/
theorem codeView_wellFormed {config : RunConfig} {image : List UInt8} {d : Debugger}
    (new : Debugger.new config image = .ok d) (deeds : List Deed) {rows : Nat} (given : 1 ≤ rows)
    (few : rows ≤ 21846) :
    let seen := deeds.foldl undergo d
    let pc := seen.machine.regs.pc
    let executed := trail [] d deeds
    let kept := min 8 executed.length
    let behind := min kept (rows / 3)
    (seen.codeView rows).length = rows ∧
    (∃ before current after, seen.codeView rows = before ++ current :: after ∧
      current.isCurrent = true ∧ current.address = pc ∧
      (∀ row ∈ before ++ after, row.isCurrent = false) ∧
      before.map CodeRow.address = (executed.drop (executed.length - behind)).filter (· != pc) ∧
      (current :: after).IsChain fun r s => s.address =
        r.address + UInt16.ofNat (Instruction.decode seen.machine.mem r.address).size) ∧
    ∀ row ∈ seen.codeView rows,
      row.text = (Instruction.decode seen.machine.mem row.address).text := by
  intro seen pc executed kept behind
  have fresh : d.history = lastOf [] := by
    rw [Debugger.new] at new
    split at new
    · cases new
    · cases new
      rfl
  have remembers : seen.history = lastOf executed := history_foldl deeds fresh
  have shown : seen.shownHistory rows =
      (executed.drop (executed.length - behind)).filter (· != pc) := by
    rw [shownHistory_eq remembers, remembers, length_lastOf]
    rfl
  have short := length_shownHistory_le seen rows
  obtain ⟨ahead, left⟩ : ∃ ahead, rows - (seen.shownHistory rows).length = ahead + 1 :=
    ⟨rows - (seen.shownHistory rows).length - 1, by omega⟩
  have walk := isChain_rowsFrom seen pc (ahead + 1)
  -- The row at the program counter is the current one; the others begin behind its instruction.
  have size := Instruction.size_pos (Instruction.decode seen.machine.mem pc)
  have most := Instruction.size_le (Instruction.decode seen.machine.mem pc)
  refine ⟨length_codeView seen rows, ⟨(seen.shownHistory rows).map fun a => seen.codeRow a false,
    seen.codeRow pc (pc == pc), seen.rowsFrom (seen.nextAddress pc) ahead, ?_, ?_, rfl, ?_, ?_,
    walk⟩, fun row => text_codeView seen⟩
  · rw [codeView, List.length_map, left]
    rfl
  · exact beq_self_eq_true pc
  · intro row shown
    rcases List.mem_append.1 shown with past | coming
    · obtain ⟨address, -, rfl⟩ := List.mem_map.1 past
      rfl
    · exact not_isCurrent_rowsFrom seen size (by omega) row coming
  · rw [List.map_map, shown]
    exact List.map_id _

/-- Two times `NOP`, and a jump back to the second one. -/
def loop : List UInt8 := [0x00, 0x00, 0xC3, 0x01, 0x00]

def fourSteps : List Deed := List.replicate 4 (.act .step)

/-- After four steps of a loop the jump is next. It was executed before, but the view shows it as
the current row only, behind the two times that the other instruction was executed. -/
theorem codeView_loop :
    Debugger.new servedAtZero loop = .ok (watching loop) ∧
      trail [] (watching loop) fourSteps = [0, 1, 2, 1] ∧
      let view := (fourSteps.foldl undergo (watching loop)).codeView 9
      view.length = 9 ∧ ∃ before current after, view = before ++ current :: after ∧
        before.map CodeRow.address = [1, 1] ∧ current.address = 2 ∧ current.text = "JMP $0001" ∧
        current.isCurrent = true ∧ ∀ row ∈ before ++ after, row.isCurrent = false := by
  have new : Debugger.new servedAtZero loop = .ok (watching loop) := rfl
  have executed : trail [] (watching loop) fourSteps = [0, 1, 2, 1] := by decide +kernel
  have next : (fourSteps.foldl undergo (watching loop)).machine.regs.pc = 2 := by decide +kernel
  have text : (Instruction.decode (fourSteps.foldl undergo (watching loop)).machine.mem 2).text =
      "JMP $0001" := by
    decide +kernel
  obtain ⟨whole, ⟨before, current, after, parts, mark, place, unmarked, past, -⟩, texts⟩ :=
    codeView_wellFormed new fourSteps (show 1 ≤ 9 by decide) (show 9 ≤ 21846 by decide)
  rw [executed, next] at past
  have shown := texts current (parts ▸ List.mem_append_right _ List.mem_cons_self)
  rw [place, next, text] at shown
  exact ⟨new, executed, whole, before, current, after, parts, past, place.trans next, shown, mark,
    unmarked⟩

end Intel8080.Debugger
