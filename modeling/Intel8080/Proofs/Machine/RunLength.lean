import Intel8080.Proofs.FirstTime
import Intel8080.Proofs.Service.Effect

/-!
# Runs are bounded iterations of the step

The length of a run is the number of steps before the machine is no longer running or the program
counter is outside the program, and infinite if that never happens. `run_eq_iterate` says that a
run stops after exactly that many steps, that a limited run stops after the smaller of its limit
and the length, and that neither is ever refused. The proof goes through `advance`, the machine
after at most so many steps of a run, which is shown equal to the loop over the step counter.
-/
namespace Intel8080.Machine

variable {η : Type}

theorem goesOn_iff (m : Machine η) :
    m.goesOn = true ↔ m.state = .running ∧ m.regs.pc.toUInt32 < m.programEnd := by
  rw [goesOn, Bool.and_eq_true, isRunning, beq_iff_eq, pcInProgram, decide_eq_true_iff]

/-- From no steps counted on, no limit makes the counter wrap. -/
theorem room_of_zero {m : Machine η} (zero : m.steps = 0) (limit : UInt64) :
    m.steps.toNat + limit.toNat < 2 ^ 64 := by
  rw [zero]
  exact (Nat.zero_add _).symm ▸ limit.toNat_lt

variable [TrapHandler η]

/-- How many steps a run takes before it ends by itself. -/
noncomputable def runLength (m : Machine η) : ℕ∞ :=
  open Classical in
  if ends : ∃ n, (m.after n).goesOn = false then (Nat.find ends : ℕ∞) else ⊤

/-- How many steps a run takes within a limit. -/
noncomputable def stepsWithin (m : Machine η) (limit : Nat) : Nat :=
  (min (limit : ℕ∞) m.runLength).toNat

/-- The machine after at most `limit` steps of a run. -/
def advance (m : Machine η) : Nat → Machine η
  | 0 => m
  | limit + 1 => if m.goesOn then m.next.advance limit else m

section Length

variable (m : Machine η)

theorem runLength_eq_firstTime :
    m.runLength = firstTime fun n => (m.after n).goesOn = false := by
  rw [runLength, firstTime]
  -- The two searches differ only in how each test is decided.
  congr!

/-- The length of a run, told by where it ends and that it does not end earlier. -/
theorem runLength_eq {length : ℕ} (ended : (m.after length).goesOn = false)
    (before : ∀ i < length, ¬ (m.after i).goesOn = false) : m.runLength = length := by
  rw [runLength_eq_firstTime]
  exact firstTime_eq ended before

theorem runLength_of_ended (ended : m.goesOn = false) : m.runLength = 0 := by
  rw [runLength_eq_firstTime]
  exact firstTime_of_zero ended

theorem runLength_of_goesOn (go : m.goesOn = true) : m.runLength = m.next.runLength + 1 := by
  have start : ¬ (m.after 0).goesOn = false := by
    rw [after_zero, go]
    exact Bool.noConfusion
  rw [runLength_eq_firstTime, runLength_eq_firstTime, firstTime_of_succ start]
  rfl

theorem stepsWithin_zero : m.stepsWithin 0 = 0 := by
  rw [stepsWithin, Nat.cast_zero, min_eq_left zero_le]
  rfl

theorem stepsWithin_of_ended (ended : m.goesOn = false) (limit : Nat) :
    m.stepsWithin limit = 0 := by
  rw [stepsWithin, runLength_of_ended m ended, min_eq_right zero_le]
  rfl

/-- One step of a run leaves one less of its limit. -/
theorem stepsWithin_succ (go : m.goesOn = true) (limit : Nat) :
    m.stepsWithin (limit + 1) = m.next.stepsWithin limit + 1 := by
  rw [stepsWithin, runLength_of_goesOn m go, toNat_min_succ]
  rfl

theorem stepsWithin_le (limit : Nat) : m.stepsWithin limit ≤ limit :=
  ENat.toNat_le_of_le_natCast (min_le_left _ _)

end Length

section Advance

variable (m : Machine η)

theorem advance_of_ended (ended : m.goesOn = false) (limit : Nat) : m.advance limit = m := by
  cases limit with
  | zero => rfl
  | succ limit => rw [advance, ended]; rfl

theorem advance_succ (go : m.goesOn = true) (limit : Nat) :
    m.advance (limit + 1) = m.next.advance limit := by
  rw [advance, if_pos go]

/-- A limited run is so many steps of the course. -/
theorem advance_eq_after (limit : Nat) : m.advance limit = m.after (m.stepsWithin limit) := by
  induction limit generalizing m with
  | zero => rw [stepsWithin_zero]; rfl
  | succ limit ih =>
    cases go : m.goesOn with
    | false => rw [advance_of_ended m go, stepsWithin_of_ended m go]; rfl
    | true => rw [advance_succ m go, stepsWithin_succ m go, after_succ, ih]

/-- Two limited runs in a row are one. -/
theorem advance_add (first second : Nat) :
    m.advance (first + second) = (m.advance first).advance second := by
  induction first generalizing m with
  | zero => rw [Nat.zero_add]; rfl
  | succ first ih =>
    cases go : m.goesOn with
    | false => rw [advance_of_ended m go, advance_of_ended m go, advance_of_ended m go]
    | true => rw [Nat.add_right_comm, advance_succ m go, advance_succ m go, ih]

theorem advance_steps (keeps : KeepsSteps η) (limit : Nat) :
    (m.advance limit).steps = m.steps + UInt64.ofNat (m.stepsWithin limit) := by
  induction limit generalizing m with
  | zero => rw [stepsWithin_zero]; exact (UInt64.add_zero _).symm
  | succ limit ih =>
    cases go : m.goesOn with
    | false =>
      rw [advance_of_ended m go, stepsWithin_of_ended m go]
      exact (UInt64.add_zero _).symm
    | true =>
      rw [advance_succ m go, stepsWithin_succ m go, ih,
        next_steps keeps m ((goesOn_iff m).1 go).1, UInt64.ofNat_add, UInt64.add_assoc,
        UInt64.add_comm 1]
      rfl

/-- Without wrapping, the step counter grows by the steps taken. -/
theorem advance_steps_toNat (keeps : KeepsSteps η) {limit : Nat}
    (room : m.steps.toNat + limit < 2 ^ 64) :
    (m.advance limit).steps.toNat = m.steps.toNat + m.stepsWithin limit := by
  have taken := m.stepsWithin_le limit
  have small : m.stepsWithin limit < UInt64.size := by
    change _ < 2 ^ 64
    omega
  rw [advance_steps m keeps, UInt64.toNat_add, UInt64.toNat_ofNat_of_lt' small]
  exact Nat.mod_eq_of_lt (by omega)

/-- Limits in a row add up, and so do the steps taken within them. -/
theorem stepsWithin_add (first second : Nat) :
    m.stepsWithin (first + second) =
      m.stepsWithin first + (m.advance first).stepsWithin second := by
  induction first generalizing m with
  | zero => rw [Nat.zero_add, stepsWithin_zero, Nat.zero_add]; rfl
  | succ first ih =>
    cases go : m.goesOn with
    | false =>
      rw [advance_of_ended m go, stepsWithin_of_ended m go, stepsWithin_of_ended m go,
        stepsWithin_of_ended m go]
    | true =>
      rw [Nat.add_right_comm, stepsWithin_succ m go, stepsWithin_succ m go, advance_succ m go,
        ih, Nat.add_right_comm]

/-- A run that still goes on at its limit has taken every step of it. -/
theorem stepsWithin_of_goesOn (limit : Nat) (go : (m.advance limit).goesOn = true) :
    m.stepsWithin limit = limit := by
  induction limit generalizing m with
  | zero => exact stepsWithin_zero m
  | succ limit ih =>
    cases start : m.goesOn with
    | false =>
      rw [advance_of_ended m start, start] at go
      cases go
    | true =>
      rw [advance_succ m start] at go
      rw [stepsWithin_succ m start, ih m.next go]

/-- A run still goes on at its limit exactly if it is longer than that. -/
theorem goesOn_advance_iff (limit : Nat) :
    (m.advance limit).goesOn = true ↔ (limit : ℕ∞) < m.runLength := by
  induction limit generalizing m with
  | zero =>
    cases go : m.goesOn with
    | false => simp [advance, go, runLength_of_ended m go]
    | true => simp [advance, go, runLength_of_goesOn m go]
  | succ limit ih =>
    cases go : m.goesOn with
    | false => simp [advance_of_ended m go, go, runLength_of_ended m go]
    | true =>
      rw [advance_succ m go, ih, runLength_of_goesOn m go, Nat.cast_succ,
        ENat.add_lt_add_iff_right ENat.one_ne_top]

/-- A run takes every step of its limit exactly if it is not shorter. -/
theorem le_stepsWithin_iff (limit : Nat) :
    limit ≤ m.stepsWithin limit ↔ (limit : ℕ∞) ≤ m.runLength := by
  have finite : min (limit : ℕ∞) m.runLength ≠ ⊤ :=
    ne_top_of_le_ne_top (ENat.natCast_ne_top limit) (min_le_left _ _)
  rw [stepsWithin, ← Nat.cast_le (α := ℕ∞), ENat.natCast_toNat finite]
  exact le_min_iff.trans (and_iff_right (le_refl _))

theorem advance_of_le_runLength {limit : Nat} (enough : (limit : ℕ∞) ≤ m.runLength) :
    m.advance limit = m.after limit := by
  have whole := (le_stepsWithin_iff m limit).2 enough
  rw [advance_eq_after, Nat.le_antisymm (m.stepsWithin_le limit) whole]

theorem advance_of_runLength_le {limit : Nat} (enough : m.runLength ≤ limit) :
    m.advance limit = m.after m.runLength.toNat := by
  rw [advance_eq_after, stepsWithin, min_eq_right enough]

/-- A run within a limit goes on before each of its steps. -/
theorem goesOn_after_of_lt {limit i : Nat} (early : i < m.stepsWithin limit) :
    (m.after i).goesOn = true := by
  have before : (i : ℕ∞) < firstTime fun n => (m.after n).goesOn = false := by
    rw [← runLength_eq_firstTime]
    exact lt_of_lt_of_le (Nat.cast_lt.2 early) ((ENat.natCast_toNat_le_self _).trans (min_le_right _ _))
  rw [← Bool.not_eq_false]
  exact not_of_lt_firstTime before

end Advance

section Loop

/-- The loop ends at once if the step counter has reached the limit. -/
theorem stepWhile?_of_reached (limit : UInt64) (m : Machine η) (reached : ¬ m.steps < limit) :
    stepWhile? (some limit) m = some (.ok m) := by
  rw [stepWhile?, Option.all_some, decide_eq_false reached, Bool.and_false]
  rfl

/-- A run below its limit counts the next step and is one closer to the limit. -/
theorem closer_of_goesOn (keeps : KeepsSteps η) {limit : UInt64} {distance : Nat} {m : Machine η}
    (go : m.goesOn = true) (apart : m.steps.toNat + (distance + 1) = limit.toNat) :
    m.steps < limit ∧ m.next.steps.toNat + distance = limit.toNat := by
  have below : m.steps < limit := by
    rw [UInt64.lt_iff_toNat_lt]
    omega
  refine ⟨below, ?_⟩
  rw [next_steps_toNat keeps m ((goesOn_iff m).1 go).1 below]
  omega

/-- The loop below a limit that the step counter reaches in `distance` steps. -/
theorem stepWhile?_below (keeps : KeepsSteps η) (limit : UInt64) (distance : Nat) (m : Machine η)
    (apart : m.steps.toNat + distance = limit.toNat) :
    stepWhile? (some limit) m = some (.ok (m.advance distance)) := by
  induction distance generalizing m with
  | zero =>
    have reached : ¬ m.steps < limit := by
      rw [UInt64.lt_iff_toNat_lt]
      omega
    exact stepWhile?_of_reached limit m reached
  | succ distance ih =>
    cases go : m.goesOn with
    | false =>
      rw [stepWhile?, go, advance_of_ended m go]
      rfl
    | true =>
      obtain ⟨below, closer⟩ := closer_of_goesOn keeps go apart
      rw [stepWhile?, go, Option.all_some, decide_eq_true below,
        step_eq_next m ((goesOn_iff m).1 go).1, advance_succ m go]
      exact ih m.next closer

/-- The loop with a limit takes the steps that the step counter is below it. Where the limit wraps to
a number below the counter, it takes none. -/
theorem stepWhile?_limit (keeps : KeepsSteps η) (limit : UInt64) (m : Machine η) :
    stepWhile? (some limit) m = some (.ok (m.advance (limit.toNat - m.steps.toNat))) := by
  by_cases below : m.steps < limit
  · rw [UInt64.lt_iff_toNat_lt] at below
    exact stepWhile?_below keeps limit _ m (by omega)
  · have none : limit.toNat - m.steps.toNat = 0 := by
      rw [UInt64.lt_iff_toNat_lt] at below
      omega
    rw [stepWhile?_of_reached limit m below, none]
    rfl

/-- The loop without a limit ends where the run ends by itself. -/
theorem stepWhile?_of_runLength (length : Nat) (m : Machine η) (ends : m.runLength = length) :
    stepWhile? none m = some (.ok (m.after length)) ∧ (m.after length).goesOn = false := by
  induction length generalizing m with
  | zero =>
    have ended : m.goesOn = false := by
      cases go : m.goesOn with
      | false => rfl
      | true =>
        rw [runLength_of_goesOn m go] at ends
        exact absurd ends (by simp)
    rw [stepWhile?, after_zero, ended]
    exact ⟨rfl, rfl⟩
  | succ length ih =>
    cases go : m.goesOn with
    | false =>
      rw [runLength_of_ended m go] at ends
      exact absurd ends.symm (Nat.cast_ne_zero.2 (Nat.succ_ne_zero length))
    | true =>
      have nextEnds : m.next.runLength = length := by
        rw [runLength_of_goesOn m go, Nat.cast_succ] at ends
        exact WithTop.add_right_cancel ENat.one_ne_top ends
      rw [stepWhile?, go, step_eq_next m ((goesOn_iff m).1 go).1, after_succ]
      exact ih m.next nextEnds

/-- The loop only repeats steps. None is refused, as its guard asks for a running machine. -/
theorem stepWhile?_eq_after (limit : Option UInt64) (m : Machine η)
    (r : Except MachineError (Machine η)) (ended : stepWhile? limit m = some r) :
    ∃ n, r = .ok (m.after n) := by
  refine stepWhile?.partial_correctness limit (fun m r => ∃ n, r = .ok (m.after n)) ?_ m r ended
  intro loop ih m r result
  by_cases guard : (m.goesOn && limit.all (m.steps < ·)) = true
  · have running : m.state = .running := ((goesOn_iff m).1 (Bool.and_eq_true_iff.1 guard).1).1
    rw [if_pos guard, step_eq_next m running] at result
    obtain ⟨n, rfl⟩ := ih m.next r result
    exact ⟨n + 1, rfl⟩
  · rw [if_neg guard] at result
    exact ⟨0, (Option.some.inj result).symm⟩

/-- A loop without a limit that gives something back started a run that ends. -/
theorem runLength_ne_top {m : Machine η} {r : Except MachineError (Machine η)}
    (ended : stepWhile? none m = some r) : m.runLength ≠ ⊤ := by
  refine stepWhile?.partial_correctness none (fun m _ => m.runLength ≠ ⊤) ?_ m r ended
  intro loop ih m r result
  cases go : m.goesOn with
  | false =>
    rw [runLength_of_ended m go]
    exact ENat.zero_ne_top
  | true =>
    simp only [go, Option.all_none, Bool.and_true, if_true,
      step_eq_next m ((goesOn_iff m).1 go).1] at result
    rw [runLength_of_goesOn m go]
    exact WithTop.add_ne_top.2 ⟨ih m.next r result, ENat.one_ne_top⟩

end Loop

theorem runLimited_eq_advance (keeps : KeepsSteps η) (m : Machine η) (limit : Nat)
    (room : m.steps.toNat + limit < 2 ^ 64) :
    m.runLimited limit = some (.ok (UInt64.ofNat (m.stepsWithin limit), m.advance limit)) := by
  have small : limit < UInt64.size := Nat.lt_of_le_of_lt (Nat.le_add_left _ _) room
  have apart : m.steps.toNat + limit = (m.steps + UInt64.ofNat limit).toNat := by
    rw [UInt64.toNat_add, UInt64.toNat_ofNat_of_lt' small, Nat.mod_eq_of_lt room]
  rw [runLimited, stepWhile?_below keeps _ limit m apart, Option.map_some, map_counted,
    advance_steps m keeps, UInt64.add_comm, UInt64.add_sub_cancel]

theorem run_of_runLength (m : Machine η) {length : Nat} (ends : m.runLength = length) :
    m.run = some (.ok ((m.after length).steps - m.steps, m.after length)) := by
  rw [run, (stepWhile?_of_runLength length m ends).1]
  rfl

/-- A run without a limit gives nothing back exactly if it does not end. -/
theorem run_eq_none_iff (m : Machine η) : m.run = none ↔ m.runLength = ⊤ := by
  rw [run, Option.map_eq_none_iff]
  refine ⟨fun endless => ?_, fun endless => ?_⟩
  · by_contra finite
    have ends := (stepWhile?_of_runLength _ m (ENat.natCast_toNat finite).symm).1
    rw [endless] at ends
    cases ends
  · rw [Option.eq_none_iff_forall_ne_some]
    exact fun r ended => runLength_ne_top ended endless

/-- What a run gives back is the end of its loop, which no step refused. -/
theorem exists_final {m : Machine η} {limit : Option UInt64}
    {r : Except MachineError (UInt64 × Machine η)}
    (given : (m.stepWhile? limit).map (·.map m.counted) = some r) :
    ∃ final, m.stepWhile? limit = some (.ok final) ∧ r = .ok (m.counted final) := by
  obtain ⟨result, ended, rfl⟩ := Option.map_eq_some_iff.1 given
  obtain ⟨n, rfl⟩ := stepWhile?_eq_after limit m result ended
  exact ⟨m.after n, ended, rfl⟩

/-- No run is refused: it asks for no step once the machine is at rest. -/
theorem run_accepted (m : Machine η) (limit : Option UInt64) (e : MachineError) :
    (m.stepWhile? limit).map (·.map m.counted) ≠ some (.error e) := by
  intro refused
  obtain ⟨final, -, accepted⟩ := exists_final refused
  cases accepted

/-- Runs are bounded iterations of the step. Without wrapping the step counter, a limited run takes
the steps up to its limit or its end, whichever is first, and two limited runs in a row are one. A
run that ends takes exactly the steps to its end and then none; one that does not end never comes
back. No run is refused. -/
theorem run_eq_iterate (keeps : KeepsSteps η) (m : Machine η) :
    (∀ limit : Nat, m.steps.toNat + limit < 2 ^ 64 →
      m.runLimited limit =
        some (.ok (UInt64.ofNat (m.stepsWithin limit), m.after (m.stepsWithin limit))) ∧
      (m.after (m.stepsWithin limit)).steps.toNat = m.steps.toNat + m.stepsWithin limit) ∧
    (∀ first second : Nat, m.steps.toNat + (first + second) < 2 ^ 64 →
      ∃ count middle more final,
        m.runLimited first = some (.ok (count, middle)) ∧
        middle.runLimited second = some (.ok (more, final)) ∧
        m.runLimited (first + second) = some (.ok (count + more, final))) ∧
    (∀ length : Nat, m.runLength = length →
      m.run = some (.ok (UInt64.ofNat length, m.after length)) ∧
      (m.after length).steps = m.steps + UInt64.ofNat length ∧
      (m.after length).run = some (.ok (0, m.after length))) ∧
    (m.runLength = ⊤ ↔ m.run = none) ∧
    ∀ e, m.run ≠ some (.error e) ∧ ∀ limit, m.runLimited limit ≠ some (.error e) := by
  refine ⟨fun limit room => ⟨?_, ?_⟩, fun first second room => ?_, fun length ends => ?_,
    (run_eq_none_iff m).symm, fun e => ⟨run_accepted m _ e, fun limit => run_accepted m _ e⟩⟩
  · rw [runLimited_eq_advance keeps m limit room, advance_eq_after]
  · rw [← advance_eq_after, advance_steps_toNat m keeps room]
  · have taken := m.stepsWithin_le first
    have middleSteps : (m.advance first).steps.toNat = m.steps.toNat + m.stepsWithin first :=
      advance_steps_toNat m keeps (by omega)
    refine ⟨_, _, _, _, runLimited_eq_advance keeps m first (by omega),
      runLimited_eq_advance keeps (m.advance first) second (by omega), ?_⟩
    rw [runLimited_eq_advance keeps m _ room, advance_add, stepsWithin_add, UInt64.ofNat_add]
  · have ended := (stepWhile?_of_runLength length m ends).2
    have rest : (m.after length).runLength = (0 : Nat) := runLength_of_ended _ ended
    have grown : (m.after length).steps = m.steps + UInt64.ofNat length := by
      have whole : m.stepsWithin length = length := by
        rw [stepsWithin, ends, min_self, ENat.toNat_natCast]
      rw [← whole, ← advance_eq_after, advance_steps m keeps, whole]
    refine ⟨?_, grown, ?_⟩
    · rw [run_of_runLength m ends, grown, UInt64.add_comm, UInt64.add_sub_cancel]
    · rw [run_of_runLength _ rest, after_zero, UInt64.sub_self]

/-- Two no-operations, and then the end of the program. -/
def twoIdle : Machine Service := { new with loadedEnd := some 2 }

theorem runLength_twoIdle : twoIdle.runLength = (2 : Nat) := by
  have first := next_of_empty twoIdle rfl rfl
  have second := next_of_empty twoIdle.next (by rw [first]; rfl) (by rw [first]; rfl)
  have ended : twoIdle.next.next.goesOn = false := by
    rw [second, first]
    rfl
  rw [runLength_of_goesOn twoIdle rfl, runLength_of_goesOn twoIdle.next (by rw [first]; rfl),
    runLength_of_ended _ ended]
  rfl

/-- Both no-operations are executed without a limit and with one to spare, and one of them with a
limit of one. -/
theorem run_twoIdle :
    KeepsSteps Service ∧ twoIdle.run = some (.ok (2, twoIdle.after 2)) ∧
      twoIdle.runLimited 5 = some (.ok (2, twoIdle.after 2)) ∧
      twoIdle.runLimited 1 = some (.ok (1, twoIdle.after 1)) := by
  obtain ⟨limited, -, ended, -⟩ := run_eq_iterate Service.keepsSteps twoIdle
  have whole : twoIdle.stepsWithin 5 = 2 := by
    rw [stepsWithin, runLength_twoIdle]
    rfl
  have half : twoIdle.stepsWithin 1 = 1 := by
    rw [stepsWithin, runLength_twoIdle]
    rfl
  refine ⟨Service.keepsSteps, (ended 2 runLength_twoIdle).1, ?_, ?_⟩
  · rw [(limited 5 (by decide)).1, whole]
    rfl
  · rw [(limited 1 (by decide)).1, half]
    rfl

end Intel8080.Machine
