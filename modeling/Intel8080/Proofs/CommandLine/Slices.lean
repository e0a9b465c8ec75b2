import Intel8080.CommandLine.Session
import Intel8080.Proofs.Machine.RunLength

/-!
# A sliced run is one run

The command line cuts a run into slices and takes the output after each. The slices end by
themselves, they stop where a single run with the same limit stops, and their outputs in order are
the output of that run (`runSession_eq_runLimited`). Where a slice ends does not matter, because
output that is taken early would only have stayed in front (`Machine.advance_withPending`), and
limits in a row add up (`Machine.advance_add`). The same holds of the log: it is what the steps of
the single run have to say, as far as the filter lets it pass (`runSession_eq_runOutput`).
-/
namespace Intel8080

namespace Machine

/-- Pending output makes no difference to a run, which puts its own behind it. -/
theorem advance_withPending (m : Machine Service) (pending : Array UInt8) (limit : Nat) :
    (m.withPending pending).advance limit = (m.advance limit).withPending pending := by
  induction limit generalizing m with
  | zero => rfl
  | succ limit ih =>
    cases go : m.goesOn with
    | false =>
      have goHere : (m.withPending pending).goesOn = false := go
      rw [advance_of_ended m go, advance_of_ended _ goHere]
    | true =>
      have goHere : (m.withPending pending).goesOn = true := go
      rw [advance_succ m go, advance_succ _ goHere, next_withPending, ih]

/-- Going on from a machine is going on from the drained one, with the output in front. -/
theorem advance_eq_withPending (m : Machine Service) (limit : Nat) :
    m.advance limit = (m.drained.advance limit).withPending m.console := by
  rw [← advance_withPending, ← eq_withPending_drained]

/-- What the steps of a run within a limit have to say. -/
def eventsWithin (m : Machine Service) : Nat → List Event
  | 0 => []
  | limit + 1 => if m.goesOn then m.stepEvents ++ m.next.eventsWithin limit else []

section Events

variable (m : Machine Service)

theorem eventsWithin_of_ended (ended : m.goesOn = false) (limit : Nat) :
    m.eventsWithin limit = [] := by
  cases limit with
  | zero => rfl
  | succ limit => rw [eventsWithin, ended]; rfl

theorem eventsWithin_succ (go : m.goesOn = true) (limit : Nat) :
    m.eventsWithin (limit + 1) = m.stepEvents ++ m.next.eventsWithin limit := by
  rw [eventsWithin, if_pos go]

/-- The events of a run are those of its steps in order. -/
theorem eventsWithin_eq_flatMap (limit : Nat) :
    m.eventsWithin limit =
      (List.range (m.stepsWithin limit)).flatMap fun i => (m.after i).stepEvents := by
  induction limit generalizing m with
  | zero => rw [stepsWithin_zero]; rfl
  | succ limit ih =>
    cases go : m.goesOn with
    | false => rw [eventsWithin_of_ended m go, stepsWithin_of_ended m go]; rfl
    | true =>
      rw [eventsWithin_succ m go, stepsWithin_succ m go, List.range_succ_eq_map,
        List.flatMap_cons, List.flatMap_map, ih]
      rfl

/-- Limits in a row: the events of the second run follow those of the first. -/
theorem eventsWithin_add (first second : Nat) :
    m.eventsWithin (first + second) =
      m.eventsWithin first ++ (m.advance first).eventsWithin second := by
  induction first generalizing m with
  | zero => rw [Nat.zero_add]; rfl
  | succ first ih =>
    cases go : m.goesOn with
    | false =>
      rw [advance_of_ended m go, eventsWithin_of_ended m go, eventsWithin_of_ended m go,
        eventsWithin_of_ended m go]
      rfl
    | true =>
      rw [Nat.add_right_comm, eventsWithin_succ m go, eventsWithin_succ m go, advance_succ m go,
        ih, List.append_assoc]

/-- What is said does not depend on the console. -/
theorem eventsWithin_withPending (pending : Array UInt8) (limit : Nat) :
    (m.withPending pending).eventsWithin limit = m.eventsWithin limit := by
  induction limit generalizing m with
  | zero => rfl
  | succ limit ih =>
    cases go : m.goesOn with
    | false =>
      have goHere : (m.withPending pending).goesOn = false := go
      rw [eventsWithin_of_ended m go, eventsWithin_of_ended _ goHere]
    | true =>
      have goHere : (m.withPending pending).goesOn = true := go
      rw [eventsWithin_succ m go, eventsWithin_succ _ goHere, next_withPending, ih]
      rfl

/-- Taking the output makes no difference to what is logged. -/
theorem eventsWithin_drained (limit : Nat) : m.drained.eventsWithin limit = m.eventsWithin limit := by
  rw [← eventsWithin_withPending m.drained m.console, ← eq_withPending_drained]

end Events

end Machine

namespace CommandLine
open Machine

def runOutput (filter : LogFilter) (m : Machine Service) (limit : Nat) : Output :=
  ⟨((m.eventsWithin limit).filter filter.allows).toArray, (m.advance limit).console⟩

theorem append_append_list {α : Type} (log : Array α) (first second : List α) :
    log ++ first ++ second = log ++ (first ++ second) := by
  apply Array.toList_inj.1
  rw [Array.toList_appendList, Array.toList_appendList, Array.toList_appendList, List.append_assoc]

theorem empty_append_list {α : Type} (l : List α) : (#[] : Array α) ++ l = l.toArray := by
  apply Array.toList_inj.1
  rw [Array.toList_appendList]
  rfl

theorem Output.empty_append (output : Output) : Output.empty.append output = output := by
  rw [append, empty, Array.empty_append, Array.empty_append]

theorem Output.append_empty (output : Output) : output.append ⟨#[], #[]⟩ = output := by
  rw [append, Array.append_empty, Array.append_empty]

theorem Output.append_assoc (a b c : Output) : (a.append b).append c = a.append (b.append c) := by
  rw [append, append, append, append, Array.append_assoc, Array.append_assoc]

/-- Logging changes nothing about the run, and the log grows by what its steps have to say. -/
theorem advanceLogged_eq (filter : LogFilter) (limit : Nat) (log : Array Event)
    (m : Machine Service) :
    advanceLogged filter log m limit =
      .ok (log ++ (m.eventsWithin limit).filter filter.allows, m.advance limit) := by
  induction limit generalizing log m with
  | zero => rfl
  | succ limit ih =>
    rw [advanceLogged]
    cases go : m.goesOn with
    | false =>
      have stop : (m.isRunning && m.pcInProgram) = false := go
      rw [stop, advance_of_ended m go, eventsWithin_of_ended m go]
      rfl
    | true =>
      have on : (m.isRunning && m.pcInProgram) = true := go
      rw [on, advance_succ m go, eventsWithin_succ m go, List.filter_append,
        ← append_append_list, step_eq_next m ((goesOn_iff m).1 go).1]
      exact ih _ m.next

/-- A slice runs on for as many steps as are left, ten thousand at most, and takes the output. -/
theorem slice_eq (filter : LogFilter) (limit : UInt64) (m : Machine Service) :
    slice filter limit m =
      .ok (runOutput filter m (min (limit - m.steps).toNat sliceSteps),
        (m.advance (min (limit - m.steps).toNat sliceSteps)).drained) := by
  rw [slice, advanceLogged_eq, empty_append_list]
  rfl

theorem runOutput_of_ended (filter : LogFilter) {m : Machine Service} (ended : m.goesOn = false)
    (limit : Nat) : runOutput filter m limit = ⟨#[], m.console⟩ := by
  rw [runOutput, eventsWithin_of_ended m ended, advance_of_ended m ended]
  rfl

/-- What a run hands over is what it hands over up to some step and what it hands over from there
with the console emptied. -/
theorem runOutput_add (filter : LogFilter) (m : Machine Service) (first second : Nat) :
    runOutput filter m (first + second) =
      (runOutput filter m first).append (runOutput filter (m.advance first).drained second) := by
  rw [runOutput, runOutput, runOutput, Output.append, eventsWithin_add, eventsWithin_drained,
    List.filter_append, advance_add, advance_eq_withPending (m.advance first) second,
    List.append_toArray]
  rfl

/-- Another slice is due as long as a run within the limit would go on. -/
theorem sliceDue_iff (limit : UInt64) (m : Machine Service) :
    sliceDue limit m = true ↔ m.goesOn = true ∧ m.steps.toNat < limit.toNat := by
  rw [sliceDue, Bool.and_eq_true, decide_eq_true_iff, UInt64.lt_iff_toNat_lt]
  rfl

/-- When no slice is due, a run with the steps left would not take any. -/
theorem advance_of_not_due {limit : UInt64} {m : Machine Service} {left : Nat}
    (apart : m.steps.toNat + left = limit.toNat) (rest : sliceDue limit m = false) :
    m.advance left = m ∧ ∀ filter, runOutput filter m left = ⟨#[], m.console⟩ := by
  cases go : m.goesOn with
  | false => exact ⟨advance_of_ended m go left, fun filter => runOutput_of_ended filter go left⟩
  | true =>
    cases left with
    | zero => exact ⟨rfl, fun filter => rfl⟩
    | succ left =>
      have due := (sliceDue_iff limit m).2 ⟨go, by omega⟩
      rw [rest] at due
      cases due

/-- After a slice that was due the limit is nearer, and a run with the steps that were left before
goes on from there with those left now. -/
theorem advance_slice {limit : UInt64} {m : Machine Service} {left : Nat}
    (apart : m.steps.toNat + left = limit.toNat) (due : sliceDue limit m = true) :
    let sliced := m.advance (min left sliceSteps)
    ∃ still < left, sliced.steps.toNat + still = limit.toNat ∧
      m.advance left = sliced.advance still ∧
      ∀ filter, runOutput filter m left =
        (runOutput filter m (min left sliceSteps)).append (runOutput filter sliced.drained still) := by
  intro sliced
  obtain ⟨go, below⟩ := (sliceDue_iff limit m).1 due
  have bound := limit.toNat_lt
  have some_step : 1 ≤ min left sliceSteps := Nat.le_min.2 ⟨by omega, by decide⟩
  have taken := m.stepsWithin_le (min left sliceSteps)
  have steps : sliced.steps.toNat = m.steps.toNat + m.stepsWithin (min left sliceSteps) :=
    advance_steps_toNat m Service.keepsSteps (by omega)
  have progress : 1 ≤ m.stepsWithin (min left sliceSteps) := by
    rw [← Nat.sub_add_cancel some_step, stepsWithin_succ m go]
    exact Nat.le_add_left 1 _
  have whole : min left sliceSteps + (left - min left sliceSteps) = left :=
    Nat.add_sub_cancel' (Nat.min_le_left _ _)
  have split : m.advance left = sliced.advance (left - min left sliceSteps) := by
    rw [← advance_add, whole]
  have handed (filter : LogFilter) : runOutput filter m left =
      (runOutput filter m (min left sliceSteps)).append
        (runOutput filter sliced.drained (left - min left sliceSteps)) := by
    rw [← runOutput_add, whole]
  refine ⟨left - m.stepsWithin (min left sliceSteps), by omega, by omega, ?_⟩
  cases more : sliced.goesOn with
  | true =>
    rw [stepsWithin_of_goesOn m _ more]
    exact ⟨split, handed⟩
  | false =>
    have moreHere : sliced.drained.goesOn = false := more
    refine ⟨?_, fun filter => ?_⟩
    · rw [split, advance_of_ended sliced more, advance_of_ended sliced more]
    · rw [handed, runOutput_of_ended filter moreHere, runOutput_of_ended filter moreHere]

/-- When no slice is due, the slices end where they are, and so would a run. -/
theorem slices_of_not_due (filter : LogFilter) {limit : UInt64} {m : Machine Service} {left : Nat}
    (apart : m.steps.toNat + left = limit.toNat) (rest : sliceDue limit m = false)
    (empty : m.console = #[]) (output : Output) (count : Nat) :
    slices filter limit output m count =
        .ok (output.append (runOutput filter m left), (m.advance left).drained) ∧
      sliceDue limit (m.advance left).drained = false := by
  obtain ⟨stays, nothing⟩ := advance_of_not_due apart rest
  have ended : slices filter limit output m count = .ok (output, m) := by
    cases count with
    | zero => rfl
    | succ count =>
      rw [slices, rest]
      rfl
  rw [ended, stays, nothing, empty, Output.append_empty, drained_of_empty m empty]
  exact ⟨rfl, rest⟩

/-- Enough slices end by themselves where a run with the steps left ends, and hand over what that
run does. -/
theorem slices_eq_runOutput (filter : LogFilter) (limit : UInt64) (count : Nat) (output : Output)
    (m : Machine Service) (left : Nat) (apart : m.steps.toNat + left = limit.toNat)
    (enough : left ≤ count) (empty : m.console = #[]) :
    slices filter limit output m count =
        .ok (output.append (runOutput filter m left), (m.advance left).drained) ∧
      sliceDue limit (m.advance left).drained = false := by
  induction count generalizing output m left with
  | zero =>
    have rest : sliceDue limit m = false := by
      rw [← Bool.not_eq_true, sliceDue_iff]
      omega
    exact slices_of_not_due filter apart rest empty output 0
  | succ count ih =>
    cases due : sliceDue limit m with
    | false => exact slices_of_not_due filter apart due empty output (count + 1)
    | true =>
      obtain ⟨still, nearer, apartStill, onward, handed⟩ := advance_slice apart due
      have budget : (limit - m.steps).toNat = left := by
        rw [UInt64.toNat_sub_of_le _ _ (UInt64.le_iff_toNat_le.2 (by omega))]
        omega
      have sliced := slice_eq filter limit m
      obtain ⟨later, ended⟩ := ih (output.append (runOutput filter m (min left sliceSteps)))
        (m.advance (min left sliceSteps)).drained still apartStill (by omega) rfl
      rw [budget] at sliced
      rw [slices, due, sliced, onward, handed, ← Output.append_assoc,
        advance_eq_withPending (m.advance (min left sliceSteps)) still]
      exact ⟨later, ended⟩

/-- Enough slices print what a run with the steps left prints, whatever they log. -/
theorem slices_eq (filter : LogFilter) (limit : UInt64) (count : Nat) (output : Output)
    (m : Machine Service) (left : Nat) (apart : m.steps.toNat + left = limit.toNat)
    (enough : left ≤ count) (empty : m.console = #[]) :
    ∃ logged, slices filter limit output m count =
        .ok (⟨logged, output.console ++ (m.advance left).console⟩, (m.advance left).drained) ∧
      sliceDue limit (m.advance left).drained = false :=
  ⟨_, slices_eq_runOutput filter limit count output m left apart enough empty⟩

/-- A whole session of a fresh machine hands over what one run within the limit does, and ends
where that run ends. -/
theorem runSession_eq_runOutput (filter : LogFilter) (limit : UInt64) {start : Machine Service}
    (empty : start.console = #[]) (zero : start.steps = 0) :
    runSession filter limit start =
      .ok (runOutput filter start limit.toNat, (start.advance limit.toNat).drained) := by
  have apart : start.steps.toNat + limit.toNat = limit.toNat := by
    rw [zero]
    exact Nat.zero_add _
  have session := (slices_eq_runOutput filter limit limit.toNat .empty start _ apart
    (Nat.le_refl _) empty).1
  rw [runSession, zero, UInt64.sub_zero, session, Output.empty_append]

/-- The sliced run of a machine that a configuration builds is one run with the configured limit:
it ends with no further slice due, in the machine where the single run ends but for the output,
and what it has printed is exactly the output of the single run. -/
theorem runSession_eq_runLimited {config : RunConfig} {image : List UInt8}
    {start : Machine Service} (built : config.build image = .ok start) (filter : LogFilter) :
    ∃ count single output,
      start.runLimited (stepLimit config).toNat = some (.ok (count, single)) ∧
      runSession filter (stepLimit config) start = .ok (output, single.drained) ∧
      output.console = single.console ∧
      sliceDue (stepLimit config) single.drained = false := by
  obtain ⟨empty, zero⟩ := RunConfig.build_fresh built
  have apart : start.steps.toNat + (stepLimit config).toNat = (stepLimit config).toNat := by
    rw [zero]
    exact Nat.zero_add _
  have room : start.steps.toNat + (stepLimit config).toNat < 2 ^ 64 := by
    rw [apart]
    exact (stepLimit config).toNat_lt
  have single := runLimited_eq_advance Service.keepsSteps start _ room
  obtain ⟨logged, session, ended⟩ := slices_eq filter (stepLimit config)
    (stepLimit config).toNat .empty start _ apart (Nat.le_refl _) empty
  have count : (stepLimit config - start.steps).toNat = (stepLimit config).toNat := by
    rw [zero, UInt64.sub_zero]
  refine ⟨_, _, ⟨logged, _⟩, single, ?_, rfl, ended⟩
  rw [runSession, count, session, Output.empty, Array.empty_append]

/-- CP/M services at the bottom of memory, and five steps at most. -/
def fiveSteps : RunConfig := { RunConfig.default with cpm := true, maxSteps := some 5 }

/-- `MVI E,48`, `MVI C,2`, `CALL 0005` and `JMP 0000`, which ends the run. -/
def printsAndEnds : List UInt8 := [0x1E, 0x48, 0x0E, 0x02, 0xCD, 0x05, 0x00, 0xC3, 0x00, 0x00]

def printing : Machine Service :=
  { Machine.withTraps Service.traps with
    mem := Memory.zero.writeBytes 0 printsAndEnds
    loadedEnd := some 10 }

/-- The session prints one byte and ends with the program, one step before the limit. -/
theorem runSession_printing :
    fiveSteps.build printsAndEnds = .ok printing ∧
      ∃ output final, runSession .everything 5 printing = .ok (output, final) ∧
        output.console = #[0x48] ∧ final.state = .stopped ∧ final.steps = 4 ∧
        final.console = #[] := by
  have built : fiveSteps.build printsAndEnds = .ok printing := rfl
  obtain ⟨count, single, output, run, session, console, -⟩ :=
    runSession_eq_runLimited built .everything
  have limit : stepLimit fiveSteps = 5 := rfl
  have number : (5 : UInt64).toNat = 5 := rfl
  have five := runLimited_eq_advance Service.keepsSteps printing 5 (by decide)
  rw [limit] at run session
  rw [number, five] at run
  obtain ⟨-, rfl⟩ := Prod.mk.inj (Except.ok.inj (Option.some.inj run))
  have printed : (printing.advance 5).console = #[0x48] ∧
      (printing.advance 5).state = .stopped ∧ (printing.advance 5).steps = 4 := by
    decide +kernel
  generalize printing.advance 5 = final at run session console printed
  exact ⟨built, output, final.drained, session, console.trans printed.1, printed.2.1,
    printed.2.2, rfl⟩

end CommandLine

end Intel8080
