import Intel8080.Proofs.Machine.Step
import Intel8080.Proofs.Memory
import Mathlib.Data.List.Induction
import Mathlib.Data.List.Infix
import Mathlib.Data.Option.Basic

/-!
# The stack in memory is a stack

Pushes and pops of words give back what a list with the top in front gives back, as long as no more
words are popped than were pushed and no more are stacked than memory holds
(`onMachine_refines_onList`). What carries the proof is that the stacked words stand in memory from
the stack pointer up, byte by byte (`HoldsStack`). A push adds two bytes at the low end and a pop
takes two off, so each is two steps of a byte.
-/
namespace Intel8080

/-- What can be done with a stack of words. -/
inductive StackAction where
  | push (w : UInt16)
  | pop
  deriving DecidableEq, Repr

namespace StackAction

def change : StackAction → ℤ
  | .push _ => 1
  | .pop => -1

/-- How many words a stack has gained by some actions. -/
def level : List StackAction → ℤ
  | [] => 0
  | a :: actions => a.change + level actions

/-- The stack never falls below where it started and never has more words than memory holds. -/
def StaysWithin (actions : List StackAction) : Prop :=
  ∀ before, before <+: actions → 0 ≤ level before ∧ level before ≤ 32768

/-- An action on a list of words with the top in front. Words taken off are noted in their order; a
pop of the empty list takes nothing off. -/
def onList (s : List (Option UInt16) × List UInt16) :
    StackAction → List (Option UInt16) × List UInt16
  | .push w => (s.1, w :: s.2)
  | .pop => (s.1 ++ [s.2.head?], s.2.tail)

/-- The same action on the stack in memory. -/
def onMachine {η : Type} (s : List UInt16 × Machine η) : StackAction → List UInt16 × Machine η
  | .push w => (s.1, s.2.pushWord w)
  | .pop => (s.1 ++ [s.2.popWord.1], s.2.popWord.2)

theorem level_concat (actions : List StackAction) (a : StackAction) :
    level (actions ++ [a]) = level actions + a.change := by
  induction actions with
  | nil => exact Int.add_comm a.change 0
  | cons first actions ih =>
    rw [List.cons_append, level, level, ih, Int.add_assoc]

/-- Actions that stay within the stack do so on the way. -/
theorem StaysWithin.of_prefix {before actions : List StackAction} (within : StaysWithin actions)
    (begun : before <+: actions) : StaysWithin before :=
  fun first begins => within first (begins.trans begun)

end StackAction

namespace Machine
open StackAction

variable {η : Type} {start m : Machine η} {depth : ℕ}

/-- A machine with the stack pointer and the memory of another. -/
def withStack (m stack : Machine η) : Machine η :=
  { m with regs := { m.regs with sp := stack.regs.sp }, mem := stack.mem }

def wordBytes (w : UInt16) : List UInt8 := [lowByte w, highByte w]

/-- Since it was `start`, a machine has stacked the given bytes. Only its stack pointer and bytes at
most `depth` below the start have changed. -/
structure HoldsStack (start : Machine η) (depth : ℕ) (bytes : List UInt8) (m : Machine η) :
    Prop where
  sp : m.regs.sp = start.regs.sp - UInt16.ofNat bytes.length
  holds : m.mem.Holds m.regs.sp bytes
  changed : ∀ address, m.mem.read address ≠ start.mem.read address →
    ∃ i < depth, address = start.regs.sp - UInt16.ofNat (i + 1)
  rest : m = start.withStack m

theorem holdsStack_nil (start : Machine η) (depth : ℕ) : HoldsStack start depth [] start where
  sp := (sub_ofNat_zero _).symm
  holds := fun i inside => absurd inside (Nat.not_lt_zero i)
  changed := fun _ differs => absurd rfl differs
  rest := rfl

namespace HoldsStack

/-- A push puts its byte in front of those that are stacked. -/
theorem pushByte {bytes : List UInt8} (stacked : HoldsStack start depth bytes m) (b : UInt8)
    (deep : bytes.length < depth) (room : bytes.length < 65536) :
    HoldsStack start depth (b :: bytes) (m.pushByte b) where
  sp := by
    change m.regs.sp - 1 = _
    rw [List.length_cons, sub_ofNat_succ, ← stacked.sp]
  holds := stacked.holds.write_below b room
  changed := by
    intro address differs
    by_cases here : m.regs.sp - 1 = address
    · refine ⟨bytes.length, deep, ?_⟩
      rw [sub_ofNat_succ, ← stacked.sp, here]
    · have kept : (m.pushByte b).mem.read address = m.mem.read address :=
        Memory.read_write_of_ne _ here b
      rw [kept] at differs
      exact stacked.changed address differs
  rest := calc
    m.pushByte b = (start.withStack m).pushByte b := congrArg (·.pushByte b) stacked.rest
    _ = start.withStack (m.pushByte b) := rfl

/-- A pop takes the front byte off. -/
theorem popByte {b : UInt8} {bytes : List UInt8}
    (stacked : HoldsStack start depth (b :: bytes) m) :
    m.popByte.1 = b ∧ HoldsStack start depth bytes m.popByte.2 := by
  refine ⟨stacked.holds.head, ?_, stacked.holds.drop 1, stacked.changed, ?_⟩
  · change m.regs.sp + 1 = _
    rw [stacked.sp, List.length_cons, sub_ofNat_succ, UInt16.sub_add_cancel]
  · calc
      m.popByte.2 = (start.withStack m).popByte.2 := congrArg (·.popByte.2) stacked.rest
      _ = start.withStack m.popByte.2 := rfl

theorem pushWord {bytes : List UInt8} (stacked : HoldsStack start depth bytes m) (w : UInt16)
    (deep : bytes.length + 1 < depth) (room : bytes.length + 1 < 65536) :
    HoldsStack start depth (wordBytes w ++ bytes) (m.pushWord w) :=
  (stacked.pushByte (highByte w) (Nat.lt_of_succ_lt deep) (Nat.lt_of_succ_lt room)).pushByte
    (lowByte w) deep room

theorem popWord {w : UInt16} {bytes : List UInt8}
    (stacked : HoldsStack start depth (wordBytes w ++ bytes) m) :
    m.popWord.1 = w ∧ HoldsStack start depth bytes m.popWord.2 := by
  obtain ⟨low, behindLow⟩ := stacked.popByte
  obtain ⟨high, behindHigh⟩ := behindLow.popByte
  refine ⟨?_, behindHigh⟩
  calc m.popWord.1
      = wordOf m.popByte.2.popByte.1 m.popByte.1 := rfl
    _ = wordOf (highByte w) (lowByte w) := by rw [low, high]
    _ = w := wordOf_bytes w

end HoldsStack

theorem length_flatMap_wordBytes (words : List UInt16) :
    (words.flatMap wordBytes).length = 2 * words.length := by
  induction words with
  | nil => rfl
  | cons w words ih =>
    rw [List.flatMap_cons, List.length_append, ih, List.length_cons]
    change 2 + 2 * words.length = _
    omega

/-- After any actions within bounds the machine has stacked the words of the list, and has given
back the words that were taken off the list. -/
theorem holdsStack_foldl (start : Machine η) (deepest : ℕ) {actions : List StackAction}
    (within : StaysWithin actions)
    (bound : ∀ before, before <+: actions → level before ≤ deepest) :
    let list := actions.foldl onList ([], [])
    let machine := actions.foldl onMachine ([], start)
    machine.1.map some = list.1 ∧ (list.2.length : ℤ) = level actions ∧
      HoldsStack start (2 * deepest) (list.2.flatMap wordBytes) machine.2 := by
  -- The induction is on the last action, as the stack is told from its start.
  induction actions using List.reverseRecOn with
  | nil => exact ⟨rfl, rfl, holdsStack_nil start _⟩
  | append_singleton actions a ih =>
    have begun : actions <+: actions ++ [a] := List.prefix_append actions [a]
    obtain ⟨popped, length, stacked⟩ := ih (within.of_prefix begun)
      fun before begins => bound before (begins.trans begun)
    obtain ⟨low, high⟩ := within (actions ++ [a]) (List.prefix_refl _)
    have deep := bound (actions ++ [a]) (List.prefix_refl _)
    rw [level_concat] at low high deep ⊢
    rw [List.foldl_concat, List.foldl_concat]
    generalize actions.foldl onList ([], []) = list at popped length stacked
    generalize actions.foldl onMachine ([], start) = machine at popped stacked
    obtain ⟨taken, words⟩ := list
    dsimp only at popped length stacked
    cases a with
    | push w =>
      have bytes := length_flatMap_wordBytes words
      simp only [change] at low high deep ⊢
      refine ⟨popped, ?_, stacked.pushWord w ?_ ?_⟩
      · simp only [onList, List.length_cons]
        omega
      · omega
      · omega
    | pop =>
      cases words with
      | nil =>
        simp only [List.length_nil, change] at length low
        omega
      | cons w words =>
        obtain ⟨top, left⟩ := stacked.popWord
        refine ⟨?_, ?_, left⟩
        · simp only [onMachine, onList, List.map_append, popped, top]
          rfl
        · simp only [onList, List.length_cons, List.tail_cons, change] at length ⊢
          omega

/-- At every point of a sequence of pushes and pops within bounds, the pops have given back what a
list gives back, the stack pointer is two bytes below its start for each word on the list, only
bytes down to the greatest depth reached have changed, and nothing else of the machine has. -/
theorem onMachine_refines_onList (m : Machine η) {actions : List StackAction}
    (within : StaysWithin actions) {done : List StackAction} (begun : done <+: actions) :
    let list := done.foldl onList ([], [])
    let machine := done.foldl onMachine ([], m)
    machine.1.map some = list.1 ∧ (list.2.length : ℤ) = level done ∧
    machine.2.regs.sp = m.regs.sp - UInt16.ofNat (2 * list.2.length) ∧
    (∀ deepest : ℕ, (∀ before, before <+: done → level before ≤ deepest) →
      ∀ address, machine.2.mem.read address ≠ m.mem.read address →
        ∃ i < 2 * deepest, address = m.regs.sp - UInt16.ofNat (i + 1)) ∧
    machine.2 = { m with
      regs := { m.regs with sp := machine.2.regs.sp }
      mem := machine.2.mem } := by
  have inside := within.of_prefix begun
  have most : ∀ before, before <+: done → level before ≤ (32768 : ℕ) :=
    fun before begins => (inside before begins).2
  obtain ⟨popped, length, stacked⟩ := holdsStack_foldl m 32768 inside most
  refine ⟨popped, length, ?_, fun deepest bound => ?_, stacked.rest⟩
  · rw [← length_flatMap_wordBytes]
    exact stacked.sp
  · exact (holdsStack_foldl m deepest inside bound).2.2.changed

/-- Three words, of which two are stacked at a time. -/
def threeWords : List StackAction :=
  [.push 0x1234, .push 0xABCD, .pop, .push 0x5678, .pop, .pop]

/-- A stack from 0003 down, with room for one word and a byte above the bottom of memory. -/
def stackAroundBottom : Machine Empty := new.setSp 0x0003

theorem level_threeWords (before : List StackAction) (begun : before <+: threeWords) :
    0 ≤ level before ∧ level before ≤ (2 : ℕ) := by
  have each : ∀ before ∈ threeWords.inits, 0 ≤ level before ∧ level before ≤ (2 : ℕ) := by decide
  exact each before ((List.mem_inits before threeWords).2 begun)

theorem staysWithin_threeWords : StaysWithin threeWords := by
  intro before begun
  obtain ⟨low, high⟩ := level_threeWords before begun
  exact ⟨low, by omega⟩

/-- The second word lies around the bottom of memory and comes back whole. Only the four bytes below
0003 are touched. -/
theorem onMachine_threeWords :
    StaysWithin threeWords ∧ threeWords.take 2 <+: threeWords ∧
    ((threeWords.take 2).foldl onMachine ([], stackAroundBottom)).2.regs.sp = 0xFFFF ∧
    (threeWords.foldl onMachine ([], stackAroundBottom)).1 = [0xABCD, 0x5678, 0x1234] ∧
    (threeWords.foldl onMachine ([], stackAroundBottom)).2.regs = stackAroundBottom.regs ∧
    (threeWords.foldl onMachine ([], stackAroundBottom)).2.mem.read 0xFFFE = 0 := by
  have begun : threeWords.take 2 <+: threeWords := List.take_prefix 2 threeWords
  have middle := onMachine_refines_onList stackAroundBottom staysWithin_threeWords begun
  have whole := onMachine_refines_onList stackAroundBottom staysWithin_threeWords
    (List.prefix_refl threeWords)
  obtain ⟨popped, -, sp, changed, rest⟩ := whole
  refine ⟨staysWithin_threeWords, begun, middle.2.2.1, ?_, ?_, ?_⟩
  · exact List.map_injective_iff.2 (Option.some_injective _) popped
  · rw [rest, sp]
    rfl
  · by_contra differs
    obtain ⟨i, below, here⟩ := changed 2 (fun before begun => (level_threeWords before begun).2)
      0xFFFE fun same => differs (same.trans (Memory.read_zero _))
    revert i
    decide

end Machine

end Intel8080
