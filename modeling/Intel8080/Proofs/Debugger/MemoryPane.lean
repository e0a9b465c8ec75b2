import Intel8080.Debugger.Layout
import Intel8080.Proofs.Debugger.StartingOver
import Intel8080.Proofs.Memory

/-!
# The memory pane

The window of memory begins at a row that exists, wherever the image was loaded and whatever the
user does (`memoryRow_foldl_lt`). So no row of the pane begins past the top of memory or runs over
it: each shows the sixteen bytes from its address on, under that address, with the roles they have
(`spans_memoryLine`).
-/
namespace Intel8080.Debugger

/-- What a user can bring about: a deed, or a page of scrolling. -/
inductive Gesture where
  | deed (deed : Deed)
  | pageUp | pageDown

def heed (d : Debugger) : Gesture → Debugger
  | .deed deed => d.undergo deed
  | .pageUp => d.pageUp
  | .pageDown => d.pageDown

/-! ## The first row -/

section Scroll

variable {d : Debugger}

/-- The load address is in memory, so the first row shown is too. -/
theorem memoryRow_new_lt {config : RunConfig} {image : List UInt8}
    (new : Debugger.new config image = .ok d) : d.memoryRow < rowCount := by
  obtain ⟨start, built, -⟩ := follows_new new
  rw [Debugger.new, built] at new
  cases new
  have below := config.loadAddress.toNat_lt
  simp only [rowCount, rowSize, memorySize]
  omega

theorem memoryRow_scrollDown_lt (inside : d.memoryRow < rowCount) :
    d.scrollDown.memoryRow < rowCount := by
  unfold scrollDown
  split
  · assumption
  · exact inside

theorem memoryRow_scrollDownBy_lt (rows : ℕ) (inside : d.memoryRow < rowCount) :
    (d.scrollDownBy rows).memoryRow < rowCount := by
  induction rows generalizing d with
  | zero => exact inside
  | succ rows ih => exact ih (memoryRow_scrollDown_lt inside)

/-- Only scrolling moves the window. -/
theorem memoryRow_undergo_lt (deed : Deed) (inside : d.memoryRow < rowCount) :
    (d.undergo deed).memoryRow < rowCount := by
  have kept {other : Debugger} (same : other.fixtures = d.fixtures) : other.memoryRow < rowCount :=
    lt_of_eq_of_lt (congrArg Prod.snd same) inside
  cases deed with
  | edit change => exact inside
  | quit => exact inside
  | act action =>
    cases action with
    | step => exact kept (fixtures_step d)
    | tick => exact kept (fixtures_batch d stepsPerTick)
    | reset => exact kept (fixtures_reset d)
    | toggleBreakpoint => exact kept (fixtures_toggleBreakpoint d)
    | run | addBreakpoint address => exact inside
    | scrollUp => exact Nat.lt_of_le_of_lt (Nat.sub_le _ _) inside
    | scrollDown => exact memoryRow_scrollDown_lt inside

/-- Nothing that is done scrolls past the last row. -/
theorem memoryRow_heed_lt (gesture : Gesture) (inside : d.memoryRow < rowCount) :
    (d.heed gesture).memoryRow < rowCount := by
  cases gesture with
  | deed deed => exact memoryRow_undergo_lt deed inside
  | pageUp => exact Nat.lt_of_le_of_lt (Nat.sub_le _ _) inside
  | pageDown =>
    rw [heed, pageDown]
    exact memoryRow_scrollDownBy_lt pageRows inside

/-- So nothing done in a row does. -/
theorem memoryRow_foldl_lt (gestures : List Gesture) (inside : d.memoryRow < rowCount) :
    (gestures.foldl heed d).memoryRow < rowCount := by
  induction gestures generalizing d with
  | nil => exact inside
  | cons gesture rest ih => exact ih (memoryRow_heed_lt gesture inside)

end Scroll

/-! ## One row -/

def rowAddress (row : ℕ) : UInt16 := UInt16.ofNat (row * rowSize)

/-- How the byte at an address is shown. -/
def styleAt (d : Debugger) (address : UInt16) : Style :=
  (d.byteRole address.toNat (d.machine.mem.read address)).style

section Row

variable (d : Debugger) {row : ℕ}

theorem rowAddress_toNat (inside : row < rowCount) : (rowAddress row).toNat = row * rowSize := by
  simp only [rowCount, rowSize, memorySize] at inside ⊢
  rw [rowAddress, UInt16.toNat_ofNat', rowSize]
  omega

/-- No byte of a row is past the top of memory. -/
theorem toNat_rowAddress_add (inside : row < rowCount) {i : ℕ} (within : i < rowSize) :
    (rowAddress row + UInt16.ofNat i).toNat = row * rowSize + i := by
  have start := rowAddress_toNat inside
  simp only [rowCount, rowSize, memorySize] at inside within start ⊢
  rw [toNat_add_ofNat (by omega), start]

/-- The addresses of a row do not go around. -/
theorem addressesFrom_rowAddress (inside : row < rowCount) :
    (addressesFrom (rowAddress row) rowSize).map UInt16.toNat =
      List.range' (row * rowSize) rowSize := by
  rw [addressesFrom, List.map_map, List.range'_eq_map_range]
  apply List.map_congr_left
  intro i within
  exact toNat_rowAddress_add inside (List.mem_range.1 within)

/-- Every row has all of its bytes, since memory is a whole number of rows. -/
theorem bytesFrom_rowAddress (m : Memory) (inside : row < rowCount) :
    m.bytesFrom (rowAddress row) rowSize = (addressesFrom (rowAddress row) rowSize).map m.read := by
  have whole : min rowSize (memorySize - (rowAddress row).toNat) = rowSize := by
    rw [rowAddress_toNat inside]
    simp only [rowCount, rowSize, memorySize] at inside ⊢
    omega
  rw [Memory.bytesFrom, whole, addressesFrom, List.map_map]
  rfl

/-- A row shows its address, and then each byte that stands there as what it is. -/
theorem spans_memoryLine (inside : row < rowCount) :
    (memoryLine (d.memoryRowAt row)).spans =
      ⟨wordHex (rowAddress row) ++ ": ", .colored .darkGray⟩ ::
        (addressesFrom (rowAddress row) rowSize).map fun address =>
          ⟨byteHex (d.machine.mem.read address) ++ " ", d.styleAt address⟩ := by
  have bytes : (d.memoryRowAt row).bytes = (addressesFrom (rowAddress row) rowSize).map
      fun address => (d.machine.mem.read address,
        d.byteRole address.toNat (d.machine.mem.read address)) := by
    change (d.machine.mem.bytesFrom (rowAddress row) rowSize).mapIdx _ = _
    rw [bytesFrom_rowAddress d.machine.mem inside]
    apply List.ext_getElem
    · simp
    · intro i _ listed
      have within : i < rowSize := by simpa [addressesFrom] using listed
      simp [addressesFrom, toNat_rowAddress_add inside within]
  simp only [memoryLine, bytes, List.map_map]
  rfl

/-- Only the byte at the program counter has its style. -/
theorem styleAt_eq_next_iff (address : UInt16) :
    d.styleAt address = .bright .yellow ↔ address = d.machine.regs.pc := by
  rw [← UInt16.toNat_inj]
  unfold styleAt byteRole
  split <;> rename_i atPc
  · simpa [ByteRole.style] using atPc
  · have other : address.toNat ≠ d.machine.regs.pc.toNat := by simpa using atPc
    refine ⟨fun styled => ?_, fun same => absurd same other⟩
    split at styled
    · exact absurd styled (by decide)
    · split at styled <;> exact absurd styled (by decide)

/-- Only the byte at the stack pointer has its style, unless the program counter is there too. -/
theorem styleAt_eq_stackTop_iff (address : UInt16) :
    d.styleAt address = .colored .magenta ↔
      address = d.machine.regs.sp ∧ d.machine.regs.sp ≠ d.machine.regs.pc := by
  by_cases atPc : address = d.machine.regs.pc
  · rw [(d.styleAt_eq_next_iff address).2 atPc, atPc]
    exact iff_of_false (by decide) fun both => both.2 both.1.symm
  · have other : (address.toNat == d.machine.regs.pc.toNat) = false := by
      rwa [beq_eq_false_iff_ne, Ne, UInt16.toNat_inj]
    by_cases atSp : address = d.machine.regs.sp
    · subst atSp
      refine iff_of_true ?_ ⟨rfl, atPc⟩
      simp [styleAt, byteRole, other, ByteRole.style]
    · have elsewhere : (address.toNat == d.machine.regs.sp.toNat) = false := by
        rwa [beq_eq_false_iff_ne, Ne, UInt16.toNat_inj]
      refine iff_of_false ?_ fun both => atSp both.1
      unfold styleAt byteRole
      rw [other, elsewhere]
      simp only [Bool.false_eq_true, if_false]
      split <;> decide

end Row

/-! ## The pane -/

/-- The pane has as many rows as fit into its frame, or as there are from its first row to the top
of memory. -/
theorem memoryView_eq (d : Debugger) (lines : ℕ) :
    d.memoryView lines =
      (List.range' d.memoryRow (min lines (rowCount - d.memoryRow))).map d.memoryRowAt := by
  have count : min (d.memoryRow + lines) rowCount - d.memoryRow =
      min lines (rowCount - d.memoryRow) := by
    omega
  simp only [memoryView, count]

/-- Whatever was done to a debugger, its pane of any height shows memory. There are as many rows as
fit, up to the last of memory. Each has its address, which is a true address, and then the sixteen
bytes that stand from there on. The byte at the program counter stands out and no other does so, and
in the same way the byte at the stack pointer unless the program counter is there too. -/
theorem memoryPane_exact {config : RunConfig} {image : List UInt8} {d : Debugger}
    (new : Debugger.new config image = .ok d) (gestures : List Gesture) (height : ℕ) :
    let seen := gestures.foldl heed d
    let lines := (seen.memoryPane height).lines
    seen.memoryRow < 4096 ∧ lines.length = min (height - 2) (4096 - seen.memoryRow) ∧
      (∀ r (shown : r < lines.length), ∃ address : UInt16,
        address.toNat = 16 * (seen.memoryRow + r) ∧
        (addressesFrom address 16).map UInt16.toNat =
          List.range' (16 * (seen.memoryRow + r)) 16 ∧
        lines[r].spans = ⟨wordHex address ++ ": ", .colored .darkGray⟩ ::
          (addressesFrom address 16).map fun a =>
            ⟨byteHex (seen.machine.mem.read a) ++ " ", seen.styleAt a⟩) ∧
      ∀ a, (seen.styleAt a = .bright .yellow ↔ a = seen.machine.regs.pc) ∧
        (seen.styleAt a = .colored .magenta ↔
          a = seen.machine.regs.sp ∧ seen.machine.regs.sp ≠ seen.machine.regs.pc) := by
  intro seen lines
  have inside : seen.memoryRow < rowCount := memoryRow_foldl_lt gestures (memoryRow_new_lt new)
  have lines_eq : lines = (List.range' seen.memoryRow
      (min (height - 2) (rowCount - seen.memoryRow))).map
        fun row => memoryLine (seen.memoryRowAt row) := by
    change (seen.memoryView (height - 2)).map memoryLine = _
    rw [memoryView_eq, List.map_map]
    rfl
  have length : lines.length = min (height - 2) (rowCount - seen.memoryRow) := by
    rw [lines_eq, List.length_map, List.length_range']
  refine ⟨inside, length, fun r shown => ?_,
    fun a => ⟨seen.styleAt_eq_next_iff a, seen.styleAt_eq_stackTop_iff a⟩⟩
  have exists' : seen.memoryRow + r < rowCount := by omega
  have start : 16 * (seen.memoryRow + r) = (seen.memoryRow + r) * rowSize := Nat.mul_comm _ _
  have line : lines[r] = memoryLine (seen.memoryRowAt (seen.memoryRow + r)) := by
    simp [lines_eq]
  refine ⟨rowAddress (seen.memoryRow + r), ?_, ?_, ?_⟩
  · rw [rowAddress_toNat exists', start]
  · rw [start]
    exact addressesFrom_rowAddress exists'
  · rw [line]
    exact seen.spans_memoryLine exists'

/-- A program in the last row of memory, with its stack there too. -/
def loadedAtTop : RunConfig :=
  { RunConfig.default with loadAddress := 0xFFF0, stackPointer := some 0xFFF2 }

/-- A page down, a page up and a row down from the last row: the pane could show more rows than
there are, and ends with the last one, where both bytes stand out. -/
theorem memoryPane_endsAtTop :
    ∃ d, Debugger.new loadedAtTop [0x76] = .ok d ∧
      let seen := [Gesture.pageDown, .pageUp, .deed (.act .scrollDown)].foldl heed d
      let lines := (seen.memoryPane 30).lines
      lines.length = 16 ∧
        (∀ shown : 15 < lines.length, (lines[15].spans.map Span.text).head? = some "FFF0: ") ∧
        seen.styleAt 0xFFF0 = .bright .yellow ∧ seen.styleAt 0xFFF2 = .colored .magenta := by
  refine ⟨_, rfl, ?_⟩
  intro seen lines
  have new : Debugger.new loadedAtTop [0x76] = .ok _ := rfl
  obtain ⟨-, length, rows, styles⟩ :=
    memoryPane_exact new [Gesture.pageDown, .pageUp, .deed (.act .scrollDown)] 30
  refine ⟨length, fun shown => ?_, (styles _).1.2 rfl, (styles _).2.2 ⟨rfl, by decide⟩⟩
  obtain ⟨address, start, -, spans⟩ := rows 15 shown
  have address_eq : address = 0xFFF0 := UInt16.toNat_inj.1 start
  have label : wordHex 0xFFF0 ++ ": " = "FFF0: " := by decide
  have spans : lines[15].spans = _ := spans
  rw [spans, address_eq, List.map_cons, List.head?_cons, label]

end Intel8080.Debugger
