import Intel8080.Proofs.Listing.Sweep
import Intel8080.Proofs.Text.Hex
import Intel8080.Text.Lines

/-!
# The text of a listing reads back

`Row.ofLine?` reads a line of a listing by its columns: four digits of an address, the bytes in
nine columns, the text behind them. It knows nothing of instructions, yet gives for every line of
a rendered listing what was written there (`Row.ofListing?_render`), since no digit is a blank and
no text has a line break. So a reader of the text sees every byte of the image, in whole
instructions but for a cut-off end (`ofListing?_render_rows`).
-/
namespace Intel8080

/-- The characters stay on their line. -/
def IsPrinting (cs : List Char) : Prop := ∀ c ∈ cs, 32 ≤ c.toNat

-- Going through the list, not through all characters that there are.
instance (cs : List Char) : Decidable (IsPrinting cs) :=
  List.decidableBAll (fun c : Char => 32 ≤ c.toNat) cs

/-- Mnemonics stay on their line, have at least two letters and begin with others than those of a
number. -/
theorem mnemonic_letters : ∀ opcode, IsPrinting (Opcode.mnemonic opcode).toList ∧
    2 ≤ (Opcode.mnemonic opcode).toList.length ∧
      (Opcode.mnemonic opcode).toList.take 2 ≠ ['D', 'B'] :=
  forall_byte (by decide +kernel)

namespace IsPrinting

theorem append {s t : List Char} (first : IsPrinting s) (second : IsPrinting t) :
    IsPrinting (s ++ t) :=
  fun c member => (List.mem_append.1 member).elim (first c) (second c)

theorem join {s t : String} (first : IsPrinting s.toList) (second : IsPrinting t.toList) :
    IsPrinting (s ++ t).toList := by
  rw [String.toList_append]
  exact first.append second

theorem byteHex (b : UInt8) : IsPrinting (byteHex b).toList := by
  have digit : ∀ n < 16, 32 ≤ (hexDigit n).toNat := by decide
  intro c member
  rw [toList_byteHex, List.mem_map] at member
  obtain ⟨n, half, rfl⟩ := member
  exact digit n (lt_of_mem_halves n half)

theorem wordHex (w : UInt16) : IsPrinting (wordHex w).toList := (byteHex _).join (byteHex _)

theorem instruction (i : Instruction) : IsPrinting i.text.toList := by
  have separator : IsPrinting (Instruction.separator i.mnemonic).toList := by
    unfold Instruction.separator
    split <;> decide
  have mnemonic : IsPrinting i.mnemonic.toList := (mnemonic_letters i.opcode).1
  have start := (mnemonic.join separator).join (show IsPrinting "$".toList by decide)
  unfold Instruction.text
  cases i.operand with
  | none => exact mnemonic
  | byte b => exact start.join (byteHex b)
  | word w => exact start.join (wordHex w)

theorem line (l : Listing.Line) : IsPrinting l.text.toList := by
  cases l with
  | instruction i => exact instruction i
  | data address value => exact IsPrinting.join (by decide) (byteHex value)

end IsPrinting

/-- Characters up to a line break are one line. -/
theorem linesFrom_ended (complete : List (List Char)) {body : List Char}
    (printing : IsPrinting body) {line : List Char} (begun : IsPrinting line) (rest : List Char) :
    linesFrom complete line (body ++ '\n' :: rest) =
      linesFrom ((line.reverse ++ body) :: complete) [] rest := by
  induction body generalizing line with
  | nil =>
    rw [List.nil_append, List.append_nil, linesFrom]
    rintro before rfl
    exact absurd (begun '\r' List.mem_cons_self) (by decide)
  | cons c body ih =>
    have here := printing c List.mem_cons_self
    have letter : c ≠ '\n' := by
      rintro rfl
      exact absurd here (by decide)
    have others : IsPrinting body := fun d member => printing d (List.mem_cons_of_mem c member)
    have longer : IsPrinting (c :: line) := List.forall_mem_cons.2 ⟨here, begun⟩
    rw [List.cons_append, linesFrom, ih others longer, List.reverse_cons, List.append_assoc,
      List.singleton_append]
    exact letter

/-- Lines that are each ended by a line break are the lines of their text. -/
theorem linesFrom_flatMap {bodies : List (List Char)}
    (printing : ∀ body ∈ bodies, IsPrinting body) (complete : List (List Char)) :
    linesFrom complete [] (bodies.flatMap (· ++ ['\n'])) = complete.reverse ++ bodies := by
  induction bodies generalizing complete with
  | nil => simp [linesFrom]
  | cons body others ih =>
    rw [List.flatMap_cons, List.append_assoc, List.singleton_append,
      linesFrom_ended complete (printing body List.mem_cons_self)
        (show IsPrinting [] by decide),
      ih fun other member => printing other (List.mem_cons_of_mem body member)]
    simp

namespace Listing

/-- What a line of a listing says in its columns. -/
structure Row where
  address : Nat
  bytes : List UInt8
  text : String
  deriving DecidableEq, Repr

/-- The bytes of a column: two digits and a blank for each, then blanks only. -/
def columnBytes? : List Char → Option (List UInt8)
  | [] => some []
  | ' ' :: rest => if rest.all (· == ' ') then some [] else none
  | high :: low :: ' ' :: rest => do
    let value ← numeralValue? 16 [high, low]
    let others ← columnBytes? rest
    return UInt8.ofNat value :: others
  | _ => none

namespace Row

/-- A line read by its columns: four digits, a colon and a blank, nine columns of bytes, a blank,
and the text. -/
def ofLine? : List Char → Option Row
  | a :: b :: c :: d :: ':' :: ' ' :: behind =>
    match behind.drop 9 with
    | ' ' :: text => do
      let address ← numeralValue? 16 [a, b, c, d]
      let bytes ← columnBytes? (behind.take 9)
      return ⟨address, bytes, String.ofList text⟩
    | _ => none
  | _ => none

/-- The three lines in front of the rows of a listing. -/
def headingLines : List (List Char) :=
  ["; 8080 Disassembly".toList, "; ----------------".toList, []]

/-- The rows of a text that begins as a listing. -/
def ofListing? (text : String) : Option (List Row) :=
  if (textLines text).take 3 = headingLines then ((textLines text).drop 3).mapM ofLine? else none

end Row

/-- What the columns of a line are meant to say. -/
def Line.row (l : Line) : Row := ⟨l.address.toNat, l.bytes, l.text⟩

def cell (b : UInt8) : List Char := (byteHex b).toList ++ [' ']

theorem hexDigit_ne_blank : ∀ n < 16, hexDigit n ≠ ' ' := by decide

theorem columnBytes?_blanks (n : Nat) : columnBytes? (List.replicate n ' ') = some [] := by
  cases n with
  | zero => rfl
  | succ n => simp [List.replicate_succ, columnBytes?]

/-- The column of bytes is read back, whatever blanks fill it. -/
theorem columnBytes?_cells (bytes : List UInt8) (n : Nat) :
    columnBytes? (bytes.flatMap cell ++ List.replicate n ' ') = some bytes := by
  induction bytes with
  | nil => exact columnBytes?_blanks n
  | cons b rest ih =>
    have value := numeralValue?_byteHex b
    have digits : (byteHex b).toList = [hexDigit (b.toNat / 16), hexDigit (b.toNat % 16)] :=
      toList_byteHex b
    have shown := hexDigit_ne_blank (b.toNat / 16) (by have := b.toNat_lt; omega)
    rw [digits] at value
    rw [List.flatMap_cons, cell, digits]
    simp only [List.cons_append, List.nil_append]
    rw [columnBytes?, value, ih]
    · simp
    · exact fun blank => shown blank

theorem length_byteHex (b : UInt8) : (byteHex b).length = 2 := by
  rw [← String.length_toList, toList_byteHex]
  rfl

theorem length_cells (bytes : List UInt8) : (bytes.flatMap cell).length = 3 * bytes.length := by
  induction bytes with
  | nil => rfl
  | cons b rest ih =>
    rw [List.flatMap_cons, List.length_append, ih, cell, List.length_append, String.length_toList,
      length_byteHex]
    simp only [List.length_cons, List.length_nil]
    omega

/-- The column of one to three bytes is a cell for each and blanks. -/
theorem toList_column {bytes : List UInt8} (given : bytes ≠ []) (few : bytes.length ≤ 3) :
    (Line.column (" ".intercalate (bytes.map byteHex))).toList =
      bytes.flatMap cell ++ List.replicate (9 - 3 * bytes.length) ' ' := by
  have blank : " ".length = 1 := rfl
  obtain _ | ⟨a, _ | ⟨b, _ | ⟨c, _ | ⟨d, rest⟩⟩⟩⟩ := bytes
  · exact absurd rfl given
  · simp [Line.column, cell, length_byteHex]
  · simp [Line.column, cell, length_byteHex, blank]
  · simp [Line.column, cell, length_byteHex, blank]
  · simp only [List.length_cons] at few
    omega

/-- A line has one to three bytes. -/
theorem Line.bytes_bounds (l : Line) : l.bytes ≠ [] ∧ l.bytes.length ≤ 3 := by
  cases l with
  | data address value => exact ⟨List.cons_ne_nil _ _, (by decide : 1 ≤ 3)⟩
  | instruction i =>
    obtain ⟨address, opcode, operand⟩ := i
    cases operand with
    | none => exact ⟨List.cons_ne_nil _ _, (by decide : 1 ≤ 3)⟩
    | byte b => exact ⟨List.cons_ne_nil _ _, (by decide : 2 ≤ 3)⟩
    | word w => exact ⟨List.cons_ne_nil _ _, (by decide : 3 ≤ 3)⟩

def Line.body (l : Line) : List Char :=
  (wordHex l.address).toList ++ ':' :: ' ' ::
    ((Line.column (" ".intercalate (l.bytes.map byteHex))).toList ++ ' ' :: l.text.toList)

theorem Line.toList_render (l : Line) : l.render.toList = l.body ++ ['\n'] := by
  simp [Line.render, Line.body]

/-- No line is broken inside. -/
theorem Line.isPrinting_body (l : Line) : IsPrinting l.body := by
  have cells (bytes : List UInt8) : IsPrinting (bytes.flatMap cell) := by
    intro c member
    obtain ⟨b, _, inside⟩ := List.mem_flatMap.1 member
    exact (IsPrinting.byteHex b).append (by decide : IsPrinting [' ']) c inside
  have blanks (n : Nat) : IsPrinting (List.replicate n ' ') := by
    intro c member
    rw [List.eq_of_mem_replicate member]
    decide
  rw [Line.body, toList_column l.bytes_bounds.1 l.bytes_bounds.2]
  exact (IsPrinting.wordHex l.address).append (.append (by decide : IsPrinting [':', ' '])
    (((cells l.bytes).append (blanks _)).append
      (.append (by decide : IsPrinting [' ']) (.line l))))

/-- The columns of a line say what they are meant to say. -/
theorem Row.ofLine?_body (l : Line) : Row.ofLine? l.body = some l.row := by
  obtain ⟨given, few⟩ := l.bytes_bounds
  have column := toList_column given few
  have wide : (Line.column (" ".intercalate (l.bytes.map byteHex))).toList.length = 9 := by
    rw [column, List.length_append, length_cells, List.length_replicate]
    omega
  have value := numeralValue?_wordHex l.address
  have digits := toList_wordHex l.address
  simp only [halves, List.cons_append, List.nil_append, List.map_cons, List.map_nil] at digits
  rw [digits] at value
  rw [Line.body, digits]
  simp only [List.cons_append, List.nil_append]
  rw [Row.ofLine?, List.drop_left' wide, List.take_left' wide, value, column, columnBytes?_cells]
  simp [Line.row]

/-- The text of some lines is their bodies, each ended by a break. -/
theorem toList_foldl_render (lines : List Line) (text : String) :
    (lines.foldl (fun text l => text ++ l.render) text).toList =
      text.toList ++ (lines.map Line.body).flatMap (· ++ ['\n']) := by
  induction lines generalizing text with
  | nil => simp
  | cons l rest ih => simp [ih, Line.toList_render]

/-- The lines of a listing are its heading and a line for each of its rows. -/
theorem textLines_render (image : List UInt8) (base : UInt16) :
    textLines (render image base) = Row.headingLines ++ (lines image base).map Line.body := by
  have start : heading.toList = Row.headingLines.flatMap (· ++ ['\n']) := by decide
  have printing : ∀ body ∈ Row.headingLines ++ (lines image base).map Line.body,
      IsPrinting body := by
    intro body member
    rcases List.mem_append.1 member with first | behind
    · exact (by decide : ∀ body ∈ Row.headingLines, IsPrinting body) body first
    · obtain ⟨l, _, rfl⟩ := List.mem_map.1 behind
      exact l.isPrinting_body
  rw [textLines, render, toList_foldl_render, start, ← List.flatMap_append,
    linesFrom_flatMap printing]
  rfl

/-- The text of a listing says what its lines are meant to say. -/
theorem Row.ofListing?_render (image : List UInt8) (base : UInt16) :
    Row.ofListing? (render image base) = some ((lines image base).map Line.row) := by
  have length : Row.headingLines.length = 3 := rfl
  rw [Row.ofListing?, textLines_render, ← length, List.take_left, if_pos rfl, List.drop_left,
    List.mapM_map]
  have each : ofLine? ∘ Line.body = fun l => some l.row := by
    funext l
    rw [Function.comp_apply, ofLine?_body]
  rw [each]
  exact List.mapM_pure

namespace Row

/-- The row shows an instruction, all bytes that its opcode asks for with their meaning. -/
def IsInstruction (r : Row) : Prop :=
  ∃ i : Instruction, r.address = i.address.toNat ∧ r.bytes = i.bytes ∧
    r.bytes.length = Opcode.size i.opcode ∧ r.text = i.text

/-- The row shows a byte as a number. -/
def IsData (r : Row) : Prop := ∃ b : UInt8, r.bytes = [b] ∧ r.text = "DB $" ++ byteHex b

/-- A row cannot be taken for both. -/
theorem IsInstruction.not_isData {r : Row} (shown : r.IsInstruction) : ¬ r.IsData := by
  rintro ⟨b, _, data⟩
  obtain ⟨i, _, _, _, text⟩ := shown
  obtain ⟨behind, split⟩ : ∃ behind, i.text = i.mnemonic ++ behind := by
    unfold Instruction.text
    cases i.operand with
    | none => exact ⟨"", String.append_empty.symm⟩
    | byte b =>
      exact ⟨Instruction.separator i.mnemonic ++ ("$" ++ byteHex b),
        by simp only [String.append_assoc]⟩
    | word w =>
      exact ⟨Instruction.separator i.mnemonic ++ ("$" ++ wordHex w),
        by simp only [String.append_assoc]⟩
  obtain ⟨-, long, other⟩ : _ ∧ 2 ≤ i.mnemonic.toList.length ∧ _ := mnemonic_letters i.opcode
  apply other
  calc i.mnemonic.toList.take 2
      = (i.mnemonic ++ behind).toList.take 2 := by
        rw [String.toList_append, List.take_append_of_le_length long]
    _ = ("DB $" ++ byteHex b).toList.take 2 := by rw [← split, ← text, data]
    _ = ['D', 'B'] := by rw [String.toList_append]; rfl

end Row

theorem isInstruction_row {i : Instruction} (whole : i.bytes.length = i.size) :
    (Line.instruction i).row.IsInstruction := ⟨i, rfl, rfl, whole, rfl⟩

/-- What is cut off at the end is shown byte by byte. -/
theorem isData_of_mem_dataLines {address : UInt16} {bytes : List UInt8} {l : Line}
    (member : l ∈ dataLines address bytes) : l.row.IsData := by
  induction bytes generalizing address with
  | nil => exact absurd member List.not_mem_nil
  | cons b rest ih =>
    rcases List.mem_cons.1 member with rfl | behind
    · exact ⟨b, rfl, rfl⟩
    · exact ih behind

theorem length_dataLines (address : UInt16) (bytes : List UInt8) :
    (dataLines address bytes).length = bytes.length := by
  induction bytes generalizing address with
  | nil => rfl
  | cons b rest ih => rw [dataLines, List.length_cons, ih, List.length_cons]

/-- The address of a line of a listing is the first one plus the bytes in front of the line; the top
of memory is not passed. -/
theorem toNat_address_lines {image : List UInt8} {base : UInt16} {before : List Line} {l : Line}
    {after : List Line} (place : lines image base = before ++ l :: after) :
    l.address.toNat = base.toNat + (before.flatMap Line.bytes).length := by
  have sweep := sweep_lines image base
  have fits := room_le image base
  have whole := congrArg List.length sweep.flatMap_bytes
  have given := List.length_pos_iff.2 l.bytes_bounds.1
  rw [place, List.flatMap_append, List.flatMap_cons, List.length_append, List.length_append,
    length_take_room] at whole
  rw [sweep.address_eq place, toNat_add_ofNat (by omega)]

/-- The text of a listing shows every byte of the image up to the top of memory, each row at the
first address plus the bytes in front of it: whole instructions and, behind them, byte by byte, at
most one that the end cuts off. -/
theorem ofListing?_render_rows (image : List UInt8) (base : UInt16) :
    ∃ complete tail : List Row,
      Row.ofListing? (render image base) = some (complete ++ tail) ∧
      (complete ++ tail).flatMap Row.bytes =
        image.take (min image.length (memorySize - base.toNat)) ∧
      (∀ (before : List Row) (row : Row) (after : List Row),
        complete ++ tail = before ++ row :: after →
        row.address = base.toNat + (before.flatMap Row.bytes).length ∧ row.address ≤ 0xFFFF) ∧
      (∀ row ∈ complete, row.IsInstruction ∧ ¬ row.IsData) ∧
      (∀ row ∈ tail, row.IsData) ∧ tail.length ≤ 2 ∧
      (tail ≠ [] ↔ CutOff (image.take (min image.length (memorySize - base.toNat)))) := by
  have sweep := sweep_lines image base
  have bytes : ((lines image base).map Line.row).flatMap Row.bytes =
      image.take (room image base) := by
    rw [List.flatMap_map]
    exact sweep.flatMap_bytes
  obtain ⟨complete, start, rest, same, sizes, few, cut⟩ := sweep.exists_tail
  have split : (lines image base).map Line.row =
      complete.map (fun i => (Line.instruction i).row) ++ (dataLines start rest).map Line.row := by
    rw [same, List.map_append, List.map_map]
    rfl
  refine ⟨complete.map (fun i => (Line.instruction i).row), (dataLines start rest).map Line.row,
    ?_, ?_, ?_, ?_, ?_, ?_, ?_⟩
  · rw [← split]
    exact Row.ofListing?_render image base
  · rw [← split]
    exact bytes
  · rw [← split]
    intro before row after place
    obtain ⟨front, back, same, rfl, here⟩ := List.map_eq_append_iff.1 place
    obtain ⟨l, others, rfl, rfl, -⟩ := List.map_eq_cons_iff.1 here
    have address := toNat_address_lines same
    have below := l.address.toNat_lt
    rw [List.flatMap_map]
    exact ⟨address, Nat.le_of_lt_succ below⟩
  · intro row member
    obtain ⟨i, inside, rfl⟩ := List.mem_map.1 member
    have shown := isInstruction_row (sizes i inside)
    exact ⟨shown, shown.not_isData⟩
  · intro row member
    obtain ⟨l, inside, rfl⟩ := List.mem_map.1 member
    exact isData_of_mem_dataLines inside
  · rwa [List.length_map, length_dataLines]
  · rw [← room, ← cut, Ne, List.map_eq_nil_iff, ← List.length_eq_zero_iff, length_dataLines,
      List.length_eq_zero_iff]

/-- Of four bytes three cells below the top of memory, the last is not shown and the two in front
of it are shown as numbers, since the jump that they begin is cut off. -/
theorem ofListing?_render_atTop : ∃ complete tail : List Row,
    Row.ofListing? (render [0x00, 0xC3, 0x00, 0x3C] 0xFFFD) = some (complete ++ tail) ∧
      (complete ++ tail).flatMap Row.bytes = [0x00, 0xC3, 0x00] ∧
      tail ≠ [] ∧ ∀ row ∈ tail, row.IsData := by
  obtain ⟨complete, tail, read, bytes, -, -, data, -, cut⟩ :=
    ofListing?_render_rows [0x00, 0xC3, 0x00, 0x3C] 0xFFFD
  have jump : CutOff [0xC3, 0x00] := .here (by decide)
  have whole : CutOff [0x00, 0xC3, 0x00] := .behind (by decide) jump
  exact ⟨complete, tail, read, bytes, cut.2 whole, data⟩

end Listing

end Intel8080
