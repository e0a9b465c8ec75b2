import Intel8080.Debugger.CodeView
import Intel8080.Debugger.MemoryView
import Intel8080.Debugger.Screen
import Intel8080.Text.Lines

/-!
# The screen of the debugger

Two columns. Left: code, registers and status; right: memory, console and help. The left column
takes 45 hundredths of the width; in each column the last two panes have fixed heights and the
first takes the rest.

Embedded here are `draw` and the panes that it draws, for sizes at which every pane has room.
-/
namespace Intel8080.Debugger

def raw (text : String) : Span := ⟨text, .plain⟩

def plainLine (text : String) : StyledLine := ⟨[raw text], .plain⟩

/-! ## Code -/

def codeLine (d : Debugger) (row : CodeRow) : StyledLine :=
  let marked := d.breakpoints.contains row.address
  let style :=
    if row.isCurrent then Style.bright .yellow
    else if marked then Style.colored .red
    else .plain
  ⟨[raw ((if marked then "●" else " ") ++ " " ++ (if row.isCurrent then "▶ " else "  ") ++
      wordHex row.address ++ ": " ++ row.text)], style⟩

def codePane (d : Debugger) (height : Nat) : Pane where
  title := " Disassembly "
  border := .colored .cyan
  base := .plain
  lines := (d.codeView (height - 2)).map d.codeLine

/-! ## Registers -/

/-- The letter of a flag, lit when it is set. -/
def flagSpan (letter : String) (set : Bool) : Span :=
  ⟨letter, if set then .bright .green else .colored .darkGray⟩

def registerLines (d : Debugger) : List StyledLine :=
  let m := d.machine
  let r := m.regs
  let value (text : String) : Span := ⟨text, .colored .white⟩
  [⟨[raw "A: ", value (byteHex r.a), raw "  BC: ", value (wordHex r.bc), raw "  DE: ",
      value (wordHex r.de), raw "  HL: ", value (wordHex r.hl)], .plain⟩,
    ⟨[raw "PC: ", ⟨wordHex r.pc, .colored .yellow⟩, raw "  SP: ", value (wordHex r.sp),
      raw "  Flags: ", flagSpan "S" r.flags.sign, flagSpan "Z" r.flags.zero,
      flagSpan "A" r.flags.auxCarry, flagSpan "P" r.flags.parity,
      flagSpan "C" r.flags.carry], .plain⟩,
    ⟨[raw "Steps: ", ⟨toString m.steps.toNat, .colored .cyan⟩, raw "   State: ",
      ⟨m.state.name, .colored (if m.isRunning then .green else .red)⟩,
      raw (if m.interruptsEnabled then "   EI" else "   DI")], .plain⟩]

def registerPane (d : Debugger) : Pane where
  title := " Registers "
  border := .colored .green
  base := .plain
  lines := d.registerLines

/-! ## Status -/

def statusPane (d : Debugger) : Pane where
  title := " Status "
  border := .plain
  base := .colored .white
  lines := [plainLine d.status.message]

/-! ## Memory -/

def ByteRole.style : ByteRole → Style
  | .next => .bright .yellow
  | .stackTop => .colored .magenta
  | .plain => .colored .white
  | .zero => .colored .darkGray

def memoryLine (row : MemoryRow) : StyledLine :=
  ⟨⟨wordHex (UInt16.ofNat row.address) ++ ": ", .colored .darkGray⟩ ::
      row.bytes.map fun byte => ⟨byteHex byte.1 ++ " ", byte.2.style⟩, .plain⟩

def memoryPane (d : Debugger) (height : Nat) : Pane where
  title := " Memory "
  border := .colored .magenta
  base := .plain
  lines := (d.memoryView (height - 2)).map memoryLine

/-! ## Console and help -/

def consolePane (d : Debugger) (height : Nat) : Pane where
  title := " Console "
  border := .colored .blue
  base := .plain
  lines :=
    let all := textLines d.console
    (all.drop (all.length - (height - 2))).map fun line => plainLine (String.ofList line)

def helpPane : Pane where
  title := " Help "
  border := .plain
  base := .colored .darkGray
  lines := [
    plainLine "s: Step  r: Run  p: Pause  b: Breakpoint  x: Reset",
    plainLine "↑↓ PgUp PgDn: Scroll memory  q: Quit"]

/-! ## The whole screen -/

/-- The rows of a screen of the given size. -/
def screen (d : Debugger) (width height : Nat) : List (List Cell) :=
  let left := width * 45 / 100
  let right := width - left
  let codeHeight := height - 10
  let memoryHeight := height - 12
  let leftRows := (d.codePane codeHeight).rows left codeHeight ++ d.registerPane.rows left 7 ++
    d.statusPane.rows left 3
  let rightRows := (d.memoryPane memoryHeight).rows right memoryHeight ++
    (d.consolePane 8).rows right 8 ++ helpPane.rows right 4
  List.zipWith (· ++ ·) leftRows rightRows

end Intel8080.Debugger
