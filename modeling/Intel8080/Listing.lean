import Intel8080.Instruction

/-!
# Listings

A listing shows an image as instructions, one to a line: address, bytes, text. Each line carries
its own bytes, so the lines of an image, read in order, are the image. An instruction that the
end of the image cuts off is listed byte by byte.

Embedded here are `disassemble` and `disassemble_instruction`.
-/
namespace Intel8080

inductive Listing.Line where
  /-- A complete instruction. -/
  | instruction (instruction : Instruction)
  /-- A byte that belongs to no complete instruction. -/
  | data (address : UInt16) (value : UInt8)
  deriving DecidableEq, Repr

namespace Listing

namespace Line

def address : Line → UInt16
  | .instruction i => i.address
  | .data address _ => address

def bytes : Line → List UInt8
  | .instruction i => i.bytes
  | .data _ value => [value]

def text : Line → String
  | .instruction i => i.text
  | .data _ value => "DB $" ++ byteHex value

/-- Text filled with blanks on the right to nine columns. -/
def column (s : String) : String := s ++ String.ofList (List.replicate (9 - s.length) ' ')

def render (l : Line) : String :=
  wordHex l.address ++ ": " ++ column (" ".intercalate (l.bytes.map byteHex)) ++ " " ++ l.text ++
    "\n"

end Line

/-- One data line for each byte from an address on. -/
def dataLines (address : UInt16) : List UInt8 → List Line
  | [] => []
  | b :: rest => .data address b :: dataLines (address + 1) rest

/-- Appends the lines for `remaining` bytes of memory from an address on. Each line takes at least
one byte, so the first number bounds how many there are. -/
def appendLines (mem : Memory) (lines : Array Line) : Nat → UInt16 → Nat → Array Line
  | 0, _, _ => lines
  | _, _, 0 => lines
  | fuel + 1, address, remaining =>
    let i := Instruction.decode mem address
    if remaining < i.size then lines ++ dataLines address (mem.bytesFrom address remaining)
    else
      appendLines mem (lines.push (.instruction i)) fuel (address + UInt16.ofNat i.size)
        (remaining - i.size)

/-- The lines of an image loaded at `base`. What does not fit below the top of memory is left
out. -/
def lines (image : List UInt8) (base : UInt16) : List Line :=
  let length := min image.length (memorySize - base.toNat)
  (appendLines (Memory.zero.writeBytes base (image.take length)) #[] length base length).toList

def heading : String := "; 8080 Disassembly\n; ----------------\n\n"

def render (image : List UInt8) (base : UInt16) : String :=
  (lines image base).foldl (fun text l => text ++ l.render) heading

end Listing

end Intel8080
