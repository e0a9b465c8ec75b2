/-!
# Reading bytes as text

Bytes are read as UTF-8 one at a time. Where they are not well formed, each longest beginning of
a character, or else a single byte, becomes one replacement character, so that text is always
found. The decoder is a machine of its own: text that comes in pieces is read as one by passing
the decoder on, and `decodeLossy` reads one piece by itself.

This stands for the library function that `drain_console` relies on.
-/
namespace Intel8080.Utf8

/-- The character that stands for bytes that are not text. -/
def replacement : Char := '\uFFFD'

/-- A character begun: how many bytes are missing, the range of the next one, and the value of
the bits so far. -/
structure Beginning where
  missing : Nat
  low : UInt8
  high : UInt8
  value : Nat
  deriving DecidableEq, Repr

/-- The text read so far and the character begun, if any. -/
structure Decoder where
  text : String
  beginning : Option Beginning
  deriving DecidableEq, Repr

namespace Decoder

def start : Decoder := ⟨"", none⟩

/-- Reads a byte where a character can begin. -/
def first (text : String) (b : UInt8) : Decoder :=
  if b < 0x80 then ⟨text.push (Char.ofNat b.toNat), none⟩
  else if b < 0xC2 then ⟨text.push replacement, none⟩
  else if b < 0xE0 then ⟨text, some ⟨1, 0x80, 0xBF, b.toNat - 0xC0⟩⟩
  else if b == 0xE0 then ⟨text, some ⟨2, 0xA0, 0xBF, 0⟩⟩
  else if b == 0xED then ⟨text, some ⟨2, 0x80, 0x9F, 0xD⟩⟩
  else if b < 0xF0 then ⟨text, some ⟨2, 0x80, 0xBF, b.toNat - 0xE0⟩⟩
  else if b == 0xF0 then ⟨text, some ⟨3, 0x90, 0xBF, 0⟩⟩
  else if b < 0xF4 then ⟨text, some ⟨3, 0x80, 0xBF, b.toNat - 0xF0⟩⟩
  else if b == 0xF4 then ⟨text, some ⟨3, 0x80, 0x8F, 4⟩⟩
  else ⟨text.push replacement, none⟩

/-- Reads a byte. One that does not continue the character begun ends it and begins anew. -/
def feed (d : Decoder) (b : UInt8) : Decoder :=
  match d.beginning with
  | none => first d.text b
  | some g =>
    if g.low ≤ b && b ≤ g.high then
      let value := g.value * 64 + b.toNat % 64
      if g.missing ≤ 1 then ⟨d.text.push (Char.ofNat value), none⟩
      else ⟨d.text, some ⟨g.missing - 1, 0x80, 0xBF, value⟩⟩
    else first (d.text.push replacement) b

def finish (d : Decoder) : String :=
  if d.beginning.isSome then d.text.push replacement else d.text

end Decoder

def decodeLossy (bytes : List UInt8) : String := (bytes.foldl Decoder.feed .start).finish

end Intel8080.Utf8
