import Intel8080.Json.Reader

/-!
# Numbers and addresses as people type them

An address is a decimal numeral, or a hexadecimal one after `0x` or `0X`, with blanks around it
and with a plus sign in front of its digits if liked. Leading zeros do not count; the value must
fit a word. Blanks are the characters with the Unicode property `White_Space`.

Embedded here is `parse_address`, with the trimming of texts and the reading of unsigned numbers
that it relies on.
-/
namespace Intel8080

def isBlank (c : Char) : Bool :=
  let n := c.toNat
  (9 ≤ n && n ≤ 13) || n == 0x20 || n == 0x85 || n == 0xA0 || n == 0x1680 ||
    (0x2000 ≤ n && n ≤ 0x200A) || n == 0x2028 || n == 0x2029 || n == 0x202F || n == 0x205F ||
    n == 0x3000

def trimBlanks (cs : List Char) : List Char :=
  ((cs.dropWhile isBlank).reverse.dropWhile isBlank).reverse

/-- The value of a digit in a base up to sixteen. -/
def digitValue? (base : Nat) (c : Char) : Option Nat :=
  (Json.hexValue? c).filter (· < base)

/-- The value of one or more digits. -/
def numeralValue? (base : Nat) (cs : List Char) : Option Nat :=
  if cs.isEmpty then none
  else (cs.mapM (digitValue? base)).map fun digits => digits.foldl (fun n d => n * base + d) 0

/-- The value of digits with an optional plus sign in front. -/
def signedNumeral? (base : Nat) : List Char → Option Nat
  | '+' :: cs => numeralValue? base cs
  | cs => numeralValue? base cs

/-- The value of a trimmed address, if it is one. -/
def addressValue? (cs : List Char) : Option Nat :=
  (match cs with
  | '0' :: 'x' :: digits => signedNumeral? 16 digits
  | '0' :: 'X' :: digits => signedNumeral? 16 digits
  | _ => signedNumeral? 10 cs).filter (· < UInt16.size)

/-- A text that is no address; it is kept without the blanks around it. -/
structure InvalidAddress where
  text : String
  deriving DecidableEq, Repr

def InvalidAddress.message (e : InvalidAddress) : String :=
  "invalid address '" ++ e.text ++ "' (expected 0..65535 or 0x0000..0xFFFF)"

def parseAddress (text : String) : Except InvalidAddress UInt16 :=
  let cs := trimBlanks text.toList
  match addressValue? cs with
  | some n => .ok (UInt16.ofNat n)
  | none => .error ⟨String.ofList cs⟩

/-- The count that a text names: a decimal numeral that fits 64 bits, without blanks. -/
def parseCount? (text : String) : Option UInt64 :=
  ((signedNumeral? 10 text.toList).filter (· < UInt64.size)).map UInt64.ofNat

end Intel8080
