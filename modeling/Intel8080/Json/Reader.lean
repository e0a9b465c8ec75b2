import Intel8080.Json.Value

/-!
# Reading JSON text

`Json.read` accepts exactly one value with blanks around it. Numerals have no leading zeros,
strings no raw control characters, and neither arrays nor objects end in a comma.

This is the grammar of the JSON library that configurations and snapshots are read with.
-/
namespace Intel8080.Json

/-- Whether a character may stand between tokens. -/
def isSpace (c : Char) : Bool := c == ' ' || c == '\t' || c == '\n' || c == '\r'

def skipSpace (cs : List Char) : List Char := cs.dropWhile isSpace

/-! ## Numerals -/

def decimalValue (digits : List Char) : Nat :=
  digits.foldl (fun n d => n * 10 + (d.toNat - 48)) 0

def readDigits? (cs : List Char) : Option (List Char × List Char) :=
  match cs.span Char.isDigit with
  | ([], _) => none
  | (digits, rest) => some (digits, rest)

/-- The digits of an integer: a single zero, or a run that starts with no zero. -/
def readInteger? (cs : List Char) : Option (List Char × List Char) :=
  match cs with
  | '0' :: rest => some (['0'], rest)
  | _ => readDigits? cs

/-- A point with digits after it, if there is a point. -/
def readFraction? (cs : List Char) : Option (List Char × List Char) :=
  match cs with
  | '.' :: rest => (readDigits? rest).map fun (digits, rest) => ('.' :: digits, rest)
  | _ => some ([], cs)

/-- An exponent with an optional sign, if there is one. -/
def readExponent? (cs : List Char) : Option (List Char × List Char) :=
  match cs with
  | e :: rest =>
    if e == 'e' || e == 'E' then
      match rest with
      | s :: afterSign =>
        if s == '+' || s == '-' then
          (readDigits? afterSign).map fun (digits, rest) => (e :: s :: digits, rest)
        else (readDigits? rest).map fun (digits, rest) => (e :: digits, rest)
      | [] => none
    else some ([], cs)
  | [] => some ([], cs)

/-- A numeral. One of digits alone is a natural number. -/
def readNumber? (cs : List Char) : Option (Json × List Char) := do
  let (sign, cs) := match cs with
    | '-' :: rest => (['-'], rest)
    | _ => ([], cs)
  let (digits, cs) ← readInteger? cs
  let (fraction, cs) ← readFraction? cs
  let (exponent, cs) ← readExponent? cs
  if sign.isEmpty && fraction.isEmpty && exponent.isEmpty then
    pure (.nat (decimalValue digits), cs)
  else pure (.numeral (String.ofList (sign ++ digits ++ fraction ++ exponent)), cs)

/-! ## Strings -/

/-- What a string is made of: characters, and code units that are escaped by number. -/
inductive Element where
  | char (c : Char)
  | unit (value : Nat)
  deriving DecidableEq, Repr

def hexValue? (c : Char) : Option Nat :=
  if '0' ≤ c && c ≤ '9' then some (c.toNat - 48)
  else if 'a' ≤ c && c ≤ 'f' then some (c.toNat - 87)
  else if 'A' ≤ c && c ≤ 'F' then some (c.toNat - 55)
  else none

/-- The code unit written with four digits. -/
def unit? (a b c d : Char) : Option Nat := do
  return (((← hexValue? a) * 16 + (← hexValue? b)) * 16 + (← hexValue? c)) * 16 + (← hexValue? d)

/-- The character that an escape of one letter stands for. -/
def escaped? (c : Char) : Option Char :=
  match c with
  | '"' => some '"'
  | '\\' => some '\\'
  | '/' => some '/'
  | 'b' => some '\x08'
  | 'f' => some '\x0c'
  | 'n' => some '\n'
  | 'r' => some '\r'
  | 't' => some '\t'
  | _ => none

/-- The elements up to the closing quote, after those already read, which stand in reverse. -/
def readElements? (read : List Element) : List Char → Option (List Element × List Char)
  | [] => none
  | c :: cs =>
    if c == '"' then some (read.reverse, cs)
    else if c == '\\' then
      match cs with
      | [] => none
      | e :: cs =>
        if e == 'u' then
          match cs with
          | w :: x :: y :: z :: rest =>
            match unit? w x y z with
            | none => none
            | some u => readElements? (.unit u :: read) rest
          | _ => none
        else
          match escaped? e with
          | none => none
          | some c => readElements? (.char c :: read) cs
    else if c.toNat < 32 then none
    else readElements? (.char c :: read) cs

/-- Whether a code unit is the first half of a pair. -/
def isHighSurrogate (u : Nat) : Bool := 0xD800 ≤ u && u ≤ 0xDBFF

/-- Whether a code unit is the second half of a pair. -/
def isLowSurrogate (u : Nat) : Bool := 0xDC00 ≤ u && u ≤ 0xDFFF

/-- The characters of elements, after those already found, which stand in reverse. Half a pair
is no character. -/
def joinElements? (found : List Char) : List Element → Option (List Char)
  | [] => some found.reverse
  | .char c :: rest => joinElements? (c :: found) rest
  | .unit u :: rest =>
    if isHighSurrogate u then
      match rest with
      | .unit v :: rest =>
        if isLowSurrogate v then
          joinElements? (Char.ofNat (0x10000 + (u - 0xD800) * 0x400 + (v - 0xDC00)) :: found) rest
        else none
      | _ => none
    else if isLowSurrogate u then none
    else joinElements? (Char.ofNat u :: found) rest

/-- The string whose opening quote was just read. -/
def readString? (cs : List Char) : Option (Option String × List Char) :=
  (readElements? [] cs).map fun (elements, rest) =>
    ((joinElements? [] elements).map String.ofList, rest)

/-! ## Values

The number bounds how deep the calls go. An array or object takes two levels and two characters
of its own, and each further item one level and a comma, so the length of a value's text is always
enough.
-/

mutual

def readValue? : Nat → List Char → Option (Json × List Char)
  | 0, _ => none
  | fuel + 1, cs =>
    match skipSpace cs with
    | 'n' :: 'u' :: 'l' :: 'l' :: rest => some (.null, rest)
    | 't' :: 'r' :: 'u' :: 'e' :: rest => some (.bool true, rest)
    | 'f' :: 'a' :: 'l' :: 's' :: 'e' :: rest => some (.bool false, rest)
    | '"' :: rest =>
      match readString? rest with
      | none => none
      | some (text, rest) => some (.string text, rest)
    | '[' :: rest =>
      match skipSpace rest with
      | ']' :: rest => some (.array [], rest)
      | _ => readItems? fuel [] rest
    | '\x7b' :: rest =>
      match skipSpace rest with
      | '\x7d' :: rest => some (.object [], rest)
      | _ => readMembers? fuel [] rest
    | cs => readNumber? cs

/-- The items up to the closing bracket, after those already read, which stand in reverse. -/
def readItems? : Nat → List Json → List Char → Option (Json × List Char)
  | 0, _, _ => none
  | fuel + 1, read, cs =>
    match readValue? fuel cs with
    | none => none
    | some (item, rest) =>
      match skipSpace rest with
      | ',' :: rest => readItems? fuel (item :: read) rest
      | ']' :: rest => some (.array (item :: read).reverse, rest)
      | _ => none

/-- The members up to the closing brace, after those already read, which stand in reverse. -/
def readMembers? : Nat → List (Option String × Json) → List Char → Option (Json × List Char)
  | 0, _, _ => none
  | fuel + 1, read, cs =>
    match skipSpace cs with
    | '"' :: rest =>
      match readString? rest with
      | none => none
      | some (name, rest) =>
        match skipSpace rest with
        | ':' :: rest =>
          match readValue? fuel rest with
          | none => none
          | some (value, rest) =>
            match skipSpace rest with
            | ',' :: rest => readMembers? fuel ((name, value) :: read) rest
            | '\x7d' :: rest => some (.object ((name, value) :: read).reverse, rest)
            | _ => none
        | _ => none
    | _ => none

end

def read (text : String) : Option Json :=
  let cs := text.toList
  match readValue? (cs.length + 1) cs with
  | some (value, rest) => if (skipSpace rest).isEmpty then some value else none
  | none => none

end Intel8080.Json
