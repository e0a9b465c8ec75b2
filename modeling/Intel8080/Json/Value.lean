/-!
# JSON values

Numbers are kept apart by their form: a plain run of digits is a natural number, every other
numeral is kept as it is written. A string that escapes half of a surrogate pair names no text,
so the text of a string or of a member's name may be missing. Members keep their order, and a
name may occur twice.

How fields are taken from a value follows the derived rules of the JSON library: other members are
ignored, and a field given twice is refused.
-/
namespace Intel8080

inductive Json where
  | null
  | bool (value : Bool)
  | nat (value : Nat)
  /-- A numeral with a sign, a fraction or an exponent, as written. -/
  | numeral (literal : String)
  | string (text : Option String)
  | array (items : List Json)
  | object (members : List (Option String × Json))

namespace Json

instance : Inhabited Json := ⟨null⟩

def text (s : String) : Json := .string (some s)

def record (members : List (String × Json)) : Json :=
  .object (members.map fun member => (some member.1, member.2))

/-- The value, or null where there is none. -/
def ofOption {α : Type} (f : α → Json) : Option α → Json
  | none => .null
  | some x => f x

/-! ## Reading typed values -/

def asBool? : Json → Option Bool
  | .bool b => some b
  | _ => none

/-- A natural number below a bound. -/
def below? (bound : Nat) : Json → Option Nat
  | .nat n => if n < bound then some n else none
  | _ => none

def asUInt8? (j : Json) : Option UInt8 := (j.below? UInt8.size).map UInt8.ofNat
def asUInt16? (j : Json) : Option UInt16 := (j.below? UInt16.size).map UInt16.ofNat
def asUInt32? (j : Json) : Option UInt32 := (j.below? UInt32.size).map UInt32.ofNat
def asUInt64? (j : Json) : Option UInt64 := (j.below? UInt64.size).map UInt64.ofNat

/-- A value that may be null. -/
def optional? {α : Type} (f : Json → Option α) : Json → Option (Option α)
  | .null => some none
  | j => (f j).map some

/-- The value of the only member with a name: nothing if there is no such member, and a failure
if there are several. -/
def member? (members : List (Option String × Json)) (name : String) : Option (Option Json) :=
  match members.filter fun member => member.1 == some name with
  | [] => some none
  | [member] => some (some member.2)
  | _ => none

/-- The values of named fields, in the order of the names. An object gives them by name, with
other members left alone; an array gives them by position and may stop early. Names without a
text, fields given twice and arrays that are too long are refused. -/
def fields? (names : List String) : Json → Option (List (Option Json))
  | .object members =>
    if members.all fun member => member.1.isSome then names.mapM (member? members) else none
  | .array items =>
    if items.length ≤ names.length then
      some (items.map some ++ List.replicate (names.length - items.length) none)
    else none
  | _ => none

/-- Fields as in `fields?`, but an array must give all of them. -/
def allFields? (names : List String) : Json → Option (List (Option Json))
  | .array items => if items.length == names.length then some (items.map some) else none
  | j => j.fields? names

end Json

end Intel8080
