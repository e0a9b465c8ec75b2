import Intel8080.Json.Value
import Intel8080.Word

/-!
# Writing JSON text

Two forms: compact, with no blanks, and indented, with an item or a member to a line and two
blanks for each level. Both append to a text, so that long arrays are written in one pass.

These are the two forms of the JSON library.
-/
namespace Intel8080.Json

/-- A character of a string, escaped where it must be. -/
def escape (c : Char) : String :=
  match c with
  | '"' => "\\\""
  | '\\' => "\\\\"
  | '\x08' => "\\b"
  | '\x0c' => "\\f"
  | '\n' => "\\n"
  | '\r' => "\\r"
  | '\t' => "\\t"
  | c => if c.toNat < 32 then "\\u" ++ wordHexLower (UInt16.ofNat c.toNat) else c.toString

/-- Appends a quoted string. A missing text is written as an empty one. -/
def appendQuoted (out : String) (text : Option String) : String :=
  ((text.getD "").toList.foldl (fun out c => out ++ escape c) (out.push '"')).push '"'

mutual

/-- Appends a value without blanks. -/
def appendCompact (out : String) : Json → String
  | .null => out ++ "null"
  | .bool b => out ++ (if b then "true" else "false")
  | .nat n => out ++ toString n
  | .numeral literal => out ++ literal
  | .string text => appendQuoted out text
  | .array items => (appendItems (out.push '[') items).push ']'
  | .object members => (appendMembers (out.push '\x7b') members).push '\x7d'

def appendItems (out : String) : List Json → String
  | [] => out
  | [item] => appendCompact out item
  | item :: rest => appendItems ((appendCompact out item).push ',') rest

def appendMembers (out : String) : List (Option String × Json) → String
  | [] => out
  | [(name, value)] => appendCompact ((appendQuoted out name).push ':') value
  | (name, value) :: rest =>
    appendMembers ((appendCompact ((appendQuoted out name).push ':') value).push ',') rest

end

def compact (j : Json) : String := appendCompact "" j

def lineBreak (level : Nat) : String := "\n" ++ String.ofList (List.replicate (2 * level) ' ')

mutual

/-- Appends a value with indented lines, the first going on where the text ends. -/
def appendIndented (out : String) (level : Nat) : Json → String
  | .null => out ++ "null"
  | .bool b => out ++ (if b then "true" else "false")
  | .nat n => out ++ toString n
  | .numeral literal => out ++ literal
  | .string text => appendQuoted out text
  | .array [] => out ++ "[]"
  | .array (item :: rest) =>
    appendIndentedItems (out.push '[') (level + 1) (item :: rest) ++ lineBreak level ++ "]"
  | .object [] => out ++ "\x7b\x7d"
  | .object (member :: rest) =>
    appendIndentedMembers (out.push '\x7b') (level + 1) (member :: rest) ++ lineBreak level ++
      "\x7d"

/-- Appends items, each on a line of its own. -/
def appendIndentedItems (out : String) (level : Nat) : List Json → String
  | [] => out
  | [item] => appendIndented (out ++ lineBreak level) level item
  | item :: rest =>
    appendIndentedItems ((appendIndented (out ++ lineBreak level) level item).push ',') level rest

/-- Appends members, each on a line of its own. -/
def appendIndentedMembers (out : String) (level : Nat) :
    List (Option String × Json) → String
  | [] => out
  | [(name, value)] =>
    appendIndented (appendQuoted (out ++ lineBreak level) name ++ ": ") level value
  | (name, value) :: rest =>
    appendIndentedMembers
      ((appendIndented (appendQuoted (out ++ lineBreak level) name ++ ": ") level value).push ',')
      level rest

end

def indented (j : Json) : String := appendIndented "" 0 j

end Intel8080.Json
