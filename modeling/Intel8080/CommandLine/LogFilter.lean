import Intel8080.Machine.Event

/-!
# Log filters

Which events reach the log. A filter is a comma-separated list of directives. A directive is a
level, for all events; the name of a part of the program, for all events of that part; or a name
and a level joined by an equals sign. A name covers every part whose name starts with it; of
several directives that cover an event, the longest name decides, and of equal names the last.

Embedded here is `init_logging`, with the documented rules of the filter library as far as levels
and names of parts go. Filters on spans and fields are not modelled.
-/
namespace Intel8080

def Event.part : Event → String
  | .imageLoaded .. => "i8080::asm::image"
  | .executed _ | .unimplemented _ | .halted .. | .stopped .. => "i8080::cpu::execute"
  | .trapped _ => "i8080::cpu::control"
  | .serviceCalled .. | .functionUnsupported _ | .stringUnterminated _ => "i8080::cpu::traps"

/-- A rule for the events of a part. Without a part it holds for all events, without a level it
lets none pass. -/
structure Directive where
  part : Option String
  level : Option Level
  deriving DecidableEq, Repr

structure LogFilter where
  directives : List Directive
  deriving DecidableEq, Repr

namespace LogFilter

/-- The level that a word or a digit names, where `off` names none. -/
def level? (word : String) : Option (Option Level) :=
  match word.toLower with
  | "off" | "0" => some none
  | "error" | "1" => some (some .error)
  | "warn" | "2" => some (some .warn)
  | "info" | "3" => some (some .info)
  | "debug" | "4" => some (some .debug)
  | "trace" | "5" => some (some .trace)
  | _ => none

def isNameChar (c : Char) : Bool := c.isAlphanum || c == '_' || c == ':' || c == '-'

/-- The directive that a text holds. A name alone, or with nothing after the equals sign, lets
every level pass. -/
def directive? (text : List Char) : Option Directive :=
  let name := text.takeWhile isNameChar
  match text.dropWhile isNameChar with
  | [] =>
    match level? (String.ofList name) with
    | some level => some ⟨none, level⟩
    | none => some ⟨some (String.ofList name), some .trace⟩
  | '=' :: word =>
    if name.isEmpty then none
    else if word.isEmpty then some ⟨some (String.ofList name), some .trace⟩
    else (level? (String.ofList word)).map fun level => ⟨some (String.ofList name), level⟩
  | _ => none

/-- The filter that lets events of at least this importance pass. -/
def atLeast (level : Level) : LogFilter := ⟨[⟨none, some level⟩]⟩

def everything : LogFilter := ⟨[⟨some "i8080", some .trace⟩]⟩

/-- The filter that a text holds. A text without directives lets errors pass. -/
def parse? (text : String) : Option LogFilter :=
  match (text.splitOn ",").filter (· != "") with
  | [] => some (atLeast .error)
  | words => (words.mapM fun word => directive? word.toList).map (⟨·⟩)

/-- The filter of an environment variable. One that is unset or holds no filter lets warnings
pass. -/
def ofVariable (value : Option String) : LogFilter :=
  (value.bind parse?).getD (atLeast .warn)

/-- The length of the name that a directive covers a part by, one more for each character, if it
covers it. -/
def specificity? (d : Directive) (part : String) : Option Nat :=
  match d.part with
  | none => some 0
  | some name => if name.toList.isPrefixOf part.toList then some (name.length + 1) else none

/-- The directive that decides about a part, after the one found so far. -/
def deciding (part : String) (found : Option (Nat × Directive)) :
    List Directive → Option (Nat × Directive)
  | [] => found
  | d :: rest =>
    match specificity? d part, found with
    | none, _ => deciding part found rest
    | some n, none => deciding part (some (n, d)) rest
    | some n, some (m, e) => deciding part (some (if m ≤ n then (n, d) else (m, e))) rest

def allows (f : LogFilter) (e : Event) : Bool :=
  match deciding e.part none f.directives with
  | some (_, ⟨_, some level⟩) => level.rank ≤ e.level.rank
  | _ => false

end LogFilter

end Intel8080
