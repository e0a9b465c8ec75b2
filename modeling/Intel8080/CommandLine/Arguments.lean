import Intel8080.Address

/-!
# Arguments

The commands and their options. An option has a long name and may have a letter. Letters can be
joined behind one dash; a value stands in the next argument, behind an equals sign, or directly
behind the letter. No option may be given twice, a separate value cannot look like an option, and
after two dashes nothing is an option.

Embedded here are the declared commands and options, read by the documented rules of the argument
library. The texts of refused arguments are not part of that.
-/
namespace Intel8080.CommandLine

structure OptionSpec where
  name : String
  letter : Option Char
  takesValue : Bool
  deriving DecidableEq, Repr

/-- What an argument turns out to be. -/
inductive Item where
  | flag (name : String)
  | value (name : String) (text : String)
  | positional (text : String)
  deriving DecidableEq, Repr

/-- Why arguments are refused. -/
inductive UsageError where
  | unknownCommand (text : String)
  | unknownOption (text : String)
  | missingValue (name : String)
  | unexpectedValue (name : String)
  | repeatedOption (name : String)
  | invalidValue (name : String) (text : String)
  | missingImage
  | extraArgument (text : String)
  deriving DecidableEq, Repr

def UsageError.message : UsageError → String
  | .unknownCommand text => "unrecognized subcommand '" ++ text ++ "'"
  | .unknownOption text => "unexpected argument '" ++ text ++ "' found"
  | .missingValue name => "a value is required for '--" ++ name ++ "' but none was supplied"
  | .unexpectedValue name => "unexpected value for '--" ++ name ++ "' found"
  | .repeatedOption name => "the argument '--" ++ name ++ "' cannot be used multiple times"
  | .invalidValue name text => "invalid value '" ++ text ++ "' for '--" ++ name ++ "'"
  | .missingImage => "the image was not provided"
  | .extraArgument text => "unexpected argument '" ++ text ++ "' found"

/-! ## Reading items -/

/-- Whether an argument is read as an option: a dash and something after it. -/
def looksLikeOption : List Char → Bool
  | '-' :: _ :: _ => true
  | _ => false

/-- The items of joined letters, and the option that still wants its value. -/
def readLetters (specs : List OptionSpec) :
    List Char → Except UsageError (List Item × Option OptionSpec)
  | [] => .ok ([], none)
  | c :: rest =>
    match specs.find? fun spec => spec.letter == some c with
    | none => .error (.unknownOption ("-" ++ c.toString))
    | some spec =>
      if spec.takesValue then
        match rest with
        | [] => .ok ([], some spec)
        | '=' :: text => .ok ([.value spec.name (String.ofList text)], none)
        | text => .ok ([.value spec.name (String.ofList text)], none)
      else
        match readLetters specs rest with
        | .error e => .error e
        | .ok (items, wanting) => .ok (.flag spec.name :: items, wanting)

/-- The item of a long option, or the option that still wants its value. -/
def readLong (specs : List OptionSpec) (text : List Char) :
    Except UsageError (List Item × Option OptionSpec) :=
  let name := String.ofList (text.takeWhile (· != '='))
  let attached := match text.dropWhile (· != '=') with
    | [] => none
    | _ :: value => some (String.ofList value)
  match specs.find? fun spec => spec.name == name with
  | none => .error (.unknownOption ("--" ++ name))
  | some spec =>
    match spec.takesValue, attached with
    | true, some value => .ok ([.value name value], none)
    | true, none => .ok ([], some spec)
    | false, some _ => .error (.unexpectedValue name)
    | false, none => .ok ([.flag name], none)

/-- The items of the arguments. The flag says that two dashes were passed. -/
def readItems (specs : List OptionSpec) (plain : Bool) :
    List String → Except UsageError (List Item)
  | [] => .ok []
  | argument :: rest =>
    if plain then (readItems specs true rest).map (.positional argument :: ·)
    else
      match argument.toList with
      | ['-', '-'] => readItems specs true rest
      | '-' :: c :: text =>
        let found := if c == '-' then readLong specs text else readLetters specs (c :: text)
        match found with
        | .error e => .error e
        | .ok (items, none) => (readItems specs false rest).map (items ++ ·)
        | .ok (items, some spec) =>
          match rest with
          | [] => .error (.missingValue spec.name)
          | value :: rest =>
            if looksLikeOption value.toList then .error (.missingValue spec.name)
            else
              (readItems specs false rest).map fun more =>
                items ++ .value spec.name value :: more
      | _ => (readItems specs false rest).map (.positional argument :: ·)

/-! ## Looking items up -/

def Item.name? : Item → Option String
  | .flag name | .value name _ => some name
  | .positional _ => none

def firstRepeated? : List String → Option String
  | [] => none
  | name :: rest => if rest.contains name then some name else firstRepeated? rest

def hasFlag (items : List Item) (name : String) : Bool := items.contains (.flag name)

def valueOf? (items : List Item) (name : String) : Option String :=
  items.findSome? fun item =>
    match item with
    | .value n text => if n == name then some text else none
    | _ => none

def positionals (items : List Item) : List String :=
  items.filterMap fun item =>
    match item with
    | .positional text => some text
    | _ => none

/-- The value of an option read as an address, if it is given. -/
def addressOf? (items : List Item) (name : String) : Except UsageError (Option UInt16) :=
  match valueOf? items name with
  | none => .ok none
  | some text =>
    match parseAddress text with
    | .ok address => .ok (some address)
    | .error _ => .error (.invalidValue name text)

/-- The value of an option read as a count, if it is given. -/
def countOf? (items : List Item) (name : String) : Except UsageError (Option UInt64) :=
  match valueOf? items name with
  | none => .ok none
  | some text =>
    match parseCount? text with
    | some n => .ok (some n)
    | none => .error (.invalidValue name text)

/-! ## Commands -/

structure LoadOptions where
  image : String
  base : Option UInt16
  entry : Option UInt16
  cpm : Bool
  /-- The path of a configuration file, whose values the options override. -/
  config : Option String
  deriving DecidableEq, Repr

structure RunOptions where
  load : LoadOptions
  stackPointer : Option UInt16
  maxSteps : Option UInt64
  /-- Whether every event is logged. -/
  trace : Bool
  /-- Whether the machine is printed when the run is over. -/
  dumpState : Bool
  deriving DecidableEq, Repr

inductive Command where
  | run (options : RunOptions)
  | debug (load : LoadOptions)
  | disassemble (image : String) (base : UInt16)
  | selfTest
  /-- No command: the program introduces itself. -/
  | introduce
  | showVersion
  | showHelp
  deriving DecidableEq, Repr

def helpSpec : OptionSpec := ⟨"help", some 'h', false⟩

def loadSpecs : List OptionSpec :=
  [⟨"base", some 'b', true⟩, ⟨"entry", some 'e', true⟩, ⟨"cpm", none, false⟩,
    ⟨"config", none, true⟩, helpSpec]

def runSpecs : List OptionSpec :=
  loadSpecs ++ [⟨"sp", none, true⟩, ⟨"max-steps", some 'm', true⟩, ⟨"trace", some 't', false⟩,
    ⟨"dump-state", none, false⟩]

def disassembleSpecs : List OptionSpec := [⟨"base", some 'b', true⟩, helpSpec]

def imageOf (items : List Item) : Except UsageError String :=
  match positionals items with
  | [] => .error .missingImage
  | [image] => .ok image
  | _ :: extra :: _ => .error (.extraArgument extra)

def loadOptionsOf (items : List Item) : Except UsageError LoadOptions := do
  return {
    image := ← imageOf items
    base := ← addressOf? items "base"
    entry := ← addressOf? items "entry"
    cpm := hasFlag items "cpm"
    config := valueOf? items "config" }

def runOptionsOf (items : List Item) : Except UsageError RunOptions := do
  return {
    load := ← loadOptionsOf items
    stackPointer := ← addressOf? items "sp"
    maxSteps := ← countOf? items "max-steps"
    trace := hasFlag items "trace"
    dumpState := hasFlag items "dump-state" }

/-- The command made of the items of its arguments, unless help is asked for. -/
def withItems (specs : List OptionSpec) (arguments : List String)
    (make : List Item → Except UsageError Command) : Except UsageError Command :=
  match readItems specs false arguments with
  | .error e => .error e
  | .ok items =>
    match firstRepeated? (items.filterMap Item.name?) with
    | some name => .error (.repeatedOption name)
    | none => if hasFlag items "help" then .ok .showHelp else make items

def commandNamed (name : String) (arguments : List String) : Except UsageError Command :=
  match name with
  | "run" => withItems runSpecs arguments fun items => (runOptionsOf items).map .run
  | "debug" => withItems loadSpecs arguments fun items => (loadOptionsOf items).map .debug
  | "disasm" => withItems disassembleSpecs arguments fun items => do
    return .disassemble (← imageOf items) ((← addressOf? items "base").getD 0)
  | "test" => withItems [helpSpec] arguments fun items =>
    match positionals items with
    | [] => .ok .selfTest
    | extra :: _ => .error (.extraArgument extra)
  | "help" =>
    match arguments with
    | [] => .ok .showHelp
    | topic :: _ =>
      if ["run", "debug", "disasm", "test", "help"].contains topic then .ok .showHelp
      else .error (.unknownCommand topic)
  | _ => .error (.unknownCommand name)

def parse : List String → Except UsageError Command
  | [] => .ok .introduce
  | first :: rest =>
    match first.toList with
    | ['-', '-'] =>
      match rest with
      | [] => .ok .introduce
      | extra :: _ => .error (.extraArgument extra)
    | '-' :: 'V' :: _ => .ok .showVersion
    | '-' :: 'h' :: _ => .ok .showHelp
    | '-' :: _ :: _ =>
      if first == "--version" then .ok .showVersion
      else if first == "--help" then .ok .showHelp
      else .error (.unknownOption first)
    | _ => commandNamed first rest

end Intel8080.CommandLine
