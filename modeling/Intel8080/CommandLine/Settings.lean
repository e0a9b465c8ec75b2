import Intel8080.CommandLine.Arguments
import Intel8080.Image
import Intel8080.RunConfig

/-!
# Effective configurations

What a run is configured with: the values of the file, then the defaults of a CP/M program where
they apply, then the options. A load address of zero counts as one that was not chosen, so that
asking for CP/M moves it to the usual place.

Embedded here are `resolve_config` and the reading of a configuration from a file.
-/
namespace Intel8080.CommandLine

/-- Why there is no configuration. -/
inductive ConfigError where
  | unreadable (path : String) (cause : ReadFailure)
  /-- The text of the file is no configuration. -/
  | malformed
  deriving DecidableEq, Repr

def ConfigError.message : ConfigError → String
  | .unreadable path cause => "cannot read " ++ path ++ ": " ++ cause.message
  | .malformed => "invalid config: not a run configuration"

def textOfFile (contents : FileContents) : Except ReadFailure String :=
  match contents with
  | .error cause => .error cause
  | .ok bytes =>
    match String.fromUTF8? ⟨bytes.toArray⟩ with
    | some text => .ok text
    | none => .error .notText

def configOfFile (path : String) (contents : FileContents) : Except ConfigError RunConfig :=
  match textOfFile contents with
  | .error cause => .error (.unreadable path cause)
  | .ok text =>
    match RunConfig.parse? text with
    | some config => .ok config
    | none => .error .malformed

/-- A configuration for CP/M: with the services, and at the usual address if it has none. -/
def withCpm (c : RunConfig) : RunConfig :=
  { c with
    cpm := true
    loadAddress := if c.loadAddress == 0 then RunConfig.cpmLoadAddress else c.loadAddress }

def LoadOptions.applyTo (o : LoadOptions) (c : RunConfig) : RunConfig :=
  let c := if o.cpm then withCpm c else c
  { c with
    loadAddress := o.base.getD c.loadAddress
    entryPoint := o.entry <|> c.entryPoint }

def RunOptions.applyTo (o : RunOptions) (c : RunConfig) : RunConfig :=
  let c := o.load.applyTo c
  { c with
    stackPointer := o.stackPointer <|> c.stackPointer
    maxSteps := o.maxSteps <|> c.maxSteps }

/-- The configuration that options are applied to: the one of the named file, or else the
default. -/
def baseConfig (files : String → FileContents) (o : LoadOptions) : Except ConfigError RunConfig :=
  match o.config with
  | none => .ok .default
  | some path => configOfFile path (files path)

end Intel8080.CommandLine
