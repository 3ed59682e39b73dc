/-
Command-line arguments: what a command line asks for, and the ways in which it can be refused. A
command line is text here, and so are the paths on it; arguments with bytes that spell no text are
left out.
-/
import AlphaCodemod.Text.Terminal

namespace AlphaCodemod

/-- What a command line asks for. -/
structure Arguments where
  path : Option String := none
  dryRun : Bool := false
  config : Option String := none
  extension : Option String := none
  exclude : List String := []
  verbosity : Nat := 0
deriving DecidableEq, Repr

namespace Arguments

/-- The arguments that take a value. -/
inductive Slot where
  | path
  | config
  | extension
  | exclude
deriving DecidableEq, Repr

/-- An argument with its value, as usage texts write it. -/
def Slot.usage : Slot → String
  | .path => "[PATH]"
  | .config => "--config <CONFIG>"
  | .extension => "--extension <EXTENSION>"
  | .exclude => "--exclude <GLOB>"

/-- The arguments that take none. -/
inductive Switch where
  | dryRun
  | verbose
  | help
  | version
deriving DecidableEq, Repr

def Switch.usage : Switch → String
  | .dryRun => "--dry-run"
  | .verbose => "--verbose..."
  | .help => "--help"
  | .version => "--version"

/-- Why a command line is refused. -/
inductive Refusal where
  | unknownArgument (argument : String)
  | missingValue (slot : Slot)
  | repeatedValue (slot : Slot)
  | repeatedSwitch (switch : Switch)
  | unneededValue (value : String) (switch : Switch)
deriving DecidableEq, Repr

/-- The refusal in words. What the command line brought along may not steer a terminal. -/
def Refusal.message (m : Medium) : Refusal → String
  | .unknownArgument a => "error: unexpected argument '" ++ withoutControls m a ++ "' found"
  | .missingValue s => "error: a value is required for '" ++ s.usage ++ "' but none was supplied"
  | .repeatedValue s => "error: the argument '" ++ s.usage ++ "' cannot be used multiple times"
  | .repeatedSwitch s => "error: the argument '" ++ s.usage ++ "' cannot be used multiple times"
  | .unneededValue v s =>
    "error: unexpected value '" ++ withoutControls m v ++ "' for '" ++ s.usage ++
      "' found; no more were expected"

/-- Why a command line leads to no run: it is refused, or asks for a text instead. -/
inductive Halt where
  | refused (why : Refusal)
  | help (long : Bool)
  | version
deriving DecidableEq, Repr

end Arguments
end AlphaCodemod
