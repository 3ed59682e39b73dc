/-
Log events and their lines. An event is made whether or not anybody listens; which of them are
shown is decided by `Log.Filter` alone.
-/
namespace AlphaCodemod
namespace Log

/-- Levels, the most urgent first. -/
inductive Level where
  | error
  | warn
  | info
  | debug
  | trace
deriving DecidableEq, Repr

namespace Level

def name : Level → String
  | .error => "ERROR"
  | .warn => "WARN"
  | .info => "INFO"
  | .debug => "DEBUG"
  | .trace => "TRACE"

/-- How much is shown up to a level. -/
def rank : Level → Nat
  | .error => 1
  | .warn => 2
  | .info => 3
  | .debug => 4
  | .trace => 5

/-- The level that a number of `-v` asks for. -/
def ofVerbosity : Nat → Level
  | 0 => .warn
  | 1 => .info
  | 2 => .debug
  | _ => .trace

end Level

/-- The part of the program that an event comes from. -/
inductive Origin where
  | edit
  | scan
  | walk
  | settings
deriving DecidableEq, Repr

/-- The target by which a filter names an origin. -/
def Origin.target : Origin → String
  | .edit => "opacity_migrate::rewrite"
  | .scan => "opacity_migrate::scanner"
  | .walk => "opacity_migrate::io::walker"
  | .settings => "opacity_migrate::config::loader"

structure Event where
  origin : Origin
  level : Level
  message : String
  fields : List (String × String)
deriving DecidableEq, Repr

/-- The line of an event: the level in five columns, the message, and the fields in order. -/
def Event.line (e : Event) : String :=
  String.ofList (List.replicate (5 - e.level.name.length) ' ') ++ e.level.name ++ " " ++
    e.message ++ String.join (e.fields.map fun (name, value) => " " ++ name ++ "=" ++ value)

end Log
end AlphaCodemod
