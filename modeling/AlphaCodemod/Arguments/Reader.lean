/-
Reading a command line from left to right. A value is put into its slot only when the next argument
has been understood, or at the end: until then it waits, so an argument that is unknown, or has a
value it does not take, is refused before the value that waits. Help and version act when they are
reached.
-/
import AlphaCodemod.Arguments.Basic

namespace AlphaCodemod
namespace Arguments

/-- The arguments read so far, and the slot whose value waits, with the value once it is there. -/
structure Reading where
  read : Arguments := {}
  waiting : Option (Slot × Option String) := none
  pathSeen : Bool := false
deriving DecidableEq, Repr

/-! ## Slots and switches -/

/-- Puts a value into its slot. Patterns add up, the others are given once; paths are not empty. -/
def put (a : Arguments) (slot : Slot) (value : String) : Except Halt Arguments :=
  match slot with
  | .path =>
    if value.isEmpty then throw (.refused (.missingValue .path))
    else return { a with path := some value }
  | .config =>
    if a.config.isSome then throw (.refused (.repeatedValue .config))
    else if value.isEmpty then throw (.refused (.missingValue .config))
    else return { a with config := some value }
  | .extension =>
    if a.extension.isSome then throw (.refused (.repeatedValue .extension))
    else return { a with extension := some value }
  | .exclude => return { a with exclude := a.exclude ++ [value] }

/-- Verbosity is counted up to here. -/
def maxVerbosity : Nat := 255

namespace Reading

/-- Puts the value that waits into its slot. -/
def settle (r : Reading) : Except Halt Reading :=
  match r.waiting with
  | none => return r
  | some (slot, none) => throw (.refused (.missingValue slot))
  | some (slot, some value) => return { r with read := ← r.read.put slot value, waiting := none }

/-- Sets a switch; `long` says how it was spelled. -/
def switch (r : Reading) (s : Switch) (long : Bool) : Except Halt Reading := do
  let r ← r.settle
  match s with
  | .dryRun =>
    if r.read.dryRun then throw (.refused (.repeatedSwitch .dryRun))
    else return { r with read := { r.read with dryRun := true } }
  | .verbose =>
    return { r with read := { r.read with verbosity := min (r.read.verbosity + 1) maxVerbosity } }
  | .help => throw (.help long)
  | .version => throw .version

/-- A slot with a value that is attached to it, or with one to come. -/
def slot (r : Reading) (s : Slot) (attached : Option String) : Except Halt Reading := do
  let r ← r.settle
  match attached with
  | some value => return { r with read := ← r.read.put s value }
  | none => return { r with waiting := some (s, none) }

/-- An argument that stands for itself: the path, once. -/
def positional (r : Reading) (argument : String) : Except Halt Reading := do
  if r.pathSeen then throw (.refused (.unknownArgument argument))
  let r ← r.settle
  return { r with waiting := some (.path, some argument), pathSeen := true }

end Reading

/-! ## Arguments -/

/-- What a long name stands for. -/
def longName (name : String) : Option (Slot ⊕ Switch) :=
  match name with
  | "config" => some (.inl .config)
  | "extension" => some (.inl .extension)
  | "exclude" => some (.inl .exclude)
  | "dry-run" => some (.inr .dryRun)
  | "verbose" => some (.inr .verbose)
  | "help" => some (.inr .help)
  | "version" => some (.inr .version)
  | _ => none

def shortName (c : Char) : Option Switch :=
  match c with
  | 'v' => some .verbose
  | 'h' => some .help
  | 'V' => some .version
  | _ => none

/-- The name of a long argument, and the value behind its first `=` if it has one. -/
def splitValue (cs : List Char) : String × Option String :=
  (String.ofList (cs.takeWhile (· ≠ '=')),
    match cs.dropWhile (· ≠ '=') with
    | [] => none
    | _ :: value => some (String.ofList value))

namespace Reading

/-- A long argument, from behind its dashes on. -/
def long (r : Reading) (cs : List Char) : Except Halt Reading :=
  let (name, value) := splitValue cs
  match longName name, value with
  | some (.inl s), _ => r.slot s value
  | some (.inr s), none => r.switch s true
  | some (.inr s), some value => throw (.refused (.unneededValue value s))
  | none, _ => throw (.refused (.unknownArgument ("--" ++ name)))

/-- A cluster of short switches, from behind its dash on. -/
def short (r : Reading) (cs : List Char) : Except Halt Reading :=
  cs.foldlM
    (fun r c =>
      match shortName c with
      | some s => r.switch s false
      | none => throw (.refused (.unknownArgument ("-" ++ String.ofList [c]))))
    r

/-- An argument without dashes: the value that a slot waits for, or the path. -/
def plain (r : Reading) (argument : String) : Except Halt Reading :=
  match r.waiting with
  | some (slot, none) => return { r with waiting := some (slot, some argument) }
  | _ => r.positional argument

/-- Reads arguments; behind `--` none of them is a switch or a slot. -/
def arguments (r : Reading) : List String → Except Halt Reading
  | [] => r.settle
  | a :: rest =>
    match a.toList with
    | ['-', '-'] => do (← rest.foldlM positional r).settle
    | '-' :: '-' :: cs => do (← r.long cs).arguments rest
    | '-' :: c :: cs => do (← r.short (c :: cs)).arguments rest
    | _ => do (← r.plain a).arguments rest

end Reading

/-- Reads a command line. Without `--config`, the settings file is the one that the environment
names, which must not be the empty one. -/
def parse (environment : Option String) (arguments : List String) : Except Halt Arguments := do
  let a := (← Reading.arguments {} arguments).read
  match a.config, environment with
  | none, some value => a.put .config value
  | _, _ => return a

end Arguments
end AlphaCodemod
