/-
Directives of a log filter. A directive gives a level to the events of a target, to the events that
have a field, or to both: `target=level`, `[{field}]=level`, `target[{field}]=level`. It may also
name a span, or a value for its field. Events here happen outside of any span, so such a directive
is about none of them.
-/
import AlphaCodemod.Log.Event
import AlphaCodemod.Log.ValuePattern
import AlphaCodemod.Number.Decimal
import AlphaCodemod.Text.Alphanumeric
import AlphaCodemod.Text.Blank
import AlphaCodemod.Text.Utf8

namespace AlphaCodemod
namespace Log

/-- Events of the target, or of any, that have the field, if one is named, are shown down to the
level; without a level none is. -/
structure Directive where
  target : Option (List Char) := none
  field : Option (List Char) := none
  /-- about spans, or values in them -/
  ofSpans : Bool := false
  level : Option Level := some .trace
deriving DecidableEq, Repr

namespace Directive

/-! ## Deciding -/

/-- Whether a directive is about an event: its target is where the event's begins, and the event has
its field. The message is a field of every event. -/
def concerns (d : Directive) (e : Event) : Bool :=
  !d.ofSpans && d.target.all (·.isPrefixOf e.origin.target.toList) &&
    d.field.all fun name => ("message" :: e.fields.map (·.1)).any (·.toList = name)

/-- How near a directive's target is to its events; any target is nearer than none. -/
def nearness (d : Directive) : Nat :=
  match d.target with
  | none => 0
  | some t => t.length + 1

/-- Whether a field gives way to another: any field is nearer than none, and of two the one that
comes later in the order of names. -/
def fieldYields : Option (List Char) → Option (List Char) → Bool
  | none, _ => true
  | some _, none => false
  | some a, some b => decide (¬ b < a)

/-- Whether a directive gives way to another that is about the same event and was given later. -/
def yields (d later : Directive) : Bool :=
  decide (d.nearness < later.nearness) ||
    (d.nearness == later.nearness && fieldYields d.field later.field)

def shows (d : Directive) (e : Event) : Bool :=
  match d.level with
  | none => false
  | some l => decide (e.level.rank ≤ l.rank)

/-! ## Reading -/

def levelNames : List (List Char × Option Level) :=
  [("off".toList, none), ("error".toList, some .error), ("warn".toList, some .warn),
    ("info".toList, some .info), ("debug".toList, some .debug), ("trace".toList, some .trace)]

/-- A level by its name, in any case, or by its number, which is its place among the names. -/
def readLevel? (cs : List Char) : Option (Option Level) :=
  match levelNames.lookup (cs.map Char.toLower) with
  | some level => some level
  | none =>
    let digits := match cs with
      | '+' :: ds => ds
      | ds => ds
    if digits.isEmpty || !digits.all isDigit then none
    else (levelNames[digitsValue digits]?).map (·.2)

/-- What a target may begin with. -/
def opensTarget (c : Char) : Bool := isAlphanumeric c || c == '-' || c == ':' || c == '_'

/-- A field with the value that is asked for, if one is. -/
def readField? (cs : List Char) (d : Directive) : Option Directive :=
  match cs, cs.dropWhile (· ≠ '=') with
  | [], _ => none
  | _, [] => some { d with field := some cs }
  | _, _ :: value =>
    if isValuePattern (value.takeWhile (· ≠ '=')) then
      some { d with field := some (cs.takeWhile (· ≠ '=')), ofSpans := true }
    else none

/-- How far a directive has been read: what stands at a place, and where that began. -/
inductive Reading where
  | start
  | levelOrTarget
  | span (start : Nat)
  | field (start : Nat)
  | fields
  | target
  | level (start : Nat)
deriving DecidableEq, Repr

/-- What follows the given number of bytes, unless they end within a character. -/
def dropBytes? : Nat → List Char → Option (List Char)
  | 0, cs => some cs
  | _ + 1, [] => none
  | n + 1, c :: cs =>
    if Utf8.size [c] ≤ n + 1 then dropBytes? (n + 1 - Utf8.size [c]) cs else none

/-- The given number of bytes, unless they end within a character. -/
def takeBytes? : Nat → List Char → Option (List Char)
  | 0, _ => some []
  | _ + 1, [] => none
  | n + 1, c :: cs =>
    if Utf8.size [c] ≤ n + 1 then (takeBytes? (n + 1 - Utf8.size [c]) cs).map (c :: ·) else none

/-- A text from one place to another. -/
def cut? (cs : List Char) (start stop : Nat) : Option (List Char) :=
  (dropBytes? start cs).bind (takeBytes? (stop - start))

/-- The characters of a text with their places, which count bytes. -/
def placed : Nat → List Char → List (Nat × Char)
  | _, [] => []
  | n, c :: cs => (n, c) :: placed (n + Utf8.size [c]) cs

/-- Takes in the character at a place. The parts of a directive are cut out of the text `cs` by the
places of the marks around them. -/
def advance? (cs : List Char) (place : Nat) (c : Char) :
    Reading × Directive → Option (Reading × Directive)
  | (.start, d) =>
    if c = '[' then some (.span (place + 1), d)
    else if opensTarget c then some (.levelOrTarget, d)
    else none
  | (.levelOrTarget, d) =>
    if c = '=' then do
      return (.level (place + 1), { d with target := some (← cut? cs 0 place) })
    else if c = '[' then do
      return (.span (place + 1), { d with target := some (← cut? cs 0 place) })
    else some (.levelOrTarget, d)
  | (.span start, d) =>
    if c = ']' then do
      let _ ← cut? cs start place
      return (.target, { d with ofSpans := true })
    else if c = '{' then do
      return (.field (place + 1), { d with ofSpans := !(← cut? cs start place).isEmpty })
    else some (.span start, d)
  | (.field start, d) =>
    if c = '}' then do return (.fields, ← readField? (← cut? cs start place) d)
    else some (.field start, d)
  | (.fields, d) => if c = ']' then some (.target, d) else none
  | (.target, d) => if c = '=' then some (.level (place + 1), d) else none
  | (.level start, d) => some (.level start, d)

/-- What a directive comes to at the end of its text. Where no level is given, everything is
shown. -/
def finish? (cs : List Char) : Reading × Directive → Option Directive
  | (.levelOrTarget, d) =>
    match readLevel? cs with
    | some level => some { d with level := level }
    | none => some { d with target := some cs }
  | (.level start, d) => do
    match ← dropBytes? start cs with
    | [] => return d
    | level => return { d with level := ← readLevel? level }
  | (.target, d) => some d
  | _ => none

/-- A text without the blanks around it. -/
def trimmed (cs : List Char) : List Char :=
  ((cs.dropWhile isBlank).reverse.dropWhile isBlank).reverse

/-- A directive. Its marks are looked for, and their places counted, without the blanks around it;
its parts are cut out of the whole text. -/
def read? (cs : List Char) : Option Directive := do
  let read ← (placed 0 (trimmed cs)).foldlM (fun read (place, c) => advance? cs place c read)
    (Reading.start, {})
  finish? cs read

end Directive
end Log
end AlphaCodemod
