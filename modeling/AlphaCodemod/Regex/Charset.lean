/-
Sets of characters in regular expressions, between brackets: members, ranges, named sets and sets in
sets, and what is left of two sets by an operation. A reader of sets also measures them: a set is as
high as the sets in it go deep.
-/
import AlphaCodemod.Regex.Escape

namespace AlphaCodemod
namespace Regex

/-- The height of several parts together; a single part stands for itself. -/
def heightOf : List Nat → Nat
  | [] => 0
  | [h] => h
  | hs => hs.foldl max 0 + 1

/-! ## Members and ranges -/

/-- One member of a set, or one end of a range. -/
def member? (m : Mode) : List Char → Option (Escape × List Char)
  | [] => none
  | '\\' :: cs => do
    let (found, rest) ← escape? m cs
    guard (!found.isRefusedInSet m)
    return (found, rest)
  | c :: cs => do
    guard (m.unicode || decide (c.toNat < 128))
    return (.character c.toNat false, cs)

/-- What follows a member or a range. A range goes up, from one character to another. -/
def range? (m : Mode) (cs : List Char) : Option (List Char) := do
  let (low, rest) ← member? m cs
  match m.skip rest with
  | '-' :: rest =>
    if m.peek? rest = some ']' ∨ m.peek? rest = some '-' then return '-' :: rest
    match low, ← member? m (m.skip rest) with
    | .character a _, (.character b _, rest) => if a ≤ b then return rest else none
    | _, _ => none
  | rest => return rest

/-! ## Named sets -/

/-- The sets that go by a name, between `[:` and `:]`. -/
def setNames : List (List Char) :=
  ["alnum", "alpha", "ascii", "blank", "cntrl", "digit", "graph", "lower", "print", "punct",
    "space", "upper", "word", "xdigit"].map String.toList

/-- Whether a named set is negated, and what follows it, from behind its opening bracket on. -/
def namedSet? : List Char → Option (Bool × List Char)
  | ':' :: cs =>
    let (negated, cs) := match cs with
      | '^' :: cs => (true, cs)
      | cs => (false, cs)
    match cs.dropWhile (· ≠ ':') with
    | ':' :: ']' :: rest =>
      if cs.takeWhile (· ≠ ':') ∈ setNames then some (negated, rest) else none
    | _ => none
  | _ => none

/-! ## Sets -/

/-- What has been read of a set: the height of the left side of an operation, and the heights of the
parts behind it. -/
structure SetReading where
  left : Option Nat := none
  parts : List Nat := []
deriving DecidableEq, Repr

namespace SetReading

def add (r : SetReading) (height : Nat) : SetReading := { r with parts := height :: r.parts }

/-- The height of what has been read. -/
def height (r : SetReading) : Nat :=
  match r.left with
  | none => heightOf r.parts
  | some left => max left (heightOf r.parts) + 1

/-- Makes what has been read the left side of an operation. -/
def operate (r : SetReading) : SetReading := { left := some r.height }

end SetReading

/-- What follows the start of a set, from behind its opening bracket on. In a pattern about bytes no
set is negated. -/
def openSet? (m : Mode) (cs : List Char) : Option (List Char) :=
  match m.skip cs with
  | '^' :: rest => if m.unicode then some rest else none
  | rest => some rest

/-- The height of a set, and what follows it. As long as nothing else has come, hyphens stand for
themselves, and so does a closing bracket that comes first. -/
def set? (m : Mode) : Nat → Bool → SetReading → List Char → Option (Nat × List Char)
  | 0, _, _, _ => none
  | bound + 1, opening, r, cs =>
    match m.skip cs with
    | [] => none
    | c :: rest =>
      if opening && c == '-' then set? m bound true (r.add 0) rest
      else if opening && c == ']' && r.parts.isEmpty then set? m bound false (r.add 0) rest
      else
        match c, rest with
        | ']', rest => some (r.height + 1, rest)
        | '[', rest =>
          match namedSet? rest with
          | some (negated, rest) =>
            if negated && !m.unicode then none else set? m bound false (r.add 0) rest
          | none => do
            let (height, rest) ← set? m bound true {} (← openSet? m rest)
            set? m bound false (r.add height) rest
        | '&', '&' :: rest => set? m bound false r.operate rest
        | '-', '-' :: rest => set? m bound false r.operate rest
        | '~', '~' :: rest => set? m bound false r.operate rest
        | c, rest => do set? m bound false (r.add 0) (← range? m (c :: rest))

/-- The height of a set, from behind its opening bracket on, and what follows it. -/
def bracketed? (m : Mode) (cs : List Char) : Option (Nat × List Char) := do
  set? m (cs.length + 1) true {} (← openSet? m cs)

end Regex
end AlphaCodemod
