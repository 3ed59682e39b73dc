/-
Regular expressions, as far as it matters which texts are some. A pattern is a choice between
sequences of parts: characters, places, sets, groups, flags, and repetitions of these. It may not go
deeper than a limit. Loops take their bound from the length of the text.
-/
import AlphaCodemod.Regex.Charset
import AlphaCodemod.Text.Alphanumeric

namespace AlphaCodemod
namespace Regex

/-- How high a pattern may be: groups, repetitions, choices, sequences and sets each add one to the
height of what they hold. -/
def heightLimit : Nat := 250

/-! ## Heads of groups -/

def opensName (c : Char) : Bool := c == '_' || isAlphabetic c

def continuesName (c : Char) : Bool :=
  c == '_' || c == '.' || c == '[' || c == ']' || isAlphanumeric c

/-- What an opening bracket begins. -/
inductive Head where
  /-- a group with flags for what is in it -/
  | group (flags : List Char)
  | named (name : List Char)
  /-- flags in brackets of their own, for what follows -/
  | flags (flags : List Char)
deriving DecidableEq, Repr

/-- The name of a group and what follows it. -/
def groupName? (cs : List Char) : Option (Head × List Char) :=
  match cs.takeWhile (· ≠ '>'), cs.dropWhile (· ≠ '>') with
  | c :: name, _ :: rest =>
    if opensName c && name.all continuesName then some (.named (c :: name), rest) else none
  | _, _ => none

/-- The flags of a group, or by themselves, and what follows them. -/
def groupFlags? (cs : List Char) : Option (Head × List Char) :=
  let isFlag (c : Char) : Bool := c != ':' && c != ')'
  let flags := cs.takeWhile isFlag
  if !areFlags flags then none
  else
    match cs.dropWhile isFlag with
    | ':' :: rest => some (.group flags, rest)
    | ')' :: rest => if flags.isEmpty then none else some (.flags flags, rest)
    | _ => none

/-- The head of a group, from behind its opening bracket on, and what follows it. -/
def head? : List Char → Option (Head × List Char)
  | '?' :: 'P' :: '<' :: cs => groupName? cs
  | '?' :: '<' :: cs => groupName? cs
  | '?' :: cs => groupFlags? cs
  | cs => some (.group [], cs)

/-! ## Patterns -/

/-- A part of a sequence: flags, or something of a height that can be repeated. -/
inductive Part where
  | flags
  | item (height : Nat)
deriving DecidableEq, Repr

def Part.height : Part → Nat
  | .flags => 0
  | .item h => h

/-- What has been read of a group: the heights of the sequences that are complete, and the parts of
the one at hand, the last of them first. Names of groups are those of the whole pattern. -/
structure Reading where
  mode : Mode := {}
  names : List (List Char) := []
  choices : List Nat := []
  parts : List Part := []
deriving DecidableEq, Repr

namespace Reading

def add (r : Reading) (p : Part) : Reading := { r with parts := p :: r.parts }

def sequenceHeight (r : Reading) : Nat := heightOf (r.parts.map Part.height)

def height (r : Reading) : Nat := heightOf (r.sequenceHeight :: r.choices)

/-- Completes the sequence at hand. -/
def choose (r : Reading) : Reading :=
  { r with choices := r.sequenceHeight :: r.choices, parts := [] }

/-- Repeats the last part. -/
def repeat? (r : Reading) : Option Reading :=
  match r.parts with
  | .item h :: parts => some { r with parts := .item (h + 1) :: parts }
  | _ => none

/-- Switches modes for what follows. -/
def switch (r : Reading) (flags : List Char) : Reading :=
  { r.add .flags with mode := r.mode.switch flags }

/-- The start of a group within. A name is given once. -/
def enter? (r : Reading) : Head → Option Reading
  | .group flags => some { mode := r.mode.switch flags, names := r.names }
  | .named name =>
    if r.names.contains name then none else some { mode := r.mode, names := name :: r.names }
  | .flags _ => none

/-- Goes on behind a group that was read. -/
def leave (r inner : Reading) : Reading :=
  { r.add (.item (inner.height + 1)) with names := inner.names }

end Reading

/-- Whether a repetition mark is lazy is said by a question mark right behind it. -/
def afterLazy : List Char → List Char
  | '?' :: rest => rest
  | rest => rest

/-- Reads a group up to its closing bracket, or to the end of the text. -/
def read? : Nat → Reading → List Char → Option (Reading × List Char)
  | 0, _, _ => none
  | bound + 1, r, cs =>
    match r.mode.skip cs with
    | [] => some (r, [])
    | c :: rest =>
      match c with
      | ')' => some (r, c :: rest)
      | '|' => read? bound r.choose rest
      | '(' => do
        match ← head? (r.mode.skip rest) with
        | (.flags flags, rest) => read? bound (r.switch flags) rest
        | (head, rest) =>
          match ← read? bound (← r.enter? head) rest with
          | (inner, ')' :: rest) => read? bound (r.leave inner) rest
          | _ => none
      | '[' => do
        let (height, rest) ← bracketed? r.mode rest
        read? bound (r.add (.item height)) rest
      | '*' => do read? bound (← r.repeat?) (afterLazy rest)
      | '+' => do read? bound (← r.repeat?) (afterLazy rest)
      | '?' => do read? bound (← r.repeat?) (afterLazy rest)
      | '{' => none
      | '\\' => do
        let (found, rest) ← escape? r.mode rest
        guard (!found.isRefused r.mode)
        read? bound (r.add (.item 0)) rest
      | '.' => if r.mode.unicode then read? bound (r.add (.item 0)) rest else none
      | _ => read? bound (r.add (.item 0)) rest

end Regex

/-- Whether a text is a regular expression. Braces, which would count repetitions, cannot be closed
in the texts in question. -/
def isRegex (cs : List Char) : Bool :=
  match Regex.read? (cs.length + 1) {} cs with
  | some (r, []) => decide (r.height ≤ Regex.heightLimit)
  | _ => false

end AlphaCodemod
