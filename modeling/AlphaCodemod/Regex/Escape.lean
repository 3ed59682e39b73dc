/-
Escapes of regular expressions: what a backslash and the characters behind it stand for.
-/
import AlphaCodemod.Number.Decimal
import AlphaCodemod.Regex.Mode

namespace AlphaCodemod
namespace Regex

inductive Escape where
  /-- a character, which may be given as a byte -/
  | character (code : Nat) (isByte : Bool)
  /-- digits, blanks or the characters of words, or all but these -/
  | kind (negated : Bool)
  /-- a general category -/
  | category
  /-- the start or the end of the text -/
  | place
  /-- the start or the end of a word, or any place but these -/
  | boundary
deriving DecidableEq, Repr

namespace Escape

/-- Whether an escape is refused outside of sets. Automata know nothing of words made of characters.
In a pattern about bytes nothing may match a part of a character. -/
def isRefused (m : Mode) : Escape → Bool
  | .character code isByte => !m.unicode && isByte && decide (128 ≤ code)
  | .kind negated => !m.unicode && negated
  | .category => !m.unicode
  | .place => false
  | .boundary => m.unicode

/-- Whether an escape is refused in sets. They hold no places, and in a pattern about bytes only
ASCII. -/
def isRefusedInSet (m : Mode) : Escape → Bool
  | .character code _ => !m.unicode && decide (128 ≤ code)
  | .kind negated => !m.unicode && negated
  | .category => !m.unicode
  | .place => true
  | .boundary => true

end Escape

/-! ## Reading -/

def hexDigit? (c : Char) : Option Nat :=
  if isDigit c then some (c.toNat - '0'.toNat)
  else if 'a' ≤ c ∧ c ≤ 'f' then some (c.toNat - 'a'.toNat + 10)
  else if 'A' ≤ c ∧ c ≤ 'F' then some (c.toNat - 'A'.toNat + 10)
  else none

/-- The number with the given count of hexadecimal digits, behind those already read, and what
follows it. -/
def hexNumber? (m : Mode) : Nat → Nat → List Char → Option (Nat × List Char)
  | 0, n, cs => some (n, cs)
  | digits + 1, n, cs =>
    match m.skip cs with
    | [] => none
    | d :: cs => do hexNumber? m digits (n * 16 + (← hexDigit? d)) cs

/-- A character by the hexadecimal digits of its code point. -/
def codePoint? (m : Mode) (digits : Nat) (isByte : Bool) (cs : List Char) :
    Option (Escape × List Char) := do
  let (code, rest) ← hexNumber? m digits 0 cs
  guard code.isValidChar
  return (.character code isByte, rest)

/-- A general category by its letter. -/
def category? (m : Mode) (cs : List Char) : Option (Escape × List Char) :=
  match m.skip cs with
  | [] => none
  | c :: cs => if c.toUpper ∈ "CLMNPSZ".toList then some (.category, cs) else none

/-- An escape, from behind its backslash on, and what follows it. Letters and digits without a
meaning are refused; other characters of ASCII stand for themselves. -/
def escape? (m : Mode) : List Char → Option (Escape × List Char)
  | [] => none
  | c :: cs =>
    match c with
    | 'x' => codePoint? m 2 true cs
    | 'u' => codePoint? m 4 false cs
    | 'U' => codePoint? m 8 false cs
    | 'p' => category? m cs
    | 'P' => category? m cs
    | 'a' => some (.character 0x07 false, cs)
    | 't' => some (.character 0x09 false, cs)
    | 'n' => some (.character 0x0A false, cs)
    | 'v' => some (.character 0x0B false, cs)
    | 'f' => some (.character 0x0C false, cs)
    | 'r' => some (.character 0x0D false, cs)
    | _ =>
      if c ∈ "dsw".toList then some (.kind false, cs)
      else if c ∈ "DSW".toList then some (.kind true, cs)
      else if c ∈ "Az".toList then some (.place, cs)
      else if c ∈ "bB<>".toList then some (.boundary, cs)
      else if c.isAlphanum ∨ 128 ≤ c.toNat then none
      else some (.character c.toNat false, cs)

end Regex
end AlphaCodemod
