/-
Modes of regular expressions. Flags switch them on and off, for the rest of a group or for a group
of their own. Two of the modes have a say in which texts are patterns: where blanks and comments may
stand between the parts, and whether a pattern is about characters or about bytes.
-/
import AlphaCodemod.Text.Blank

namespace AlphaCodemod
namespace Regex

structure Mode where
  /-- blanks and comments may stand between the parts -/
  verbose : Bool := false
  /-- about characters, not bytes -/
  unicode : Bool := true
deriving DecidableEq, Repr

/-! ## Blanks and comments -/

/-- What follows blanks and comments, for a text that starts in a comment or not. A comment goes
from a number sign to the end of the line. -/
def afterBlanks : Bool → List Char → List Char
  | _, [] => []
  | true, c :: cs => afterBlanks (c != '\n') cs
  | false, c :: cs =>
    if isBlank c then afterBlanks false cs
    else if c = '#' then afterBlanks true cs
    else c :: cs

namespace Mode

/-- What is left to read, where blanks and comments may stand. -/
def skip (m : Mode) (cs : List Char) : List Char := if m.verbose then afterBlanks false cs else cs

/-- The first character that counts behind a hyphen in a set. A comment there is not skipped, only
its number sign. -/
def peek? (m : Mode) (cs : List Char) : Option Char :=
  if m.verbose then
    match cs.dropWhile isBlank with
    | '#' :: rest => (rest.dropWhile isBlank).head?
    | rest => rest.head?
  else cs.head?

end Mode

/-! ## Flags -/

/-- Flags, each at most once, with at most one hyphen that is not the last of them. -/
def areFlags (fs : List Char) : Bool :=
  decide fs.Nodup && fs.all (· ∈ "imsUuxR-".toList) && fs.getLast? != some '-'

/-- Whether flags switch a mode on or, behind a hyphen, off. -/
def switched? (fs : List Char) (flag : Char) : Option Bool :=
  if flag ∈ fs.takeWhile (· ≠ '-') then some true
  else if flag ∈ fs then some false
  else none

def Mode.switch (m : Mode) (fs : List Char) : Mode :=
  ⟨(switched? fs 'x').getD m.verbose, (switched? fs 'u').getD m.unicode⟩

end Regex
end AlphaCodemod
