/-
Deciding whether a pattern stands for a text. For each list of tokens a row is kept that says, for
the text and each of its tails down to the empty one, whether the tokens stand for it; a token more
gives the next row from the last. The work is the product of the two lengths, however many
wildcards there are.
-/
import AlphaCodemod.Glob.Basic

namespace AlphaCodemod
namespace Glob

/-- One entry for a text and for each of its tails. -/
abbrev Row := List Bool

/-- The row of no token: only the empty tail is left over. -/
def rowNil : List Char → Row
  | [] => [true]
  | _ :: cs => false :: rowNil cs

/-- The row of a token that takes one character, from the row of the tokens behind it. -/
def rowOne (t : Token) : List Char → Row → Row
  | c :: cs, _ :: row => (t.accepts c && row.headD false) :: rowOne t cs row
  | _, _ => [false]

/-- The row of `*`: some tail of the tail will do. -/
def rowRun : List Char → Row → Row
  | _ :: cs, b :: row =>
    let next := rowRun cs row
    (b || next.headD false) :: next
  | _, row => row

/-- For each tail, whether a tail behind one of its slashes will do. -/
def rowSlash : List Char → Row → Row
  | c :: cs, _ :: row =>
    let next := rowSlash cs row
    (next.headD false || (c == '/' && row.headD false)) :: next
  | _, _ => [false]

/-- The row of a list of tokens. -/
def row : List Token → List Char → Row
  | [], cs => rowNil cs
  | [.anyDirs], cs => List.replicate (cs.length + 1) true
  | .anyDirs :: ts, cs =>
    let next := row ts cs
    List.zipWith (· || ·) next (rowSlash cs next)
  | .anyRun :: ts, cs => rowRun cs (row ts cs)
  | t :: ts, cs => rowOne t cs (row ts cs)

/-- Whether the pattern stands for the whole text. -/
def Pattern.matches (p : Pattern) (cs : List Char) : Bool := (row p.tokens cs).headD false

end Glob
end AlphaCodemod
