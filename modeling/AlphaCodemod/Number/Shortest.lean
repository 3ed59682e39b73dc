/-
The shortest decimal that reads back as a given binary64 number: on the coarsest decimal grid with a
point among the reals that round to the number, the nearest such point.
-/
import AlphaCodemod.Number.Binary64

namespace AlphaCodemod
namespace Shortest

/-- The reals that round to `significand <<< shift` units, in quarters of a unit. Both ends belong
to them when the significand is even. Just above a power of two the gap below is half as wide. -/
structure Interval where
  low : Nat
  high : Nat
  closed : Bool
deriving DecidableEq, Repr

def interval (significand shift : Nat) : Interval :=
  let quarters := 4 * (significand <<< shift)
  let gap := 1 <<< shift
  { low := quarters - if significand = 1 <<< 52 ∧ shift ≠ 0 then gap else 2 * gap
    high := quarters + 2 * gap
    closed := significand % 2 = 0 }

/-- Grids are counted from this power of ten, which is beyond every finite number, downwards. -/
def coarsest : Nat := 310

/-- Grid number `step` has its points `10 ^ (310 - step)` apart: whether its point `p` lies in the
interval. -/
def Interval.contains (i : Interval) (step p : Nat) : Bool :=
  let point := p * (4 * Binary64.one) * Nat.pow 10 coarsest
  let low := i.low * Nat.pow 10 step
  let high := i.high * Nat.pow 10 step
  if i.closed then decide (low ≤ point ∧ point ≤ high) else decide (low < point ∧ point < high)

/-- The point of a grid that is in the interval and nearest to the number, if there is one. Of the
points of a grid only the two around the number can be; of two equally near ones the greater is
taken. -/
def point? (significand shift step : Nat) : Option Nat :=
  let i := interval significand shift
  let n := (significand <<< shift) * Nat.pow 10 step
  let d := Binary64.one * Nat.pow 10 coarsest
  let below := n / d
  let above := below + 1
  match i.contains step below, i.contains step above with
  | true, true => some (if 2 * (n % d) < d then below else above)
  | true, false => some below
  | false, true => some above
  | false, false => none

/-- The first grid from `step` on with a point, within the given number of grids. -/
def search (significand shift : Nat) : Nat → Nat → Nat × Nat
  | 0, step => (step, 0)
  | grids + 1, step =>
    match point? significand shift step with
    | some p => (step, p)
    | none => search significand shift grids (step + 1)

/-- No number needs a finer grid than that of its own last binary place. -/
def grids : Nat := coarsest + 1100

end Shortest

namespace Binary64

/-- The digits of a positive number without a point, and how many places lie behind it; negative
places stand for zeros in front of it. -/
def shortest (significand shift : Nat) : List Char × Int :=
  let (step, p) := Shortest.search significand shift Shortest.grids 0
  (decimalDigits p, (step : Int) - Shortest.coarsest)

/-- Digits with a point at the given place, at least one digit on either side of it. -/
def positional (ds : List Char) (places : Int) : List Char :=
  if places ≤ 0 then ds ++ List.replicate (-places).toNat '0' ++ ['.', '0']
  else
    let places := places.toNat
    let ds := List.replicate (places + 1 - ds.length) '0' ++ ds
    ds.take (ds.length - places) ++ '.' :: ds.drop (ds.length - places)

/-- A number as messages show it: the shortest digits, never with an exponent, always with a
point. -/
def text : Binary64 → List Char
  | .nan => ['N', 'a', 'N']
  | .infinite negative => (if negative then ['-'] else []) ++ ['i', 'n', 'f']
  | .finite negative significand shift =>
    (if negative then ['-'] else []) ++
      if significand = 0 then ['0', '.', '0']
      else
        let (ds, places) := shortest significand shift
        positional ds places

end Binary64
end AlphaCodemod
