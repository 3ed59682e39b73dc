/-
Numbers as they are spelled in texts: an optional sign, digits with at most one point among them and
an optional exponent, or the name of an infinite number or of none. Letters count in either case. A
text that spells no number is refused.
-/
import AlphaCodemod.Number.Binary64

namespace AlphaCodemod

/-- The decimal at the start of a text, with what follows it. There has to be a digit on one side of
the point at least. -/
def Decimal.read? (cs : List Char) : Option (Decimal × List Char) :=
  let whole := cs.takeWhile isDigit
  match cs.dropWhile isDigit with
  | '.' :: rest =>
    let fraction := rest.takeWhile isDigit
    if whole.isEmpty && fraction.isEmpty then none
    else some (.ofDigits whole fraction, rest.dropWhile isDigit)
  | rest => if whole.isEmpty then none else some (.ofDigits whole [], rest)

namespace Binary64

/-- The number `units * 10 ^ exponent`. Beyond the reach of binary64 it is infinite, or zero,
without a power of ten being worked out. -/
def scaled (units : Nat) (exponent : Int) : Binary64 :=
  let magnitude := (decimalDigits units).length + exponent
  if units = 0 ∨ magnitude < -400 then .finite false 0 0
  else if 400 < magnitude then .infinite false
  else if 0 ≤ exponent then .nearest (units * Nat.pow 10 exponent.toNat) 1
  else .nearest units (Nat.pow 10 (-exponent).toNat)

/-- The exponent behind an `e`. -/
def exponent? (cs : List Char) : Option Int := do
  let (negative, ds) := match cs with
    | '+' :: ds => (false, ds)
    | '-' :: ds => (true, ds)
    | ds => (false, ds)
  guard (!ds.isEmpty && ds.all isDigit)
  return if negative then -(digitsValue ds : Int) else digitsValue ds

/-- The number that has a name instead of digits. -/
def named? (cs : List Char) : Option Binary64 :=
  let name := String.ofList (cs.map Char.toLower)
  if name = "inf" ∨ name = "infinity" then some (.infinite false)
  else if name = "nan" then some .nan
  else none

/-- The number that a text without a sign spells. -/
def unsigned? (cs : List Char) : Option Binary64 :=
  match Decimal.read? cs with
  | none => named? cs
  | some (d, []) => some (.ofDecimal d)
  | some (d, e :: rest) =>
    if e = 'e' ∨ e = 'E' then (exponent? rest).map fun n => scaled d.units (n - d.places) else none

/-- The number that a text spells. -/
def ofText? : List Char → Option Binary64
  | '+' :: cs => unsigned? cs
  | '-' :: cs => (unsigned? cs).map negate
  | cs => unsigned? cs

/-- Why a text spells no number. -/
def refusal (cs : List Char) : String :=
  if cs.isEmpty then "cannot parse float from empty string" else "invalid float literal"

end Binary64
end AlphaCodemod
