/-
Decimal numbers as they are spelled: digits, and how many of them stand behind the point. A
decimal is exact; rounding is the business of whoever reads it into another format.
-/
namespace AlphaCodemod

/-! ## Digits -/

/-- ASCII digits only. -/
def isDigit (c : Char) : Bool := '0' ≤ c && c ≤ '9'

def digitValue (c : Char) : Nat := c.toNat - '0'.toNat

/-- The number that a run of digits spells; the empty run spells zero. -/
def digitsValue (ds : List Char) : Nat := ds.foldl (fun n d => n * 10 + digitValue d) 0

/-- The digits of a number, without leading zeros. -/
def decimalDigits (n : Nat) : List Char := Nat.toDigits 10 n

/-! ## Decimals -/

/-- The number `units / 10 ^ places`. -/
structure Decimal where
  units : Nat
  places : Nat
deriving DecidableEq, Repr

namespace Decimal

/-- The decimal with the given digits before and behind its point. -/
def ofDigits (whole fraction : List Char) : Decimal :=
  ⟨digitsValue (whole ++ fraction), fraction.length⟩

/-- The denominator, when the number is read as a fraction of naturals. -/
def scale (d : Decimal) : Nat := Nat.pow 10 d.places

end Decimal
end AlphaCodemod
