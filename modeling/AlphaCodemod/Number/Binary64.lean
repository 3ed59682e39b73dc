/-
Binary64 numbers as exact dyadic rationals. Every finite one is a whole number of units of
`2 ^ -1074`; rounding a fraction to the nearest of them is done in that unit, in naturals, so the
result can be compared with the fraction without any floating-point operation.
-/
import AlphaCodemod.Number.Decimal

namespace AlphaCodemod

/-! ## Rounding a quotient -/

/-- The whole number nearest to `n / d`; of two equally near ones the even one. -/
def roundDiv (n d : Nat) : Nat :=
  let q := n / d
  let r := n % d
  if 2 * r < d then q
  else if d < 2 * r then q + 1
  else if q % 2 = 0 then q else q + 1

/-! ## The numbers -/

/-- A finite number is `± significand <<< shift` units. -/
inductive Binary64 where
  | nan
  | infinite (negative : Bool)
  | finite (negative : Bool) (significand shift : Nat)
deriving DecidableEq, Repr

namespace Binary64

/-- How many units make one: the least positive number is `2 ^ -1074`. -/
def one : Nat := 1 <<< 1074

/-- The greatest shift of a finite number. -/
def maxShift : Nat := 2045

/-- The number with a given bit pattern: a sign bit, eleven bits of exponent and 52 of fraction. -/
def ofBits (bits : UInt64) : Binary64 :=
  let n := bits.toNat
  let negative := (n >>> 63) % 2 = 1
  let exponent := (n >>> 52) % (1 <<< 11)
  let fraction := n % (1 <<< 52)
  if exponent = 2047 then
    if fraction = 0 then .infinite negative else .nan
  else if exponent = 0 then .finite negative fraction 0
  else .finite negative (1 <<< 52 + fraction) (exponent - 1)

/-- The finite number with a significand and a shift; infinite when there is no such shift. -/
def bounded (significand shift : Nat) : Binary64 :=
  if maxShift < shift then .infinite false else .finite false significand shift

/-- A number whose significand has been rounded: rounding up may need one bit more. -/
def rounded (significand shift : Nat) : Binary64 :=
  if significand = 1 <<< 53 then bounded (1 <<< 52) (shift + 1) else bounded significand shift

/-- The number nearest to `n / d`, of two equally near ones the one with the even significand;
infinite when that would need a greater shift than there is. -/
def nearest (n d : Nat) : Binary64 :=
  let units := n * one
  let shift := (units / d).log2 - 52
  rounded (roundDiv units (d <<< shift)) shift

/-- The number nearest to a decimal. -/
def ofDecimal (d : Decimal) : Binary64 := nearest d.units d.scale

/-- The same number with the other sign. -/
def negate : Binary64 → Binary64
  | .nan => .nan
  | .infinite negative => .infinite (!negative)
  | .finite negative significand shift => .finite (!negative) significand shift

end Binary64
end AlphaCodemod
