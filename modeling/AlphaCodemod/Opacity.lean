/-
Opacities and alpha values. An opacity is a binary64 number of which only the part between zero
and one counts; its alpha is the opacity in 255 steps.
-/
import AlphaCodemod.Number.Binary64

namespace AlphaCodemod

/-- An alpha channel value. -/
abbrev Alpha := Fin 256

/-- The alpha value nearest to a count of steps. -/
def Alpha.ofSteps (n : Nat) : Alpha := ⟨min n 255, by omega⟩

namespace Binary64

/-- A non-negative number to the nearest whole number, ties to even; `none` if it is not finite. -/
def round? : Binary64 → Option Nat
  | .finite _ significand shift => some (roundDiv (significand <<< shift) one)
  | _ => none

/-- The product with a natural number, rounded to binary64. -/
def timesNat (k : Nat) : Binary64 → Binary64
  | .finite _ significand shift => nearest (k * (significand <<< shift)) one
  | x => x

end Binary64

/-- The alpha of an opacity: clamped to [0, 1], times 255 in binary64, and the nearest whole
number of that with ties to even. What is no number has alpha zero. -/
def Opacity.alpha : Binary64 → Alpha
  | .nan => 0
  | .infinite negative => if negative then 0 else 255
  | x@(.finite negative significand shift) =>
    if negative then 0
    else if Binary64.one ≤ significand <<< shift then 255
    else Alpha.ofSteps (((x.timesNat 255).round?).getD 255)

/-- The alpha of an opacity that is spelled as a decimal. -/
def Decimal.alpha (d : Decimal) : Alpha := Opacity.alpha (.ofDecimal d)

end AlphaCodemod
