/-
The blank characters: those with the Unicode property White_Space. Blanks may stand around the
number of a call.
-/
namespace AlphaCodemod

/-- The White_Space characters, as ranges of code points in increasing order. -/
def blankRanges : List (Nat × Nat) :=
  [(0x0009, 0x000D), (0x0020, 0x0020), (0x0085, 0x0085), (0x00A0, 0x00A0), (0x1680, 0x1680),
    (0x2000, 0x200A), (0x2028, 0x2029), (0x202F, 0x202F), (0x205F, 0x205F), (0x3000, 0x3000)]

def isBlank (c : Char) : Bool :=
  blankRanges.any fun (low, high) => decide (low ≤ c.toNat ∧ c.toNat ≤ high)

/-- There are 25 of them. -/
example : (blankRanges.map fun (low, high) => high + 1 - low).sum = 25 := rfl

end AlphaCodemod
