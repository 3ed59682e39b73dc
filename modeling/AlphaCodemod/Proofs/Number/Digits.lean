/-
Runs of digits and the numbers they spell: the value of a run in two pieces, and the one spelling of
a number that has no needless zero in front.
-/
import Mathlib.Data.List.Basic
import Mathlib.Tactic.IntervalCases
import AlphaCodemod.Number.Decimal

namespace AlphaCodemod

theorem isDigit_eq (c : Char) : isDigit c = c.isDigit := rfl

theorem digitsValue_eq_ofDigitChars (ds : List Char) : digitsValue ds = Nat.ofDigitChars 10 ds 0 := by
  rw [Nat.ofDigitChars_eq_foldl, digitsValue]
  congr 1
  funext n d
  rw [digitValue, Nat.mul_comm]

theorem digitsValue_append (ds es : List Char) :
    digitsValue (ds ++ es) = digitsValue ds * 10 ^ es.length + digitsValue es := by
  simp only [digitsValue_eq_ofDigitChars]
  rw [Nat.ofDigitChars_append, Nat.ofDigitChars_eq_ofDigitChars_zero, Nat.mul_comm]

/-- Digits that spell a number, without a zero in front of others. -/
structure Spells (ds : List Char) (n : Nat) : Prop where
  digits : ∀ c ∈ ds, isDigit c = true
  value : digitsValue ds = n
  nonempty : ds ≠ []
  noLeadingZero : ds.head? = some '0' → ds = ['0']

theorem head?_decimalDigits_ne_zero {n : Nat} (h : 0 < n) : (decimalDigits n).head? ≠ some '0' := by
  unfold decimalDigits
  induction n using Nat.strong_induction_on with
  | _ n ih =>
    by_cases hn : n < 10
    · rw [Nat.toDigits_of_lt_base hn]
      interval_cases n <;> decide
    · rw [Nat.toDigits_of_base_le (by decide) (by omega), List.head?_append_of_ne_nil _ Nat.toDigits_ne_nil]
      exact ih (n / 10) (by omega) (by omega)

theorem spells_decimalDigits (n : Nat) : Spells (decimalDigits n) n := by
  refine ⟨fun c hc => ?_, ?_, Nat.toDigits_ne_nil, fun h => ?_⟩
  · rw [isDigit_eq]
    exact Nat.isDigit_of_mem_toDigits (by decide) (by decide) hc
  · rw [digitsValue_eq_ofDigitChars]
    exact Nat.ofDigitChars_ten_toDigits
  · rcases Nat.eq_zero_or_pos n with rfl | hn
    · rfl
    · exact absurd h (head?_decimalDigits_ne_zero hn)

end AlphaCodemod
