/-
Rounding against exact rationals: `roundDiv` gives the whole number nearest to a quotient, ties to
even; `Binary64.nearest` is off by half a step of its grid at most, depends on the quotient alone, and
does not fall below one when the quotient does not.
-/
import Mathlib.Algebra.Order.Field.Rat
import Mathlib.Tactic.FieldSimp
import Mathlib.Tactic.Linarith
import Mathlib.Tactic.Positivity
import Mathlib.Tactic.Ring
import AlphaCodemod.Opacity

namespace AlphaCodemod

/-! ## The nearest whole number -/

/-- `n` is the whole number nearest to `x`, and the even one if there are two. -/
structure IsNearestEven (n : ℕ) (x : ℚ) : Prop where
  near : |(n : ℚ) - x| ≤ 1 / 2
  tie : |(n : ℚ) - x| = 1 / 2 → Even n

/-- The quotient and what is left of it, as rationals. -/
theorem div_eq_quotient_add (n : ℕ) {d : ℕ} (hd : 0 < d) :
    (n : ℚ) / d = (n / d : ℕ) + ((n % d : ℕ) : ℚ) / d := by
  have hdq : (0 : ℚ) < d := by exact_mod_cast hd
  have h : (n : ℚ) = d * (n / d : ℕ) + (n % d : ℕ) := by exact_mod_cast (Nat.div_add_mod n d).symm
  rw [div_eq_iff (ne_of_gt hdq), add_mul, div_mul_cancel₀ _ (ne_of_gt hdq), mul_comm]
  exact h

section Half

variable {r d : ℕ}

theorem div_lt_half (h : 2 * r < d) : (r : ℚ) / d < 1 / 2 := by
  have hd : (0 : ℚ) < d := by exact_mod_cast (by omega : 0 < d)
  have h' : ((2 * r : ℕ) : ℚ) < d := by exact_mod_cast h
  push_cast at h'
  rw [div_lt_div_iff₀ hd (by norm_num)]
  linarith

theorem half_lt_div (hd : 0 < d) (h : d < 2 * r) : 1 / 2 < (r : ℚ) / d := by
  have hd : (0 : ℚ) < d := by exact_mod_cast hd
  have h' : (d : ℚ) < ((2 * r : ℕ) : ℚ) := by exact_mod_cast h
  push_cast at h'
  rw [div_lt_div_iff₀ (by norm_num) hd]
  linarith

theorem div_eq_half (hd : 0 < d) (h : 2 * r = d) : (r : ℚ) / d = 1 / 2 := by
  have hd : (0 : ℚ) < d := by exact_mod_cast hd
  rw [div_eq_div_iff (ne_of_gt hd) (by norm_num), ← h]
  push_cast
  ring

end Half

theorem roundDiv_isNearestEven (n : ℕ) {d : ℕ} (hd : 0 < d) : IsNearestEven (roundDiv n d) ((n : ℚ) / d) := by
  have hdq : (0 : ℚ) < d := by exact_mod_cast hd
  have f0 : (0 : ℚ) ≤ ((n % d : ℕ) : ℚ) / d := by positivity
  have f1 : ((n % d : ℕ) : ℚ) / d < 1 := by
    rw [div_lt_one hdq]
    exact_mod_cast Nat.mod_lt n hd
  -- how far the quotient is from its two neighbours
  have below : |((n / d : ℕ) : ℚ) - (n : ℚ) / d| = ((n % d : ℕ) : ℚ) / d := by
    rw [div_eq_quotient_add n hd, sub_add_cancel_left, abs_neg, abs_of_nonneg f0]
  have above : |((n / d + 1 : ℕ) : ℚ) - (n : ℚ) / d| = 1 - ((n % d : ℕ) : ℚ) / d := by
    rw [div_eq_quotient_add n hd]
    push_cast
    rw [add_sub_add_left_eq_sub, abs_of_pos (by linarith)]
  unfold roundDiv
  dsimp only
  split_ifs with h1 h2 h3
  · have f := div_lt_half h1
    exact ⟨by rw [below]; linarith, fun h => by rw [below] at h; linarith⟩
  · have f := half_lt_div hd h2
    exact ⟨by rw [above]; linarith, fun h => by rw [above] at h; linarith⟩
  · have f := div_eq_half hd (by omega : 2 * (n % d) = d)
    exact ⟨by rw [below]; linarith, fun _ => Nat.even_iff.2 h3⟩
  · have f := div_eq_half hd (by omega : 2 * (n % d) = d)
    exact ⟨by rw [above]; linarith, fun _ => Nat.even_iff.2 (by omega)⟩

/-! ## Rounding depends on the quotient alone -/

theorem roundDiv_mul_right (n d : ℕ) {c : ℕ} (hc : 0 < c) : roundDiv (n * c) (d * c) = roundDiv n d := by
  unfold roundDiv
  dsimp only
  have hlt : 2 * (n % d * c) < d * c ↔ 2 * (n % d) < d := by rw [← mul_assoc]; exact Nat.mul_lt_mul_right hc
  have hgt : d * c < 2 * (n % d * c) ↔ d < 2 * (n % d) := by rw [← mul_assoc]; exact Nat.mul_lt_mul_right hc
  rw [Nat.mul_div_mul_right _ _ hc, Nat.mul_mod_mul_right]
  simp only [hlt, hgt]

theorem roundDiv_congr {n d n' d' : ℕ} (hd : 0 < d) (hd' : 0 < d') (h : n * d' = n' * d) :
    roundDiv n d = roundDiv n' d' := by
  rw [← roundDiv_mul_right n d hd', h, mul_comm d d', roundDiv_mul_right n' d' hd]

namespace Binary64

theorem nearest_eq (n d : ℕ) :
    nearest n d = rounded (roundDiv (n * one) (d * 2 ^ ((n * one / d).log2 - 52))) ((n * one / d).log2 - 52) := by
  unfold nearest
  dsimp only
  rw [Nat.shiftLeft_eq]

theorem nearest_congr {n d n' d' : ℕ} (hd : 0 < d) (hd' : 0 < d') (h : n * d' = n' * d) :
    nearest n d = nearest n' d' := by
  rw [nearest_eq, nearest_eq]
  -- only that both sides use the same unit matters, not which one it is
  generalize one = u
  have hunits : n * u * d' = n' * u * d := by rw [mul_right_comm, h, mul_right_comm]
  have hquot : n * u / d = n' * u / d' := by
    rw [← Nat.mul_div_mul_right _ _ hd', hunits, mul_comm d d', Nat.mul_div_mul_right _ _ hd]
  rw [hquot]
  generalize (n' * u / d').log2 - 52 = shift
  have hscaled : n * u * (d' * 2 ^ shift) = n' * u * (d * 2 ^ shift) := by
    rw [← mul_assoc, hunits, mul_assoc]
  rw [roundDiv_congr (by positivity) (by positivity) hscaled]

/-! ## How far off the nearest number is -/

/-- The value of a finite number without its sign. -/
def magnitude (significand shift : ℕ) : ℚ := ((significand * 2 ^ shift : ℕ) : ℚ) / (one : ℕ)

theorem two_pow_eq_one : 2 ^ 1074 = one := by rw [one, Nat.one_shiftLeft]

theorem one_pos : 0 < one := by
  rw [← two_pow_eq_one]
  exact pow_pos two_pos _

theorem cast_one_eq : ((one : ℕ) : ℚ) = 2 ^ 1020 * 2 ^ 54 := by
  rw [← two_pow_eq_one, Nat.cast_pow, Nat.cast_ofNat, ← pow_add]

theorem one_le_magnitude {m s : ℕ} : 1 ≤ magnitude m s ↔ one ≤ m * 2 ^ s := by
  have hone : (0 : ℚ) < (one : ℕ) := by exact_mod_cast one_pos
  rw [magnitude, one_le_div hone, Nat.cast_le]

/-- Whether or not rounding up needs one bit more, the units stay the same; only a shift near the
greatest one is too great. -/
theorem rounded_cases (significand shift : ℕ) :
    (rounded significand shift = .infinite false ∧ maxShift ≤ shift) ∨
      ∃ m s, rounded significand shift = .finite false m s ∧ m * 2 ^ s = significand * 2 ^ shift := by
  unfold rounded bounded
  split_ifs with h53 hbig hbig
  · exact Or.inl ⟨rfl, by omega⟩
  · exact Or.inr ⟨_, _, rfl, by rw [h53, pow_succ, Nat.one_shiftLeft, Nat.one_shiftLeft]; ring⟩
  · exact Or.inl ⟨rfl, by omega⟩
  · exact Or.inr ⟨_, _, rfl, rfl⟩

/-- A significand that is nearest to `n / (d * 2 ^ shift)` stands for units that are nearest to
`n / d` on the grid of its shift. -/
theorem grid_error (n : ℕ) {d : ℕ} (hd : 0 < d) (shift : ℕ) :
    |((roundDiv n (d * 2 ^ shift) * 2 ^ shift : ℕ) : ℚ) - (n : ℚ) / d| ≤ 2 ^ shift / 2 := by
  have hpow : (0 : ℚ) < 2 ^ shift := by positivity
  have hdq : (0 : ℚ) < d := by exact_mod_cast hd
  have hnear := (roundDiv_isNearestEven n (by positivity : 0 < d * 2 ^ shift)).near
  have hquot : (n : ℚ) / d = (n : ℚ) / ((d * 2 ^ shift : ℕ) : ℚ) * 2 ^ shift := by
    push_cast
    field_simp
  rw [hquot]
  push_cast at hnear ⊢
  rw [← sub_mul, abs_mul, abs_of_pos hpow]
  linarith [mul_le_mul_of_nonneg_right hnear (le_of_lt hpow)]

theorem shift_le {units d e : ℕ} (h : units < d * 2 ^ e) : (units / d).log2 - 52 ≤ e - 53 := by
  have hquot : units / d < 2 ^ e := Nat.div_lt_of_lt_mul h
  by_cases h0 : units / d = 0
  · rw [h0, Nat.log2_zero]
    omega
  · have := (Nat.log2_lt h0).2 hquot
    omega

theorem half_grid_le {shift k w : ℕ} (h : shift ≤ k + 1 + w) :
    (2 : ℚ) ^ shift / 2 ≤ 2 ^ k / 2 ^ 54 * (2 ^ w * 2 ^ 54) := by
  calc (2 : ℚ) ^ shift / 2 ≤ 2 ^ (k + 1 + w) / 2 := by
        gcongr
        norm_num
    _ = 2 ^ k / 2 ^ 54 * (2 ^ w * 2 ^ 54) := by
        rw [pow_add, pow_succ]
        ring

/-- Below `2 ^ k` the number nearest to a quotient is finite and off by `2 ^ k / 2 ^ 54` at most. -/
theorem nearest_error {n d k : ℕ} (hd : 0 < d) (hn : n < d * 2 ^ k) (hk : k ≤ 1000) :
    ∃ m s, nearest n d = .finite false m s ∧ |magnitude m s - (n : ℚ) / d| ≤ 2 ^ k / 2 ^ 54 := by
  have hone := one_pos
  have hunits : n * one < d * 2 ^ (k + 1074) := by
    rw [pow_add, two_pow_eq_one, ← mul_assoc]
    exact (Nat.mul_lt_mul_right hone).2 hn
  have hshift := shift_le hunits
  rw [nearest_eq]
  generalize (n * one / d).log2 - 52 = shift at hshift
  have hmax : shift < maxShift := by
    unfold maxShift
    omega
  obtain ⟨-, hbig⟩ | ⟨m, s, hfinite, hms⟩ := rounded_cases (roundDiv (n * one) (d * 2 ^ shift)) shift
  · omega
  refine ⟨m, s, hfinite, ?_⟩
  have honeq : (0 : ℚ) < (one : ℕ) := by exact_mod_cast hone
  have hdq : (0 : ℚ) < d := by exact_mod_cast hd
  -- in units the error is half a step of the grid, and there are `one` units to one
  have hscaled : magnitude m s - (n : ℚ) / d =
      (((roundDiv (n * one) (d * 2 ^ shift) * 2 ^ shift : ℕ) : ℚ) - ((n * one : ℕ) : ℚ) / d) / (one : ℕ) := by
    rw [magnitude, hms, sub_div, Nat.cast_mul n, div_div, mul_div_mul_right _ _ (ne_of_gt honeq)]
  rw [hscaled, abs_div, abs_of_pos honeq, div_le_iff₀ honeq]
  rw [cast_one_eq]
  exact (grid_error (n * one) hd shift).trans (half_grid_le (by omega))

theorem div_le_roundDiv (n d : ℕ) : n / d ≤ roundDiv n d := by
  unfold roundDiv
  dsimp only
  split_ifs <;> omega

/-- A quotient of at least `2 ^ 52` units has a significand with all its bits. -/
theorem two_pow_log2_le {units d : ℕ} (h : 2 ^ 52 ≤ units / d) :
    2 ^ (units / d).log2 ≤ roundDiv units (d * 2 ^ ((units / d).log2 - 52)) * 2 ^ ((units / d).log2 - 52) := by
  have hne : units / d ≠ 0 := by omega
  have hlog := Nat.log2_self_le hne
  have h52 : 52 ≤ (units / d).log2 := (Nat.le_log2 hne).2 h
  have hdiv := div_le_roundDiv units (d * 2 ^ ((units / d).log2 - 52))
  rw [← Nat.div_div_eq_div_mul] at hdiv
  generalize units / d = q at *
  have hsplit : 2 ^ q.log2 = 2 ^ 52 * 2 ^ (q.log2 - 52) := by rw [← pow_add, Nat.add_sub_cancel' h52]
  rw [hsplit] at hlog ⊢
  exact Nat.mul_le_mul_right _ (((Nat.le_div_iff_mul_le (Nat.two_pow_pos _)).2 hlog).trans hdiv)

/-- A number nearest to a quotient of at least one is at least one itself. -/
theorem one_le_nearest {n d : ℕ} (hd : 0 < d) (h : d ≤ n) :
    nearest n d = .infinite false ∨ ∃ m s, nearest n d = .finite false m s ∧ one ≤ m * 2 ^ s := by
  have hquot : one ≤ n * one / d := (Nat.le_div_iff_mul_le hd).2 (by rw [mul_comm]; exact Nat.mul_le_mul_right _ h)
  have hne : n * one / d ≠ 0 := by
    have := one_pos
    omega
  have hbits : ∀ k, 2 ^ k ≤ n * one / d → k ≤ (n * one / d).log2 := fun k => (Nat.le_log2 hne).2
  have hlog := hbits 1074 (two_pow_eq_one.trans_le hquot)
  have h52 : 2 ^ 52 ≤ n * one / d := (pow_le_pow_right₀ (by norm_num) (by omega)).trans (Nat.log2_self_le hne)
  have hunits : ∀ k ≤ (n * one / d).log2, 2 ^ k ≤
      roundDiv (n * one) (d * 2 ^ ((n * one / d).log2 - 52)) * 2 ^ ((n * one / d).log2 - 52) := fun k hk =>
    (pow_le_pow_right₀ (by norm_num) hk).trans (two_pow_log2_le h52)
  rw [nearest_eq]
  obtain ⟨hinf, -⟩ | ⟨m, s, hfinite, hms⟩ :=
    rounded_cases (roundDiv (n * one) (d * 2 ^ ((n * one / d).log2 - 52))) ((n * one / d).log2 - 52)
  · exact Or.inl hinf
  · refine Or.inr ⟨m, s, hfinite, ?_⟩
    rw [hms]
    exact two_pow_eq_one.symm.trans_le (hunits 1074 hlog)

end Binary64

end AlphaCodemod
