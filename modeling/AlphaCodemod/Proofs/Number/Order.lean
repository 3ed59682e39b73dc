/-
The order of binary64 numbers, and that rounding keeps it. Within one grid this is so since of two numbers the
lesser has no greater whole number nearest to it; between grids a power of two stands, which both of them can
spell. The greatest numbers round to infinity, and they do so from one number of units on.
-/
import Mathlib.Data.Nat.Log
import Mathlib.Order.WithBot
import AlphaCodemod.Proofs.Number.Rounding

namespace AlphaCodemod

/-! ## Whole numbers -/

/-- The whole number nearest to the greater of two numbers is no less than that nearest to the other. -/
theorem IsNearestEven.mono {m n : ℕ} {x y : ℚ} (hm : IsNearestEven m x) (hn : IsNearestEven n y) (h : x ≤ y) :
    m ≤ n := by
  by_contra hlt
  have hstep : ((n + 1 : ℕ) : ℚ) ≤ m := by exact_mod_cast not_le.1 hlt
  push_cast at hstep
  obtain ⟨-, hmx⟩ := abs_le.1 hm.near
  obtain ⟨hny, -⟩ := abs_le.1 hn.near
  -- only half a step from both of them is room enough, and of two neighbours one is odd
  have hm2 : Even m := hm.tie (by rw [show (m : ℚ) - x = 1 / 2 by linarith]; norm_num)
  have hn2 : Even n := hn.tie (by rw [show (n : ℚ) - y = -(1 / 2) by linarith]; norm_num)
  have hnext : m = n + 1 := by
    have : (m : ℚ) = ((n + 1 : ℕ) : ℚ) := by
      push_cast
      linarith
    exact_mod_cast this
  rw [Nat.even_iff] at hm2 hn2
  omega

theorem roundDiv_mono {n d n' d' : ℕ} (hd : 0 < d) (hd' : 0 < d') (h : n * d' ≤ n' * d) :
    roundDiv n d ≤ roundDiv n' d' := by
  refine (roundDiv_isNearestEven n hd).mono (roundDiv_isNearestEven n' hd') ?_
  rw [div_le_div_iff₀ (by exact_mod_cast hd) (by exact_mod_cast hd')]
  exact_mod_cast h

theorem roundDiv_one (n : ℕ) : roundDiv n 1 = n := by
  simp [roundDiv, Nat.mod_one]

namespace Binary64

/-! ## The order -/

/-- The exact value on the extended line; what is no number has none. -/
def value? : Binary64 → Option (WithBot (WithTop ℚ))
  | .nan => none
  | .infinite negative => some (if negative then ⊥ else ⊤)
  | .finite negative significand shift =>
    some ((if negative then -magnitude significand shift else magnitude significand shift : ℚ) : WithTop ℚ)

/-- Numbers are ordered by their values, so that both zeros are equal. What is no number is in no order. -/
instance : LE Binary64 := ⟨fun x y => ∃ a ∈ x.value?, ∃ b ∈ y.value?, a ≤ b⟩

theorem le_iff {x y : Binary64} : x ≤ y ↔ ∃ a ∈ x.value?, ∃ b ∈ y.value?, a ≤ b := Iff.rfl

theorem magnitude_nonneg (m s : ℕ) : 0 ≤ magnitude m s := by
  unfold magnitude
  positivity

theorem magnitude_le_magnitude {m s m' s' : ℕ} : magnitude m s ≤ magnitude m' s' ↔ m * 2 ^ s ≤ m' * 2 ^ s' := by
  have hone : (0 : ℚ) < (one : ℕ) := by exact_mod_cast one_pos
  rw [magnitude, magnitude, div_le_div_iff_of_pos_right hone, Nat.cast_le]

/-! ## Rounding to binary64 -/

/-- The grid on which a quotient is rounded: there its greatest power of two is `2 ^ 52` steps, or fewer on the
finest grid. -/
def gridShift (units d : ℕ) : ℕ := (units / d).log2 - 52

/-- The units nearest to a quotient on its grid. -/
def roundedUnits (units d : ℕ) : ℕ := roundDiv units (d * 2 ^ gridShift units d) * 2 ^ gridShift units d

theorem lt_two_pow_gridShift {units d : ℕ} (hd : 0 < d) : units < d * 2 ^ (53 + gridShift units d) := by
  have hlog : units / d < 2 ^ ((units / d).log2 + 1) := Nat.lt_log2_self
  have hle : 2 ^ ((units / d).log2 + 1) ≤ 2 ^ (53 + gridShift units d) := by
    refine Nat.pow_le_pow_right two_pos ?_
    unfold gridShift
    omega
  rw [mul_comm]
  exact (Nat.div_lt_iff_lt_mul hd).1 (hlog.trans_le hle)

/-- A rounded significand may need one bit more, and no more than that. -/
theorem significand_le {units d : ℕ} (hd : 0 < d) : roundDiv units (d * 2 ^ gridShift units d) ≤ 2 ^ 53 := by
  have hlt : units < d * 2 ^ (53 + gridShift units d) := lt_two_pow_gridShift hd
  rw [← roundDiv_one (2 ^ 53)]
  refine roundDiv_mono (by positivity) Nat.one_pos ?_
  calc units * 1 = units := mul_one _
    _ ≤ d * 2 ^ (53 + gridShift units d) := hlt.le
    _ = 2 ^ 53 * (d * 2 ^ gridShift units d) := by rw [pow_add]; ring

theorem roundedUnits_le {units d : ℕ} (hd : 0 < d) : roundedUnits units d ≤ 2 ^ (53 + gridShift units d) := by
  rw [roundedUnits, pow_add]
  exact Nat.mul_le_mul_right _ (significand_le hd)

/-- On every grid but the finest the significand has all its bits. -/
theorem le_roundedUnits {units d : ℕ} (h : 0 < gridShift units d) :
    2 ^ (52 + gridShift units d) ≤ roundedUnits units d := by
  have hlog : 52 + gridShift units d = (units / d).log2 := by
    unfold gridShift at h ⊢
    omega
  have hne : units / d ≠ 0 := by
    intro h0
    rw [gridShift, h0, Nat.log2_zero] at h
    omega
  rw [hlog]
  exact two_pow_log2_le ((Nat.le_log2 hne).1 (by omega))

section Monotone

variable {units d units' d' : ℕ}

theorem gridShift_mono (hd : 0 < d) (hd' : 0 < d') (h : units * d' ≤ units' * d) :
    gridShift units d ≤ gridShift units' d' := by
  have hquot : units / d ≤ units' / d' := by
    rw [Nat.le_div_iff_mul_le hd']
    refine Nat.le_of_mul_le_mul_right ?_ hd
    calc units / d * d' * d = units / d * d * d' := Nat.mul_right_comm _ _ _
      _ ≤ units * d' := Nat.mul_le_mul_right _ (Nat.div_mul_le_self _ _)
      _ ≤ units' * d := h
  have hlog : (units / d).log2 ≤ (units' / d').log2 := by
    rw [Nat.log2_eq_log_two, Nat.log2_eq_log_two]
    exact Nat.log_mono_right hquot
  unfold gridShift
  omega

theorem roundedUnits_mono (hd : 0 < d) (hd' : 0 < d') (h : units * d' ≤ units' * d) :
    roundedUnits units d ≤ roundedUnits units' d' := by
  rcases (gridShift_mono hd hd' h).eq_or_lt with heq | hlt
  · -- one grid: the significands are in order
    unfold roundedUnits
    rw [heq]
    refine Nat.mul_le_mul_right _ (roundDiv_mono (by positivity) (by positivity) ?_)
    rw [← mul_assoc, ← mul_assoc]
    exact Nat.mul_le_mul_right _ h
  · -- two grids: a power of two stands between them
    calc roundedUnits units d ≤ 2 ^ (53 + gridShift units d) := roundedUnits_le hd
      _ ≤ 2 ^ (52 + gridShift units' d') := Nat.pow_le_pow_right two_pos (by omega)
      _ ≤ roundedUnits units' d' := le_roundedUnits (by omega)

end Monotone

/-- A quotient rounds to infinity exactly if the units nearest to it reach `2 ^ 53` steps of the coarsest grid. -/
theorem nearest_cases (n : ℕ) {d : ℕ} (hd : 0 < d) :
    (nearest n d = .infinite false ∧ 2 ^ (53 + maxShift) ≤ roundedUnits (n * one) d) ∨
      ∃ m s, nearest n d = .finite false m s ∧ m * 2 ^ s = roundedUnits (n * one) d ∧
        roundedUnits (n * one) d < 2 ^ (53 + maxShift) := by
  have hle : roundDiv (n * one) (d * 2 ^ gridShift (n * one) d) ≤ 2 ^ 53 := significand_le hd
  have hfull : 0 < gridShift (n * one) d → 2 ^ (52 + gridShift (n * one) d) ≤ roundedUnits (n * one) d :=
    le_roundedUnits
  have hnearest : nearest n d =
      rounded (roundDiv (n * one) (d * 2 ^ gridShift (n * one) d)) (gridShift (n * one) d) := nearest_eq n d
  rw [hnearest]
  unfold roundedUnits at hfull ⊢
  generalize roundDiv (n * one) (d * 2 ^ gridShift (n * one) d) = significand at hle hfull ⊢
  generalize gridShift (n * one) d = shift at hfull ⊢
  unfold rounded bounded
  rw [Nat.one_shiftLeft]
  generalize maxShift = top
  split_ifs with h53 hbig hbig
  · refine Or.inl ⟨rfl, ?_⟩
    rw [h53, ← pow_add]
    exact Nat.pow_le_pow_right two_pos (by omega)
  · refine Or.inr ⟨_, _, rfl, ?_, ?_⟩
    · rw [h53, Nat.one_shiftLeft, ← pow_add, ← pow_add]
      congr 1
      omega
    · rw [h53, ← pow_add]
      exact Nat.pow_lt_pow_right (by norm_num) (by omega)
  · refine Or.inl ⟨rfl, le_trans ?_ (hfull (by omega))⟩
    exact Nat.pow_le_pow_right two_pos (by omega)
  · refine Or.inr ⟨_, _, rfl, rfl, ?_⟩
    calc significand * 2 ^ shift < 2 ^ 53 * 2 ^ shift :=
          Nat.mul_lt_mul_of_pos_right (lt_of_le_of_ne hle h53) (by positivity)
      _ = 2 ^ (53 + shift) := (pow_add _ _ _).symm
      _ ≤ 2 ^ (53 + top) := Nat.pow_le_pow_right two_pos (by omega)

theorem finite_le_finite {m s m' s' : ℕ} : finite false m s ≤ finite false m' s' ↔ m * 2 ^ s ≤ m' * 2 ^ s' := by
  simp [le_iff, value?, magnitude_le_magnitude]

/-- Rounding to binary64 keeps the order of quotients. -/
theorem nearest_mono {n d n' d' : ℕ} (hd : 0 < d) (hd' : 0 < d') (h : n * d' ≤ n' * d) :
    nearest n d ≤ nearest n' d' := by
  have hunits : roundedUnits (n * one) d ≤ roundedUnits (n' * one) d' := by
    refine roundedUnits_mono hd hd' ?_
    rw [Nat.mul_right_comm n, Nat.mul_right_comm n']
    exact Nat.mul_le_mul_right _ h
  rcases nearest_cases n hd with ⟨hinf, hbig⟩ | ⟨m, s, hfin, hms, -⟩ <;>
    rcases nearest_cases n' hd' with ⟨hinf', -⟩ | ⟨m', s', hfin', hms', hsmall⟩
  · rw [hinf, hinf']
    simp [le_iff, value?]
  · exact absurd (hbig.trans hunits) (not_le.2 hsmall)
  · rw [hfin, hinf']
    simp [le_iff, value?]
  · rw [hfin, hfin', finite_le_finite, hms, hms']
    exact hunits

end Binary64
end AlphaCodemod
