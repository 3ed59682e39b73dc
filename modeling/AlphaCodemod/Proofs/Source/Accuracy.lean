/-
From the text of a literal to its alpha. Three roundings lie between them: to binary64, of the
product by 255, and to a whole number. Against the exact value of the literal they are off by half a
step and hardly more, and with at most fourteen digits behind the point neither of the first two can
be seen: a product that is not a tie is too far away from one, and there are five ties only.
-/
import Mathlib.Tactic.IntervalCases
import Mathlib.Tactic.NormNum
import AlphaCodemod.Proofs.Number.Digits
import AlphaCodemod.Proofs.Number.Rounding
import AlphaCodemod.Proofs.Source.Occurrences

namespace AlphaCodemod

theorem isNearestEven_self (n : ℕ) : IsNearestEven n n :=
  ⟨by norm_num, fun h => by norm_num at h⟩

/-! ## Two roundings in binary64 -/

namespace Opacity

theorem alpha_of_one_le {m s : ℕ} (h : Binary64.one ≤ m * 2 ^ s) : alpha (.finite false m s) = 255 := by
  simp only [alpha, Bool.false_eq_true, if_false]
  rw [Nat.shiftLeft_eq, if_pos h]

/-- Below one the alpha is the whole number nearest to a product that is off by `2 ^ -46` at most. -/
theorem exists_product {m s : ℕ} (h : m * 2 ^ s < Binary64.one) :
    ∃ y : ℚ, |y - 255 * Binary64.magnitude m s| ≤ 1 / 2 ^ 46 ∧ IsNearestEven (alpha (.finite false m s)).val y := by
  have hone := Binary64.one_pos
  obtain ⟨m', s', hproduct, herror⟩ :=
    Binary64.nearest_error (n := 255 * (m * 2 ^ s)) (k := 8) hone (by omega) (by norm_num)
  have hround := roundDiv_isNearestEven (m' * 2 ^ s') hone
  have hmag : Binary64.magnitude m s < 1 := not_le.1 (mt Binary64.one_le_magnitude.1 (not_le.2 h))
  have hscaled : ((255 * (m * 2 ^ s) : ℕ) : ℚ) / (Binary64.one : ℕ) = 255 * Binary64.magnitude m s := by
    rw [Binary64.magnitude, Nat.cast_mul 255, mul_div_assoc]
    rfl
  rw [hscaled] at herror
  refine ⟨Binary64.magnitude m' s', by norm_num at herror ⊢; exact herror, ?_⟩
  -- the product may round up to 255, but half a step more is out of its reach
  have hle : roundDiv (m' * 2 ^ s') Binary64.one ≤ 255 := by
    have hn := (abs_le.1 hround.near).2
    have he := (abs_le.1 herror).2
    have hlt : ((roundDiv (m' * 2 ^ s') Binary64.one : ℕ) : ℚ) < 256 := by
      rw [Binary64.magnitude] at he
      linarith
    exact Nat.lt_succ_iff.1 (by exact_mod_cast hlt)
  have halpha : (alpha (.finite false m s)).val = roundDiv (m' * 2 ^ s') Binary64.one := by
    simp only [alpha, Bool.false_eq_true, if_false]
    rw [Nat.shiftLeft_eq, if_neg (not_le.2 h), Binary64.timesNat, Nat.shiftLeft_eq, hproduct, Binary64.round?,
      Nat.shiftLeft_eq, Option.getD_some]
    exact min_eq_left hle
  rw [halpha]
  exact hround

end Opacity

namespace Decimal

/-- The exact value. -/
def toRat (d : Decimal) : ℚ := (d.units : ℚ) / (d.scale : ℚ)

theorem scale_eq (d : Decimal) : d.scale = 10 ^ d.places := rfl

theorem scale_pos (d : Decimal) : 0 < d.scale := by
  rw [scale_eq]
  positivity

theorem toRat_nonneg (d : Decimal) : 0 ≤ d.toRat := by
  unfold toRat
  positivity

theorem one_le_toRat {d : Decimal} : 1 ≤ d.toRat ↔ d.scale ≤ d.units := by
  have hscale : (0 : ℚ) < d.scale := by exact_mod_cast d.scale_pos
  rw [toRat, one_le_div hscale]
  norm_cast

/-- The alpha depends on the exact value alone. -/
theorem alpha_congr {d e : Decimal} (h : d.toRat = e.toRat) : d.alpha = e.alpha := by
  have hd : (d.scale : ℚ) ≠ 0 := by exact_mod_cast d.scale_pos.ne'
  have he : (e.scale : ℚ) ≠ 0 := by exact_mod_cast e.scale_pos.ne'
  rw [toRat, toRat, div_eq_div_iff hd he] at h
  unfold alpha Binary64.ofDecimal
  rw [Binary64.nearest_congr d.scale_pos e.scale_pos (by exact_mod_cast h)]

theorem alpha_of_one_le {d : Decimal} (h : 1 ≤ d.toRat) : d.alpha = 255 := by
  unfold alpha Binary64.ofDecimal
  obtain hinf | ⟨m, s, hfinite, hone⟩ := Binary64.one_le_nearest d.scale_pos (one_le_toRat.1 h)
  · rw [hinf]
    rfl
  · rw [hfinite]
    exact Opacity.alpha_of_one_le hone

/-- The alpha is the whole number nearest to something that is hardly off the exact product. -/
theorem exists_product (d : Decimal) :
    ∃ y : ℚ, |y - 255 * min d.toRat 1| ≤ 1 / 2 ^ 45 ∧ IsNearestEven d.alpha.val y := by
  by_cases h : 1 ≤ d.toRat
  · rw [alpha_of_one_le h, min_eq_right h]
    exact ⟨255, by norm_num, isNearestEven_self 255⟩
  · rw [min_eq_left (not_le.1 h).le]
    have hlt : d.units < d.scale * 2 ^ 0 := by
      rw [pow_zero, mul_one]
      exact not_le.1 (mt one_le_toRat.2 h)
    obtain ⟨m, s, hfinite, herror⟩ := Binary64.nearest_error d.scale_pos hlt (by norm_num)
    have halpha : d.alpha = Opacity.alpha (.finite false m s) := by
      unfold alpha Binary64.ofDecimal
      rw [hfinite]
    rw [halpha]
    obtain ⟨hlo, hhi⟩ := abs_le.1 herror
    rw [← toRat] at hlo hhi
    by_cases hone : Binary64.one ≤ m * 2 ^ s
    · -- rounded up to one, from just below it
      have hmag := Binary64.one_le_magnitude.2 hone
      rw [Opacity.alpha_of_one_le hone]
      refine ⟨255, ?_, isNearestEven_self 255⟩
      rw [abs_le]
      constructor <;> linarith
    · obtain ⟨y, hy, hnear⟩ := Opacity.exists_product (not_le.1 hone)
      refine ⟨y, ?_, hnear⟩
      obtain ⟨hylo, hyhi⟩ := abs_le.1 hy
      rw [abs_le]
      constructor <;> linarith

theorem alpha_near (d : Decimal) : |(d.alpha.val : ℚ) - 255 * min d.toRat 1| ≤ 1 / 2 + 1 / 2 ^ 45 := by
  obtain ⟨y, hy, hnear⟩ := exists_product d
  calc |(d.alpha.val : ℚ) - 255 * min d.toRat 1| ≤ |(d.alpha.val : ℚ) - y| + |y - 255 * min d.toRat 1| :=
        abs_sub_le _ _ _
    _ ≤ 1 / 2 + 1 / 2 ^ 45 := add_le_add hnear.near hy

/-! ## Ties -/

/-- A tie is at a number of tenths, however many digits spell it. -/
theorem exists_tenths {n k j : ℕ} (h : 510 * n = (2 * j + 1) * 10 ^ k) :
    ∃ v, n * 10 = v * 10 ^ k ∧ 51 * v = 2 * j + 1 := by
  cases k with
  | zero => omega
  | succ k =>
    have h' : 51 * n = (2 * j + 1) * 10 ^ k := by
      rw [pow_succ, ← mul_assoc] at h
      omega
    -- 51 has no factor in common with ten
    have hdvd : 10 ^ k ∣ n :=
      Nat.Coprime.dvd_of_dvd_mul_left (Nat.Coprime.pow_left k (by decide)) (Dvd.intro_left _ h'.symm)
    obtain ⟨v, rfl⟩ := hdvd
    refine ⟨v, by rw [pow_succ]; ring, ?_⟩
    have hpow : 0 < 10 ^ k := by positivity
    apply Nat.eq_of_mul_eq_mul_right hpow
    rw [← h']
    ring

/-- The product is half a step away from whole numbers for five values only. -/
theorem tie_iff (d : Decimal) :
    (∃ j : ℕ, 255 * min d.toRat 1 = j + 1 / 2) ↔ ∃ v ∈ [1, 3, 5, 7, 9], d.toRat = (v : ℕ) / 10 := by
  have hscale : (0 : ℚ) < d.scale := by exact_mod_cast d.scale_pos
  constructor
  · rintro ⟨j, hj⟩
    by_cases h : 1 ≤ d.toRat
    · -- the product is 255 itself
      rw [min_eq_right h] at hj
      have hparity : (510 : ℚ) = ((2 * j + 1 : ℕ) : ℚ) := by
        push_cast
        linarith
      have : 510 = 2 * j + 1 := by exact_mod_cast hparity
      omega
    · have hlt := not_le.1 (mt one_le_toRat.2 h)
      rw [min_eq_left (not_le.1 h).le, toRat] at hj
      have hunits : 510 * d.units = (2 * j + 1) * 10 ^ d.places := by
        field_simp at hj
        have : ((510 * d.units : ℕ) : ℚ) = (((2 * j + 1) * d.scale : ℕ) : ℚ) := by
          push_cast
          linarith
        exact_mod_cast this
      obtain ⟨v, hv, hodd⟩ := exists_tenths hunits
      rw [← scale_eq] at hv
      have hten : v < 10 := by
        by_contra hge
        have := Nat.mul_le_mul_right d.scale (not_lt.1 hge)
        omega
      refine ⟨v, ?_, ?_⟩
      · interval_cases v <;> simp <;> omega
      · rw [toRat, div_eq_div_iff hscale.ne' (by norm_num)]
        exact_mod_cast hv
  · rintro ⟨v, hv, h⟩
    rw [h]
    simp only [List.mem_cons, List.not_mem_nil, or_false] at hv
    have hj : v ≤ 9 ∧ 51 * v = 2 * (51 * v / 2) + 1 := by omega
    have hj' : ((51 * v : ℕ) : ℚ) = ((2 * (51 * v / 2) + 1 : ℕ) : ℚ) := by exact_mod_cast hj.2
    have hv9 : (v : ℚ) ≤ 9 := by exact_mod_cast hj.1
    refine ⟨51 * v / 2, ?_⟩
    rw [min_eq_left (by linarith)]
    push_cast at hj' ⊢
    linarith

/-- At the ties the two binary roundings lead to the even neighbour. -/
theorem even_alpha_of_tie {d : Decimal} {v : ℕ} (hv : v ∈ [1, 3, 5, 7, 9]) (h : d.toRat = (v : ℕ) / 10) :
    Even d.alpha.val := by
  have heven : ∀ v ∈ [1, 3, 5, 7, 9], Even (alpha ⟨v, 1⟩).val := by decide +kernel
  have htenths : d.toRat = toRat ⟨v, 1⟩ := by
    rw [h, toRat, scale_eq]
    norm_num
  rw [alpha_congr htenths]
  exact heven v hv

/-! ## No binary rounding can be seen -/

/-- With at most fourteen places the part of a decimal that counts is a whole number of units of
`10 ^ -14`. -/
theorem exists_clamped {d : Decimal} (h : d.places ≤ 14) : ∃ u : ℕ, min d.toRat 1 = (u : ℚ) / 10 ^ 14 := by
  by_cases hone : 1 ≤ d.toRat
  · exact ⟨10 ^ 14, by rw [min_eq_right hone]; norm_num⟩
  · refine ⟨d.units * 10 ^ (14 - d.places), ?_⟩
    have hpow : (10 : ℚ) ^ 14 = 10 ^ d.places * 10 ^ (14 - d.places) := by
      rw [← pow_add, Nat.add_sub_cancel' h]
    rw [min_eq_left (not_le.1 hone).le, toRat, scale_eq, hpow]
    push_cast
    rw [mul_div_mul_right _ _ (by positivity)]

theorem alpha_near_of_places_le {d : Decimal} (h : d.places ≤ 14) :
    |(d.alpha.val : ℚ) - 255 * min d.toRat 1| ≤ 1 / 2 := by
  have hnear := alpha_near d
  obtain ⟨u, hu⟩ := exists_clamped h
  rw [hu] at hnear ⊢
  -- both the distance and the half are multiples of `1 / (2 * 10 ^ 13)`, which is more than `2 ^ -45`
  have hgrid : (d.alpha.val : ℚ) - 255 * (u / 10 ^ 14) =
      ((2 * 10 ^ 13 * d.alpha.val - 51 * u : ℤ) : ℚ) / (2 * 10 ^ 13) := by
    push_cast
    ring
  rw [hgrid] at hnear ⊢
  generalize (2 * 10 ^ 13 * d.alpha.val - 51 * u : ℤ) = w at hnear ⊢
  have hunit : (0 : ℚ) < 2 * 10 ^ 13 := by norm_num
  rw [abs_div, abs_of_pos hunit, div_le_iff₀ hunit] at hnear ⊢
  have hlt : ((|w| : ℤ) : ℚ) < ((10 ^ 13 + 1 : ℤ) : ℚ) := by
    push_cast
    refine lt_of_le_of_lt hnear ?_
    norm_num
  have hle : ((|w| : ℤ) : ℚ) ≤ ((10 ^ 13 : ℤ) : ℚ) := by exact_mod_cast Int.lt_add_one_iff.1 (by exact_mod_cast hlt)
  push_cast at hle
  linarith

theorem alpha_isNearestEven {d : Decimal} (h : d.places ≤ 14) : IsNearestEven d.alpha.val (255 * min d.toRat 1) := by
  refine ⟨alpha_near_of_places_le h, fun htie => ?_⟩
  have hexists : ∃ j : ℕ, 255 * min d.toRat 1 = j + 1 / 2 := by
    rcases (abs_eq (by norm_num)).1 htie with habove | hbelow
    · have hpos : 0 < d.alpha.val := by
        have hnonneg : 0 ≤ min d.toRat 1 := le_min d.toRat_nonneg (by norm_num)
        have : (0 : ℚ) < d.alpha.val := by linarith
        exact_mod_cast this
      refine ⟨d.alpha.val - 1, ?_⟩
      rw [Nat.cast_pred hpos]
      linarith
    · exact ⟨d.alpha.val, by linarith⟩
  obtain ⟨v, hv, htenths⟩ := (tie_iff d).1 hexists
  exact even_alpha_of_tie hv htenths

end Decimal

/-! ## Literals -/

namespace Literal

/-- The digits before the point. -/
def whole (lit : List Char) : List Char := lit.takeWhile (· ≠ '.')

/-- The digits behind the point; without a point there are none. -/
def fraction (lit : List Char) : List Char := (lit.dropWhile (· ≠ '.')).drop 1

/-- The exact value of a literal. -/
def value (lit : List Char) : ℚ :=
  (digitsValue (whole lit) : ℚ) + (digitsValue (fraction lit) : ℚ) / 10 ^ (fraction lit).length

/-- The part of the exact value that counts: nothing above one. -/
def opacity (lit : List Char) : ℚ := min (value lit) 1

theorem parts_text {n : Numeral} (hn : n.WellFormed) : whole n.text = n.whole ∧ fraction n.text = n.fraction := by
  have hdigits : ∀ c ∈ n.whole, decide (c ≠ '.') = true := by
    intro c hc
    have := hn.whole c hc
    rw [decide_eq_true_iff]
    rintro rfl
    exact absurd this (by decide)
  unfold whole fraction Numeral.text
  by_cases hf : n.fraction = []
  · rw [hf, List.isEmpty_nil, if_pos rfl, List.takeWhile_eq_self_iff.2 hdigits, List.dropWhile_eq_nil_iff.2 hdigits]
    exact ⟨rfl, rfl⟩
  · have hpoint : ∀ c ∈ ('.' :: n.fraction).head?, decide (c ≠ '.') = false := by
      rintro c ⟨⟩
      rfl
    rw [if_neg (by simp [hf]), takeWhile_run hdigits hpoint, dropWhile_run hdigits hpoint]
    exact ⟨rfl, rfl⟩

theorem value_text {n : Numeral} (hn : n.WellFormed) : value n.text = n.value.toRat := by
  obtain ⟨hwhole, hfraction⟩ := parts_text hn
  have hpow : (10 : ℚ) ^ n.fraction.length ≠ 0 := by positivity
  rw [value, hwhole, hfraction, Decimal.toRat, Decimal.scale_eq, Numeral.value, Decimal.ofDigits,
    digitsValue_append]
  push_cast
  rw [add_div, mul_div_cancel_right₀ _ hpow]

end Literal

namespace Source

/-- Records with one literal have one alpha. -/
theorem alpha_of_literal {cs : List Char} {r : Replacement} {n : Numeral} (hn : n.WellFormed)
    (hr : r ∈ (edited cs).replacements) (hlit : r.literal = n.text) : r.alpha = n.value.alpha := by
  obtain ⟨ss, s, ts, hsites, rfl⟩ := mem_replacements.1 hr
  have hread := Numeral.decimal_read?_text (wellFormed_of_site hsites).number
  have htext : s.call.number.text = n.text := hlit
  rw [htext, Numeral.decimal_read?_text hn] at hread
  have hvalue : n.value = s.call.number.value := congrArg Prod.fst (Option.some.inj hread)
  rw [hvalue]
  rfl

/-- Wherever a call stands in a source, there is a record with its literal. -/
theorem exists_replacement {lit t : List Char} (hlit : lit ∈ Pattern.literal) (ht : t ∈ Pattern.callOf {lit})
    (a b : List Char) : ∃ r ∈ (edited (a ++ (t ++ b))).replacements, r.literal = lit := by
  obtain ⟨n, hn, rfl⟩ := Pattern.mem_literal.1 hlit
  obtain ⟨before, lit, after, hb, hl, ha, rfl⟩ := Pattern.mem_callOf.1 ht
  obtain rfl : lit = n.text := hl
  have hwf : OpacityCall.WellFormed ⟨before, n, after⟩ := ⟨hb, hn, ha⟩
  obtain ⟨ss, s, ts, hsites, -, hcall⟩ := exists_site_of_call hwf (rfl : a ++ (OpacityCall.text _ ++ b) = _)
  exact ⟨_, mem_replacements.2 ⟨ss, s, ts, hsites, rfl⟩, by rw [recordAt, hcall]⟩

/-- Every literal has one alpha, which is recorded for it wherever a call with it stands. Against the
exact value of the literal it is off by half a step and `2 ^ -45` at most; with at most fourteen
digits behind the point it is the nearest whole number, ties to even. Ties there are at odd tenths
only. -/
theorem recorded_alpha_is_accurate (lit : List Char) (hlit : lit ∈ Pattern.literal) :
    ∃ alpha : Alpha,
      (∀ cs, ∀ r ∈ (edited cs).replacements, r.literal = lit → r.alpha = alpha) ∧
      (∀ t ∈ Pattern.callOf {lit}, ∀ a b, ∃ r ∈ (edited (a ++ (t ++ b))).replacements, r.literal = lit) ∧
      |(alpha.val : ℚ) - 255 * Literal.opacity lit| ≤ 1 / 2 + 1 / 2 ^ 45 ∧
      ((Literal.fraction lit).length ≤ 14 → IsNearestEven alpha.val (255 * Literal.opacity lit)) ∧
      ((∃ j : ℕ, 255 * Literal.opacity lit = j + 1 / 2) ↔ ∃ v ∈ [1, 3, 5, 7, 9], Literal.value lit = (v : ℕ) / 10) := by
  obtain ⟨n, hn, rfl⟩ := Pattern.mem_literal.1 hlit
  rw [Literal.opacity, Literal.value_text hn, (Literal.parts_text hn).2]
  exact ⟨n.value.alpha, fun cs r hr h => alpha_of_literal hn hr h, fun t ht a b => exists_replacement hlit ht a b,
    n.value.alpha_near, fun h => Decimal.alpha_isNearestEven h, n.value.tie_iff⟩

/-- A tie of which binary64 has no exact spelling. -/
theorem recorded_alpha_of_seven_tenths :
    "0.7".toList ∈ Pattern.literal ∧ ∃ alpha : Alpha,
      (∀ cs, ∀ r ∈ (edited cs).replacements, r.literal = "0.7".toList → r.alpha = alpha) ∧
      IsNearestEven alpha.val (255 * Literal.opacity "0.7".toList) := by
  have hlit : "0.7".toList ∈ Pattern.literal :=
    Pattern.mem_literal.2 ⟨⟨['0'], ['7']⟩,
      ⟨List.forall_mem_singleton.2 rfl, List.forall_mem_singleton.2 rfl, Or.inl (List.cons_ne_nil _ _)⟩, rfl⟩
  obtain ⟨alpha, hrecorded, -, -, hnearest, -⟩ := recorded_alpha_is_accurate _ hlit
  exact ⟨hlit, alpha, hrecorded, hnearest (by decide)⟩

end Source
end AlphaCodemod
