/-
A greater opacity never has a lesser alpha, be it a binary64 number or a literal. An alpha is made in steps each of
which keeps the order: a literal is rounded to binary64, the number is clamped, 255 times as much is rounded to
binary64, and that to a whole number. So an alpha does not depend on how a number is spelled either.
-/
import AlphaCodemod.Proofs.Number.Order
import AlphaCodemod.Proofs.Source.Accuracy

namespace AlphaCodemod

/-! ## Opacities -/

namespace Opacity

/-- The units of the part of an opacity that counts: nothing below zero and nothing above one. -/
def clamped : Binary64 → ℕ
  | .nan => 0
  | .infinite negative => if negative then 0 else Binary64.one
  | .finite negative significand shift => if negative then 0 else min (significand * 2 ^ shift) Binary64.one

theorem clamped_le_one (x : Binary64) : clamped x ≤ Binary64.one := by
  cases x with
  | nan => exact Nat.zero_le _
  | infinite negative => cases negative <;> simp [clamped]
  | finite negative m s => cases negative <;> simp [clamped]

/-- Between zero and one, what a number reaches it reaches clamped as well. -/
theorem le_clamped_iff {x : Binary64} {a : WithBot (WithTop ℚ)} (ha : x.value? = some a) {k : ℕ} (hpos : 0 < k)
    (hone : k ≤ Binary64.one) : k ≤ clamped x ↔ ((Binary64.magnitude k 0 : WithTop ℚ) : WithBot (WithTop ℚ)) ≤ a := by
  have hmagnitude : 0 < Binary64.magnitude k 0 := by
    rw [Binary64.magnitude, pow_zero, mul_one]
    exact div_pos (by exact_mod_cast hpos) (by exact_mod_cast Binary64.one_pos)
  cases x with
  | nan => cases ha
  | infinite negative =>
    obtain rfl := Option.some.inj ha
    cases negative with
    | true => simpa [clamped] using hpos.ne'
    | false => simpa [clamped] using hone
  | finite negative m s =>
    obtain rfl := Option.some.inj ha
    cases negative with
    | true =>
      have hnonneg := Binary64.magnitude_nonneg m s
      rw [if_pos rfl, WithBot.coe_le_coe, WithTop.coe_le_coe]
      show k ≤ 0 ↔ _
      constructor
      · omega
      · intro h
        linarith
    | false => simp [clamped, hone, Binary64.magnitude_le_magnitude]

theorem clamped_mono {x y : Binary64} (h : x ≤ y) : clamped x ≤ clamped y := by
  obtain ⟨a, ha, b, hb, hab⟩ := Binary64.le_iff.1 h
  rcases Nat.eq_zero_or_pos (clamped x) with hzero | hpos
  · rw [hzero]
    exact Nat.zero_le _
  · have hone := clamped_le_one x
    exact (le_clamped_iff hb hpos hone).2 (((le_clamped_iff ha hpos hone).1 le_rfl).trans hab)

/-- The alpha of so many units: the whole number nearest to 255 times as much. -/
def alphaOfUnits (units : ℕ) : Alpha :=
  Alpha.ofSteps (((Binary64.nearest (255 * units) Binary64.one).round?).getD 255)

theorem alphaOfUnits_zero : alphaOfUnits 0 = 0 := by decide +kernel

theorem alphaOfUnits_one : alphaOfUnits Binary64.one = 255 := by decide +kernel

theorem alphaOfUnits_mono {units units' : ℕ} (h : units ≤ units') (hone : units' ≤ Binary64.one) :
    alphaOfUnits units ≤ alphaOfUnits units' := by
  have hpos := Binary64.one_pos
  obtain ⟨m, s, hfinite, -⟩ :=
    Binary64.nearest_error (n := 255 * units) (k := 8) hpos (by omega) (by norm_num)
  obtain ⟨m', s', hfinite', -⟩ :=
    Binary64.nearest_error (n := 255 * units') (k := 8) hpos (by omega) (by norm_num)
  have hproduct : Binary64.nearest (255 * units) Binary64.one ≤ Binary64.nearest (255 * units') Binary64.one :=
    Binary64.nearest_mono hpos hpos (Nat.mul_le_mul_right _ (Nat.mul_le_mul_left _ h))
  rw [hfinite, hfinite', Binary64.finite_le_finite] at hproduct
  have hround := roundDiv_mono hpos hpos (Nat.mul_le_mul_right Binary64.one hproduct)
  unfold alphaOfUnits
  rw [hfinite, hfinite', Binary64.round?, Binary64.round?, Nat.shiftLeft_eq, Nat.shiftLeft_eq, Option.getD_some,
    Option.getD_some]
  exact Fin.le_def.2 (min_le_min_right 255 hround)

/-- An alpha is made from the clamped units alone. -/
theorem alpha_eq (x : Binary64) : alpha x = alphaOfUnits (clamped x) := by
  cases x with
  | nan => exact alphaOfUnits_zero.symm
  | infinite negative =>
    cases negative with
    | true => exact alphaOfUnits_zero.symm
    | false => exact alphaOfUnits_one.symm
  | finite negative m s =>
    cases negative with
    | true => exact alphaOfUnits_zero.symm
    | false =>
      by_cases h : Binary64.one ≤ m * 2 ^ s
      · rw [alpha_of_one_le h, clamped, if_neg Bool.false_ne_true, min_eq_right h, alphaOfUnits_one]
      · simp only [alpha, Bool.false_eq_true, if_false]
        rw [Nat.shiftLeft_eq, if_neg h, Binary64.timesNat, Nat.shiftLeft_eq, clamped, if_neg Bool.false_ne_true,
          min_eq_left (not_le.1 h).le]
        rfl

/-- A greater opacity has no lesser alpha. -/
theorem alpha_mono {x y : Binary64} (h : x ≤ y) : alpha x ≤ alpha y := by
  rw [alpha_eq, alpha_eq]
  exact alphaOfUnits_mono (clamped_mono h) (clamped_le_one y)

end Opacity

/-! ## Decimals and numerals -/

theorem Decimal.alpha_mono {d e : Decimal} (h : d.toRat ≤ e.toRat) : d.alpha ≤ e.alpha := by
  have hd : (0 : ℚ) < d.scale := by exact_mod_cast d.scale_pos
  have he : (0 : ℚ) < e.scale := by exact_mod_cast e.scale_pos
  rw [toRat, toRat, div_le_div_iff₀ hd he] at h
  exact Opacity.alpha_mono (Binary64.nearest_mono d.scale_pos e.scale_pos (by exact_mod_cast h))

theorem digitsValue_zeros (k : ℕ) : digitsValue (List.replicate k '0') = 0 := by
  induction k with
  | zero => rfl
  | succ k ih =>
    have hzero : digitsValue ['0'] = 0 := rfl
    rw [List.replicate_succ, ← List.singleton_append, digitsValue_append, ih, hzero, zero_mul]

namespace Numeral

/-- The numeral with zeros before its whole part and behind its fraction. -/
def padded (n : Numeral) (i j : ℕ) : Numeral :=
  ⟨List.replicate i '0' ++ n.whole, n.fraction ++ List.replicate j '0'⟩

theorem isDigit_of_mem_zeros {k : ℕ} {c : Char} (hc : c ∈ List.replicate k '0') : isDigit c = true := by
  rw [List.eq_of_mem_replicate hc]
  rfl

theorem WellFormed.padded {n : Numeral} (hn : n.WellFormed) (i j : ℕ) : (n.padded i j).WellFormed where
  whole c hc := by
    rcases List.mem_append.1 hc with hc | hc
    · exact isDigit_of_mem_zeros hc
    · exact hn.whole c hc
  fraction c hc := by
    rcases List.mem_append.1 hc with hc | hc
    · exact hn.fraction c hc
    · exact isDigit_of_mem_zeros hc
  nonempty := by
    rcases hn.nonempty with h | h
    · exact Or.inl (List.append_ne_nil_of_right_ne_nil _ h)
    · exact Or.inr (List.append_ne_nil_of_left_ne_nil h _)

theorem toRat_value_padded (n : Numeral) (i j : ℕ) : (n.padded i j).value.toRat = n.value.toRat := by
  have hunits : (n.padded i j).value.units = n.value.units * 10 ^ j := by
    simp only [value, padded, Decimal.ofDigits, List.append_assoc]
    rw [digitsValue_append, digitsValue_zeros, zero_mul, zero_add, ← List.append_assoc, digitsValue_append,
      digitsValue_zeros, List.length_replicate, add_zero]
  have hscale : (n.padded i j).value.scale = n.value.scale * 10 ^ j := by
    rw [Decimal.scale_eq, Decimal.scale_eq, ← pow_add]
    simp [value, padded, Decimal.ofDigits]
  have hpow : ((10 : ℚ) ^ j) ≠ 0 := by positivity
  rw [Decimal.toRat, hunits, hscale]
  push_cast
  exact mul_div_mul_right _ _ hpow

end Numeral

/-! ## Literals -/

namespace Source

/-- Wherever a call with the literal stands there is a record with it, and every record with it has this alpha. -/
structure IsRecordedAs (lit : List Char) (alpha : Alpha) : Prop where
  found : ∀ t ∈ Pattern.callOf {lit}, ∀ a b, ∃ r ∈ (edited (a ++ (t ++ b))).replacements, r.literal = lit
  alpha : ∀ cs, ∀ r ∈ (edited cs).replacements, r.literal = lit → r.alpha = alpha

theorem isRecordedAs_text {n : Numeral} (hn : n.WellFormed) : IsRecordedAs n.text n.value.alpha where
  found _ ht a b := exists_replacement (Pattern.mem_literal.2 ⟨n, hn, rfl⟩) ht a b
  alpha _ _ hr hlit := alpha_of_literal hn hr hlit

/-- A greater opacity has no lesser alpha. This is so for binary64 numbers of every kind and for the alphas that are
recorded for literals; literals with one value have one alpha, and zeros in front and behind do not change the
value. -/
theorem conversion_is_monotone :
    (∀ x y : Binary64, x ≤ y → Opacity.alpha x ≤ Opacity.alpha y) ∧
    (∀ lit ∈ Pattern.literal, ∀ lit' ∈ Pattern.literal, Literal.value lit ≤ Literal.value lit' →
      ∃ alpha alpha', IsRecordedAs lit alpha ∧ IsRecordedAs lit' alpha' ∧ alpha ≤ alpha') ∧
    (∀ lit ∈ Pattern.literal, ∀ lit' ∈ Pattern.literal, Literal.value lit = Literal.value lit' →
      ∃ alpha, IsRecordedAs lit alpha ∧ IsRecordedAs lit' alpha) ∧
    ∀ n : Numeral, n.WellFormed → ∀ i j,
      (n.padded i j).text ∈ Pattern.literal ∧ Literal.value (n.padded i j).text = Literal.value n.text := by
  refine ⟨fun x y h => Opacity.alpha_mono h, fun lit hlit lit' hlit' h => ?_, fun lit hlit lit' hlit' h => ?_,
    fun n hn i j => ⟨Pattern.mem_literal.2 ⟨_, hn.padded i j, rfl⟩, ?_⟩⟩
  · obtain ⟨n, hn, rfl⟩ := Pattern.mem_literal.1 hlit
    obtain ⟨n', hn', rfl⟩ := Pattern.mem_literal.1 hlit'
    rw [Literal.value_text hn, Literal.value_text hn'] at h
    exact ⟨_, _, isRecordedAs_text hn, isRecordedAs_text hn', Decimal.alpha_mono h⟩
  · obtain ⟨n, hn, rfl⟩ := Pattern.mem_literal.1 hlit
    obtain ⟨n', hn', rfl⟩ := Pattern.mem_literal.1 hlit'
    rw [Literal.value_text hn, Literal.value_text hn'] at h
    have hrecorded := isRecordedAs_text hn'
    rw [← Decimal.alpha_congr h] at hrecorded
    exact ⟨_, isRecordedAs_text hn, hrecorded⟩
  · rw [Literal.value_text (hn.padded i j), Literal.value_text hn, Numeral.toRat_value_padded]

/-- Zeros that need not be there. -/
theorem spellings_of_one_half : ∃ alpha, IsRecordedAs ".5".toList alpha ∧ IsRecordedAs "00.500".toList alpha := by
  have hhalf : (⟨[], ['5']⟩ : Numeral).WellFormed :=
    ⟨List.forall_mem_nil _, List.forall_mem_singleton.2 rfl, Or.inr (List.cons_ne_nil _ _)⟩
  obtain ⟨hpadded, hvalue⟩ := conversion_is_monotone.2.2.2 _ hhalf 2 2
  exact conversion_is_monotone.2.2.1 _ (Pattern.mem_literal.2 ⟨_, hhalf, rfl⟩) _ hpadded hvalue.symm

end Source
end AlphaCodemod
