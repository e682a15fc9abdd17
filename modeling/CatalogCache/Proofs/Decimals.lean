import CatalogCache.Proofs.Rounding

/-!
# Decimals

A decimal is rounded by its value, whatever its digits and its exponent are. Of every number of the
format but zero, the shortest digits are rounded to the number.
-/

namespace CatalogCache

theorem Text.length_toDigits {n : Nat} (h : n ≠ 0) :
    (Nat.toDigits 10 n).length = Nat.log 10 n + 1 := by
  induction n using Nat.strongRecOn with
  | _ n ih =>
    by_cases hn : n < 10
    · rw [Nat.toDigits_of_lt_base hn, Nat.log_of_lt hn]
      rfl
    · rw [Nat.toDigits_of_base_le (by decide) (not_lt.mp hn), List.length_append,
        ih (n / 10) (by omega) (by omega), Nat.log_of_one_lt_of_le (by decide) (not_lt.mp hn)]
      rfl

namespace Binary64

variable {negative : Bool} {digits digits' mantissa : Nat} {exponent t t' : Int}

/-! ## Rounding by value -/

/-- A decimal as a quotient of naturals. -/
def decimalRatio (digits : Nat) (t : Int) : Nat × Nat :=
  if 0 ≤ t then (digits * Nat.pow 10 t.toNat, 1) else (digits, Nat.pow 10 (-t).toNat)

theorem decimalRatio_pos (digits : Nat) (t : Int) : 0 < (decimalRatio digits t).2 := by
  unfold decimalRatio
  split_ifs
  · exact Nat.one_pos
  · exact Nat.pow_pos (by decide)

theorem decimalRatio_value (digits : Nat) (t : Int) :
    ((decimalRatio digits t).1 : ℚ) / (decimalRatio digits t).2 = digits * 10 ^ t := by
  unfold decimalRatio
  split_ifs with h
  · obtain ⟨n, rfl⟩ := Int.eq_ofNat_of_zero_le h
    simp
  · obtain ⟨n, hn⟩ := Int.eq_ofNat_of_zero_le (by omega : 0 ≤ -t)
    obtain rfl : t = -n := by omega
    simp [div_eq_mul_inv]

theorem magnitude_eq (h : digits ≠ 0) (t : Int) : t + (Nat.toDigits 10 digits).length =
    Int.log 10 ((digits : ℚ) * 10 ^ t) + 1 := by
  have hlog := log_mul_zpow (by decide : 1 < 10) h t
  rw [Nat.cast_ofNat] at hlog
  rw [Text.length_toDigits h, hlog]
  omega

theorem ofDecimal_eq (negative : Bool) (h : digits ≠ 0) (t : Int) : ofDecimal negative digits t =
    if 400 < Int.log 10 ((digits : ℚ) * 10 ^ t) + 1 then infinite negative
    else if Int.log 10 ((digits : ℚ) * 10 ^ t) + 1 < -400 then zero negative
    else ofRatio negative (decimalRatio digits t).1 (decimalRatio digits t).2 := by
  rw [ofDecimal, if_neg h, magnitude_eq h]
  unfold decimalRatio
  dsimp only
  split_ifs <;> rfl

theorem ofDecimal_congr (negative : Bool) (h : (digits : ℚ) * 10 ^ t = digits' * 10 ^ t') :
    ofDecimal negative digits t = ofDecimal negative digits' t' := by
  have hpow : ∀ t : Int, (10 : ℚ) ^ t ≠ 0 := fun t => zpow_ne_zero t (by norm_num)
  by_cases hdigits : digits = 0
  · subst hdigits
    rw [Nat.cast_zero, zero_mul, eq_comm, mul_eq_zero_iff_right (hpow t'), Nat.cast_eq_zero] at h
    rw [h]
    rfl
  · have hdigits' : digits' ≠ 0 := by
      rintro rfl
      rw [Nat.cast_zero, zero_mul, mul_eq_zero_iff_right (hpow t), Nat.cast_eq_zero] at h
      exact hdigits h
    have hratio : (decimalRatio digits t).1 * (decimalRatio digits' t').2 =
        (decimalRatio digits' t').1 * (decimalRatio digits t).2 := by
      have hden : ((decimalRatio digits t).2 : ℚ) ≠ 0 := by
        exact_mod_cast (decimalRatio_pos digits t).ne'
      have hden' : ((decimalRatio digits' t').2 : ℚ) ≠ 0 := by
        exact_mod_cast (decimalRatio_pos digits' t').ne'
      rw [← decimalRatio_value, ← decimalRatio_value digits', div_eq_div_iff hden hden'] at h
      exact_mod_cast h
    rw [ofDecimal_eq negative hdigits, ofDecimal_eq negative hdigits', h,
      ofRatio_congr negative (decimalRatio_pos _ _) (decimalRatio_pos _ _) hratio]

theorem ofDecimal_mul_pow (negative : Bool) (digits k : Nat) (t : Int) :
    ofDecimal negative (digits * 10 ^ k) t = ofDecimal negative digits (t + k) := by
  apply ofDecimal_congr
  rw [zpow_add₀ (by norm_num), zpow_natCast]
  push_cast
  ring

theorem ofDecimal_sign (negative : Bool) (digits : Nat) (t : Int) :
    ofDecimal negative digits t = (ofDecimal false digits t).withSign negative := by
  unfold ofDecimal
  dsimp only
  split_ifs
  · rfl
  · rfl
  · rfl
  · exact ofRatio_sign negative _ _
  · exact ofRatio_sign negative _ _

theorem ofDecimal_valid (negative : Bool) (digits : Nat) (t : Int) :
    (ofDecimal negative digits t).IsValid := by
  unfold ofDecimal
  dsimp only
  split_ifs
  · exact valid_zero negative
  · trivial
  · exact valid_zero negative
  · exact ofRatio_valid negative _ Nat.one_pos
  · exact ofRatio_valid negative _ (Nat.pow_pos (by decide))

/-! ## Reading back -/

theorem two_pow_le (n : Nat) : (2 : ℚ) ^ (3 * n) ≤ 10 ^ n := by
  rw [pow_mul]
  gcongr
  norm_num

theorem zpow_neg_le (n : Nat) : (10 : ℚ) ^ (-(n : Int)) ≤ 2 ^ (-((3 * n : Nat) : Int)) := by
  rw [zpow_neg, zpow_neg, zpow_natCast, zpow_natCast]
  exact inv_anti₀ (by positivity) (two_pow_le n)

theorem ofDecimal_exact (negative : Bool) (h : Fits mantissa exponent) (hmantissa : mantissa ≠ 0)
    (hvalue : (digits : ℚ) * 10 ^ t = mantissa * 2 ^ exponent) :
    ofDecimal negative digits t = finite negative mantissa exponent := by
  have hpos : (1 : ℚ) ≤ mantissa := by exact_mod_cast Nat.pos_of_ne_zero hmantissa
  have hdigits : digits ≠ 0 := by
    rintro rfl
    rw [Nat.cast_zero, zero_mul] at hvalue
    have hpow : (0 : ℚ) < 2 ^ exponent := by positivity
    have hproduct : (0 : ℚ) < mantissa * 2 ^ exponent := by positivity
    exact hproduct.ne hvalue
  -- numbers of the format are well inside the range that is computed
  have hlow : -358 ≤ Int.log 10 ((mantissa : ℚ) * 2 ^ exponent) := by
    have hleast : minExponent = -((3 * 358 : Nat) : Int) := by decide
    rw [← Int.zpow_le_iff_le_log (by decide) (by positivity), Nat.cast_ofNat]
    calc (10 : ℚ) ^ (-358 : Int) ≤ 2 ^ (-((3 * 358 : Nat) : Int)) := zpow_neg_le 358
      _ = 1 * 2 ^ minExponent := by rw [hleast, one_mul]
      _ ≤ mantissa * 2 ^ exponent := by
        gcongr
        · norm_num
        · exact h.least
  have hhigh : Int.log 10 ((mantissa : ℚ) * 2 ^ exponent) < 342 := by
    have hbelow : (mantissa : ℚ) < 2 ^ (53 : Int) := by exact_mod_cast h.below
    have hgreatest : 53 + exponent ≤ (3 * 342 : Nat) := by
      have hexponent := h.greatest
      unfold maxExponent at hexponent
      omega
    rw [← Int.lt_zpow_iff_log_lt (by decide) (by positivity), Nat.cast_ofNat]
    calc (mantissa : ℚ) * 2 ^ exponent < 2 ^ (53 : Int) * 2 ^ exponent := by gcongr
      _ = 2 ^ (53 + exponent) := (zpow_add₀ two_ne_zero _ _).symm
      _ ≤ 2 ^ ((3 * 342 : Nat) : Int) := zpow_le_zpow_right₀ one_le_two hgreatest
      _ = 2 ^ (3 * 342) := zpow_natCast _ _
      _ ≤ 10 ^ 342 := two_pow_le 342
      _ = 10 ^ (342 : Int) := (zpow_natCast 10 342).symm
  rw [ofDecimal_eq negative hdigits, hvalue, if_neg (by omega), if_neg (by omega)]
  exact ofRatio_exact negative h hmantissa (decimalRatio_pos _ _)
    ((decimalRatio_value _ _).trans hvalue)

theorem exactDecimal_value (mantissa : Nat) (exponent : Int) :
    ((exactDecimal mantissa exponent).digits : ℚ) *
      10 ^ (exactDecimal mantissa exponent).exponent = mantissa * 2 ^ exponent := by
  unfold exactDecimal
  split_ifs with h
  · obtain ⟨n, rfl⟩ := Int.eq_ofNat_of_zero_le h
    simp
  · obtain ⟨n, hn⟩ := Int.eq_ofNat_of_zero_le (by omega : 0 ≤ -exponent)
    obtain rfl : exponent = -n := by omega
    have hten : (10 : ℚ) ^ n = 5 ^ n * 2 ^ n := by rw [← mul_pow]; norm_num
    simp [hten]
    field_simp

theorem readsBack_of_onGrid {step : Int} {d : Decimal}
    (h : onGrid mantissa exponent step = some d) :
    readsBack mantissa exponent d = true := by
  have hchosen : ∀ {a b : Decimal}, (if readsBack mantissa exponent a then some a
      else if readsBack mantissa exponent b then some b else none) = some d →
      readsBack mantissa exponent d = true := by
    intro a b hd
    split_ifs at hd with ha hb
    · exact Option.some.inj hd ▸ ha
    · exact Option.some.inj hd ▸ hb
  exact hchosen h

/-- **Reading back.** The shortest digits of a number are rounded to the number. -/
theorem ofDecimal_shortest (negative : Bool) (h : Fits mantissa exponent)
    (hmantissa : mantissa ≠ 0) :
    ofDecimal negative (shortest mantissa exponent).digits (shortest mantissa exponent).exponent =
      finite negative mantissa exponent := by
  have hback : ofDecimal false (shortest mantissa exponent).digits
      (shortest mantissa exponent).exponent = finite false mantissa exponent := by
    unfold shortest
    dsimp only
    generalize hgrids : List.findSome? _ (List.range 17) = found
    cases found with
    | none => exact ofDecimal_exact false h hmantissa (exactDecimal_value mantissa exponent)
    | some d =>
      obtain ⟨more, -, hd⟩ := List.exists_of_findSome?_eq_some hgrids
      exact of_decide_eq_true (readsBack_of_onGrid hd)
  rw [ofDecimal_sign, hback]
  rfl

end Binary64

end CatalogCache
