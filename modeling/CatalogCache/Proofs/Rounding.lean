import CatalogCache.Number.Shortest
import Mathlib

/-!
# Rounding

A quotient is rounded by its value alone. What comes out is a number of the format, and a number of
the format comes out as it is. So the exact decimal digits of a number read as the number.
-/

namespace CatalogCache.Binary64

/-! ## Numbers of the format -/

/-- A mantissa and an exponent as the format has them. -/
structure Fits (mantissa : Nat) (exponent : Int) : Prop where
  below : mantissa < 2 ^ 53
  normal : 2 ^ 52 ≤ mantissa ∨ exponent = minExponent
  least : minExponent ≤ exponent
  greatest : exponent ≤ maxExponent

def IsValid : Binary64 → Prop
  | finite _ mantissa exponent => Fits mantissa exponent
  | nan | infinite _ => True

theorem valid_zero (negative : Bool) : (zero negative).IsValid :=
  ⟨by decide, .inr rfl, le_rfl, by decide⟩

/-- The number with the given sign. -/
def withSign (negative : Bool) : Binary64 → Binary64
  | nan => nan
  | infinite _ => infinite negative
  | finite _ mantissa exponent => finite negative mantissa exponent

/-! ## Quotients -/

variable {negative : Bool} {num den k mantissa : Nat} {exponent : Int}

theorem roundQuotient_mul (num den : Nat) (hk : 0 < k) :
    roundQuotient (num * k) (den * k) = roundQuotient num den := by
  have hrest : 2 * (num * k % (den * k)) = 2 * (num % den) * k := by
    rw [Nat.mul_mod_mul_right, Nat.mul_assoc]
  simp only [roundQuotient, Nat.mul_div_mul_right _ _ hk, hrest, Nat.mul_lt_mul_right hk,
    Nat.mul_left_inj hk.ne']

theorem le_roundQuotient (num den : Nat) : num / den ≤ roundQuotient num den := by
  unfold roundQuotient
  dsimp only
  split_ifs <;> omega

theorem roundQuotient_le (num den : Nat) : roundQuotient num den ≤ num / den + 1 := by
  unfold roundQuotient
  dsimp only
  split_ifs <;> omega

theorem roundQuotient_exact (hden : 0 < den) : roundQuotient (mantissa * den) den = mantissa := by
  unfold roundQuotient
  rw [Nat.mul_div_cancel _ hden, Nat.mul_mod_left, if_pos (.inl (by omega))]

theorem scaleDown_pos (hden : 0 < den) (num : Nat) (exponent : Int) :
    0 < (scaleDown num den exponent).2 := by
  unfold scaleDown
  split_ifs
  · exact Nat.mul_pos hden (Nat.two_pow_pos _)
  · exact hden

theorem scaleDown_mul (num den k : Nat) (exponent : Int) :
    scaleDown (num * k) (den * k) exponent =
      ((scaleDown num den exponent).1 * k, (scaleDown num den exponent).2 * k) := by
  unfold scaleDown
  split_ifs <;> simp only [Nat.mul_right_comm]

theorem scaleDown_value (num den : Nat) (exponent : Int) :
    ((scaleDown num den exponent).1 : ℚ) / (scaleDown num den exponent).2 =
      num / den / 2 ^ exponent := by
  unfold scaleDown
  split_ifs with h
  · obtain ⟨n, rfl⟩ := Int.eq_ofNat_of_zero_le h
    simp [div_div]
  · obtain ⟨n, hn⟩ := Int.eq_ofNat_of_zero_le (by omega : 0 ≤ -exponent)
    obtain rfl : exponent = -n := by omega
    simp [div_eq_mul_inv, mul_right_comm]

/-! ## The exponent -/

theorem floorLog2_eq_log (hnum : 0 < num) (hden : 0 < den) :
    floorLog2 num den = Int.log 2 ((num : ℚ) / den) := by
  have hnum' : (0 : ℚ) < num := by exact_mod_cast hnum
  have hden' : (0 : ℚ) < den := by exact_mod_cast hden
  have hratio : (0 : ℚ) < num / den := div_pos hnum' hden'
  have hreaches : ∀ t : Int, (scaleDown num den t).2 ≤ (scaleDown num den t).1 ↔
      t ≤ Int.log 2 ((num : ℚ) / den) := by
    intro t
    have hunit : (0 : ℚ) < (scaleDown num den t).2 := by exact_mod_cast scaleDown_pos hden num t
    have hpow : (0 : ℚ) < 2 ^ t := by positivity
    rw [← Int.zpow_le_iff_le_log one_lt_two hratio, Nat.cast_ofNat, ← one_le_div hpow,
      ← scaleDown_value, one_le_div hunit, Nat.cast_le]
  have hnumLow : (2 : ℚ) ^ (num.log2 : Int) ≤ num := by
    exact_mod_cast Nat.log2_self_le hnum.ne'
  have hnumHigh : (num : ℚ) < 2 ^ ((num.log2 : Int) + 1) := by
    exact_mod_cast Nat.lt_log2_self
  have hdenLow : (2 : ℚ) ^ (den.log2 : Int) ≤ den := by
    exact_mod_cast Nat.log2_self_le hden.ne'
  have hdenHigh : (den : ℚ) ≤ 2 ^ ((den.log2 : Int) + 1) := by
    exact_mod_cast Nat.lt_log2_self.le
  -- the lengths of both numbers tell the exponent, or the one above it
  have hlow : (num.log2 : Int) - den.log2 - 1 ≤ Int.log 2 ((num : ℚ) / den) := by
    rw [← Int.zpow_le_iff_le_log one_lt_two hratio, Nat.cast_ofNat, le_div_iff₀ hden']
    calc (2 : ℚ) ^ ((num.log2 : Int) - den.log2 - 1) * den
        ≤ 2 ^ ((num.log2 : Int) - den.log2 - 1) * 2 ^ ((den.log2 : Int) + 1) := by gcongr
      _ = 2 ^ (num.log2 : Int) := by rw [← zpow_add₀ two_ne_zero]; congr 1; omega
      _ ≤ num := hnumLow
  have hhigh : Int.log 2 ((num : ℚ) / den) < (num.log2 : Int) - den.log2 + 1 := by
    rw [← Int.lt_zpow_iff_log_lt one_lt_two hratio, Nat.cast_ofNat, div_lt_iff₀ hden']
    calc (num : ℚ) < 2 ^ ((num.log2 : Int) + 1) := hnumHigh
      _ = 2 ^ ((num.log2 : Int) - den.log2 + 1) * 2 ^ (den.log2 : Int) := by
        rw [← zpow_add₀ two_ne_zero]; congr 1; omega
      _ ≤ 2 ^ ((num.log2 : Int) - den.log2 + 1) * den := by gcongr
  simp only [floorLog2, hreaches]
  split_ifs <;> omega

theorem log_mul_zpow {base n : Nat} (hbase : 1 < base) (hn : n ≠ 0) (t : Int) :
    Int.log base ((n : ℚ) * (base : ℚ) ^ t) = Nat.log base n + t := by
  have hbase' : (0 : ℚ) < base := by exact_mod_cast Nat.zero_lt_of_lt hbase
  have hn' : (0 : ℚ) < n := by exact_mod_cast Nat.pos_of_ne_zero hn
  have hpow : (0 : ℚ) < (base : ℚ) ^ t := zpow_pos hbase' t
  have hiff : ∀ u : Int, u ≤ Int.log base ((n : ℚ) * (base : ℚ) ^ t) ↔ u ≤ Nat.log base n + t := by
    intro u
    rw [← Int.zpow_le_iff_le_log hbase (mul_pos hn' hpow), ← div_le_iff₀ hpow,
      ← zpow_sub₀ hbase'.ne', Int.zpow_le_iff_le_log hbase hn', Int.log_natCast]
    omega
  exact le_antisymm ((hiff _).mp le_rfl) ((hiff _).mpr le_rfl)

/-! ## Rounding by value -/

theorem ofRatio_mul (negative : Bool) (num : Nat) (hden : 0 < den) (hk : 0 < k) :
    ofRatio negative (num * k) (den * k) = ofRatio negative num den := by
  unfold ofRatio
  by_cases hnum : num = 0
  · rw [hnum, Nat.zero_mul]
    rfl
  · have hlog : floorLog2 (num * k) (den * k) = floorLog2 num den := by
      have hpos := Nat.pos_of_ne_zero hnum
      have hk' : (k : ℚ) ≠ 0 := by exact_mod_cast hk.ne'
      rw [floorLog2_eq_log (Nat.mul_pos hpos hk) (Nat.mul_pos hden hk),
        floorLog2_eq_log hpos hden, Nat.cast_mul, Nat.cast_mul, mul_div_mul_right _ _ hk']
    rw [if_neg hnum, if_neg (Nat.mul_ne_zero hnum hk.ne'), hlog]
    simp only [scaleDown_mul, roundQuotient_mul _ _ hk]

theorem ofRatio_congr (negative : Bool) {num' den' : Nat} (hden : 0 < den) (hden' : 0 < den')
    (h : num * den' = num' * den) : ofRatio negative num den = ofRatio negative num' den' := by
  rw [← ofRatio_mul negative num hden hden', h, Nat.mul_comm den, ofRatio_mul _ _ hden' hden]

theorem ofRatio_sign (negative : Bool) (num den : Nat) :
    ofRatio negative num den = (ofRatio false num den).withSign negative := by
  unfold ofRatio
  dsimp only
  split_ifs <;> rfl

/-! ## What rounding gives -/

/-- The exponent at which a quotient is rounded. -/
def unitExponent (num den : Nat) : Int := max (floorLog2 num den - 52) minExponent

/-- The mantissa to which it is rounded, before that is carried. -/
def roundedMantissa (num den : Nat) : Nat :=
  roundQuotient (scaleDown num den (unitExponent num den)).1
    (scaleDown num den (unitExponent num den)).2

section

variable (hnum : 0 < num) (hden : 0 < den)

include hnum hden

theorem quotient_bounds :
    (scaleDown num den (unitExponent num den)).1 / (scaleDown num den (unitExponent num den)).2 <
        2 ^ 53 ∧
      (2 ^ 52 ≤ (scaleDown num den (unitExponent num den)).1 /
          (scaleDown num den (unitExponent num den)).2 ∨ unitExponent num den = minExponent) := by
  have hratio : (0 : ℚ) < num / den := by positivity
  have hunit := scaleDown_pos hden num (unitExponent num den)
  have hunit' : (0 : ℚ) < (scaleDown num den (unitExponent num den)).2 := by exact_mod_cast hunit
  have hvalue := scaleDown_value num den (unitExponent num den)
  have hlog := floorLog2_eq_log hnum hden
  have hpow : (0 : ℚ) < 2 ^ unitExponent num den := by positivity
  constructor
  · rw [Nat.div_lt_iff_lt_mul hunit]
    have hbelow : (num : ℚ) / den < 2 ^ (53 : Int) * 2 ^ unitExponent num den := by
      rw [← zpow_add₀ two_ne_zero, ← Nat.cast_ofNat (R := ℚ),
        Int.lt_zpow_iff_log_lt one_lt_two hratio, ← hlog, unitExponent]
      omega
    rw [← div_lt_iff₀ hpow, ← hvalue, div_lt_iff₀ hunit'] at hbelow
    exact_mod_cast hbelow
  · by_cases hleast : unitExponent num den = minExponent
    · exact .inr hleast
    · left
      rw [Nat.le_div_iff_mul_le hunit]
      have habove : 2 ^ (52 : Int) * 2 ^ unitExponent num den ≤ (num : ℚ) / den := by
        rw [← zpow_add₀ two_ne_zero, ← Nat.cast_ofNat (R := ℚ),
          Int.zpow_le_iff_le_log one_lt_two hratio, ← hlog]
        unfold unitExponent at hleast ⊢
        omega
      rw [← le_div_iff₀ hpow, ← hvalue, le_div_iff₀ hunit'] at habove
      exact_mod_cast habove

theorem roundedMantissa_le : roundedMantissa num den ≤ 2 ^ 53 :=
  (roundQuotient_le _ _).trans (quotient_bounds hnum hden).1

theorem roundedMantissa_normal :
    2 ^ 52 ≤ roundedMantissa num den ∨ unitExponent num den = minExponent :=
  (quotient_bounds hnum hden).2.imp_left fun h => h.trans (le_roundQuotient _ _)

end

/-- The number with a mantissa that may have been rounded up to the next power of two. -/
def carry (negative : Bool) (mantissa : Nat) (exponent : Int) : Binary64 :=
  let (mantissa, exponent) :=
    if mantissa = Nat.pow 2 53 then (Nat.pow 2 52, exponent + 1) else (mantissa, exponent)
  if maxExponent < exponent then infinite negative else finite negative mantissa exponent

theorem ofRatio_eq (negative : Bool) (hnum : num ≠ 0) : ofRatio negative num den =
    carry negative (roundedMantissa num den) (unitExponent num den) := by
  rw [ofRatio, if_neg hnum]
  rfl

theorem carry_of_fits (negative : Bool) (h : Fits mantissa exponent) :
    carry negative mantissa exponent = finite negative mantissa exponent := by
  have hgreatest := not_lt.mpr h.greatest
  simp only [carry, Nat.pow_eq, if_neg h.below.ne, if_neg hgreatest]

theorem valid_carry (negative : Bool) (hbelow : mantissa ≤ 2 ^ 53)
    (hnormal : 2 ^ 52 ≤ mantissa ∨ exponent = minExponent) (hleast : minExponent ≤ exponent) :
    (carry negative mantissa exponent).IsValid := by
  have hrange : ∀ m e, m < 2 ^ 53 → (2 ^ 52 ≤ m ∨ e = minExponent) → minExponent ≤ e →
      (if maxExponent < e then infinite negative else finite negative m e).IsValid := by
    intro m e hm hnormal he
    split_ifs with hlarge
    · trivial
    · exact ⟨hm, hnormal, he, not_lt.mp hlarge⟩
  by_cases hcarry : mantissa = 2 ^ 53
  · simp only [carry, Nat.pow_eq, if_pos hcarry]
    exact hrange _ _ (by decide) (.inl le_rfl) (by omega)
  · simp only [carry, Nat.pow_eq, if_neg hcarry]
    exact hrange _ _ (by omega) hnormal hleast

theorem ofRatio_valid (negative : Bool) (num : Nat) (hden : 0 < den) :
    (ofRatio negative num den).IsValid := by
  by_cases hnum : num = 0
  · rw [ofRatio, if_pos hnum]
    exact valid_zero negative
  · have hpos := Nat.pos_of_ne_zero hnum
    rw [ofRatio_eq negative hnum]
    exact valid_carry negative (roundedMantissa_le hpos hden) (roundedMantissa_normal hpos hden)
      (le_max_right _ _)

theorem ofRatio_ne_nan (negative : Bool) (num den : Nat) : ofRatio negative num den ≠ nan := by
  unfold ofRatio
  dsimp only
  split_ifs
  all_goals exact nofun

theorem ofRatio_exact (negative : Bool) (h : Fits mantissa exponent) (hmantissa : mantissa ≠ 0)
    (hden : 0 < den) (hvalue : (num : ℚ) / den = mantissa * 2 ^ exponent) :
    ofRatio negative num den = finite negative mantissa exponent := by
  have hden' : (den : ℚ) ≠ 0 := by exact_mod_cast hden.ne'
  have hmantissa' : (mantissa : ℚ) ≠ 0 := by exact_mod_cast hmantissa
  have hpow : (2 : ℚ) ^ exponent ≠ 0 := by positivity
  have hnum : num ≠ 0 := by
    rintro rfl
    rw [Nat.cast_zero, zero_div] at hvalue
    exact mul_ne_zero hmantissa' hpow hvalue.symm
  have hlog : floorLog2 num den = Nat.log 2 mantissa + exponent := by
    rw [floorLog2_eq_log (Nat.pos_of_ne_zero hnum) hden, hvalue]
    exact log_mul_zpow one_lt_two hmantissa exponent
  -- the mantissa has all its bits, unless the exponent is the least one
  have hunit : unitExponent num den = exponent := by
    have hwidth : Nat.log 2 mantissa < 53 := Nat.log_lt_of_lt_pow hmantissa h.below
    rw [unitExponent, hlog]
    rcases h.normal with hnormal | hleast
    · have hfull : 52 ≤ Nat.log 2 mantissa := Nat.le_log_of_pow_le one_lt_two hnormal
      have hexponent := h.least
      omega
    · omega
  have hscaled : (scaleDown num den exponent).1 = mantissa * (scaleDown num den exponent).2 := by
    have hquotient := scaleDown_value num den exponent
    have hpos : ((scaleDown num den exponent).2 : ℚ) ≠ 0 := by
      exact_mod_cast (scaleDown_pos hden num exponent).ne'
    rw [hvalue, mul_div_cancel_right₀ _ hpow, div_eq_iff hpos] at hquotient
    exact_mod_cast hquotient
  rw [ofRatio_eq negative hnum, roundedMantissa, hunit, hscaled, roundQuotient_exact (scaleDown_pos hden num _),
    carry_of_fits negative h]

/-! ## How far rounding goes -/

theorem roundQuotient_near (num : Nat) (hden : 0 < den) :
    |(roundQuotient num den : ℚ) - num / den| ≤ 1 / 2 := by
  have hden' : (0 : ℚ) < den := by exact_mod_cast hden
  have hsplit : (num : ℚ) / den = (num / den : Nat) + (num % den : Nat) / den := by
    rw [div_eq_iff hden'.ne', add_mul, div_mul_cancel₀ _ hden'.ne']
    exact_mod_cast (Nat.div_add_mod' num den).symm
  have hmod : ((num % den : Nat) : ℚ) / den < 1 := by
    rw [div_lt_one hden']
    exact_mod_cast Nat.mod_lt num hden
  have hrest : (0 : ℚ) ≤ (num % den : Nat) / den := by positivity
  rw [hsplit, abs_le]
  unfold roundQuotient
  dsimp only
  split_ifs with hlow
  · have hhalf : ((num % den : Nat) : ℚ) / den ≤ 1 / 2 := by
      rw [div_le_div_iff₀ hden' two_pos]
      exact_mod_cast (by omega : num % den * 2 ≤ 1 * den)
    constructor <;> linarith only [hhalf, hrest]
  · have hhalf : (1 : ℚ) / 2 ≤ (num % den : Nat) / den := by
      rw [div_le_div_iff₀ two_pos hden']
      exact_mod_cast (by omega : 1 * den ≤ num % den * 2)
    push_cast
    constructor <;> linarith only [hhalf, hmod]

theorem roundQuotient_eq (hden : 0 < den) {n : Nat} (h : |(num : ℚ) / den - n| < 1 / 2) :
    roundQuotient num den = n := by
  obtain ⟨hlow, hhigh⟩ := abs_le.mp (roundQuotient_near num hden)
  obtain ⟨hlow', hhigh'⟩ := abs_lt.mp h
  have habove : (roundQuotient num den : ℚ) < n + 1 := by linarith only [hhigh, hhigh']
  have hbelow : (n : ℚ) < roundQuotient num den + 1 := by linarith only [hlow, hlow']
  have habove' : roundQuotient num den < n + 1 := by exact_mod_cast habove
  have hbelow' : n < roundQuotient num den + 1 := by exact_mod_cast hbelow
  omega

theorem roundedMantissa_near (num : Nat) (hden : 0 < den) :
    |(roundedMantissa num den : ℚ) - num / den / 2 ^ unitExponent num den| ≤ 1 / 2 := by
  rw [← scaleDown_value]
  exact roundQuotient_near _ (scaleDown_pos hden num _)

theorem carry_near (negative : Bool) (mantissa : Nat) (h : exponent < maxExponent) :
    ∃ m e, carry negative mantissa exponent = finite negative m e ∧
      (m : ℚ) * 2 ^ e = mantissa * 2 ^ exponent := by
  by_cases hcarry : mantissa = 2 ^ 53
  · refine ⟨2 ^ 52, exponent + 1, ?_, ?_⟩
    · simp only [carry, Nat.pow_eq, if_pos hcarry, if_neg (by omega : ¬maxExponent < exponent + 1)]
    · rw [hcarry, zpow_add₀ two_ne_zero]
      push_cast
      ring
  · refine ⟨mantissa, exponent, ?_, rfl⟩
    simp only [carry, Nat.pow_eq, if_neg hcarry, if_neg (by omega : ¬maxExponent < exponent)]

/-- Up to a power of two that the format holds, rounding goes no further than half a unit of the
last place below it. -/
theorem ofRatio_near (negative : Bool) (hden : 0 < den) {k : Int} (hleast : minExponent ≤ k - 53)
    (hgreatest : k - 53 < maxExponent) (h : (num : ℚ) / den ≤ 2 ^ k) :
    ∃ m e, ofRatio negative num den = finite negative m e ∧
      |(m : ℚ) * 2 ^ e - num / den| ≤ 2 ^ (k - 54) := by
  rcases Nat.eq_zero_or_pos num with rfl | hnum
  · refine ⟨0, minExponent, rfl, ?_⟩
    simp only [Nat.cast_zero, zero_mul, zero_div, sub_zero, abs_zero]
    positivity
  have hhalf : (2 : ℚ) ^ (k - 53) = 2 * 2 ^ (k - 54) := by
    rw [← zpow_one_add₀ two_ne_zero]
    congr 1
    omega
  rcases h.lt_or_eq with hlt | heq
  · have hunit : unitExponent num den ≤ k - 53 := by
      have hlog : floorLog2 num den < k := by
        have hratio : (0 : ℚ) < num / den := by positivity
        rw [floorLog2_eq_log hnum hden]
        exact (Int.lt_zpow_iff_log_lt one_lt_two hratio).mp (by exact_mod_cast hlt)
      rw [unitExponent]
      omega
    have hpow : (0 : ℚ) < 2 ^ unitExponent num den := by positivity
    obtain ⟨m, e, hfinite, hvalue⟩ :=
      carry_near negative (roundedMantissa num den) (hunit.trans_lt hgreatest)
    refine ⟨m, e, (ofRatio_eq negative hnum.ne').trans hfinite, ?_⟩
    have hnear := roundedMantissa_near num hden
    calc |(m : ℚ) * 2 ^ e - num / den|
        = |(roundedMantissa num den : ℚ) - num / den / 2 ^ unitExponent num den| *
            2 ^ unitExponent num den := by
          rw [hvalue, ← abs_of_pos hpow, ← abs_mul, sub_mul, abs_of_pos hpow,
            div_mul_cancel₀ _ hpow.ne']
      _ ≤ 1 / 2 * 2 ^ (k - 53) := by
          gcongr
          exact one_le_two
      _ = 2 ^ (k - 54) := by rw [hhalf]; ring
  · -- the power itself is a number of the format
    have hfits : Fits (2 ^ 52) (k - 52) := ⟨by decide, .inl le_rfl, by omega, by omega⟩
    have hvalue : ((2 ^ 52 : Nat) : ℚ) * 2 ^ (k - 52) = 2 ^ k := by
      rw [Nat.cast_pow, Nat.cast_ofNat, ← zpow_natCast, ← zpow_add₀ two_ne_zero]
      congr 1
      omega
    refine ⟨2 ^ 52, k - 52, ofRatio_exact negative hfits (by decide) hden ?_, ?_⟩
    · rw [heq, hvalue]
    · rw [heq, hvalue, sub_self, abs_zero]
      positivity

/-! ## Exact values -/

theorem ratio_pos (mantissa : Nat) (exponent : Int) : 0 < (ratio mantissa exponent).2 := by
  unfold ratio
  split_ifs
  · exact Nat.one_pos
  · exact Nat.one_pos
  · exact Nat.two_pow_pos _

theorem ratio_value (mantissa : Nat) (exponent : Int) :
    ((ratio mantissa exponent).1 : ℚ) / (ratio mantissa exponent).2 = mantissa * 2 ^ exponent := by
  unfold ratio
  split_ifs with hzero h
  · simp [hzero]
  · obtain ⟨n, rfl⟩ := Int.eq_ofNat_of_zero_le h
    simp
  · obtain ⟨n, hn⟩ := Int.eq_ofNat_of_zero_le (by omega : 0 ≤ -exponent)
    obtain rfl : exponent = -n := by omega
    simp [div_eq_mul_inv]

theorem quotient_pos (x : Binary64) : 0 < x.quotient.2 := by
  cases x with
  | finite negative mantissa exponent => exact ratio_pos mantissa exponent
  | nan | infinite negative => exact Nat.one_pos

end CatalogCache.Binary64
