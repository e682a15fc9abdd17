import CatalogCache.Duration
import CatalogCache.Proofs.Rounding

/-!
# Numbers of a unit

What is rounded on the way from a number of units to microseconds: a half of one in the end, and
next to nothing before that.
-/

namespace CatalogCache.Duration

open Binary64 (ratio ofRatio roundQuotient ratio_pos ratio_value)

variable {unit mantissa : Nat} {exponent : Int}

theorem fraction_value (num unit : Nat) {den : Nat} (hden : 0 < den) :
    ((num % den * unit : Nat) : ℚ) / den = (num / den - (num / den : Nat)) * unit := by
  have hden' : (den : ℚ) ≠ 0 := by exact_mod_cast hden.ne'
  have hwhole : (num : ℚ) = (num / den : Nat) * den + (num % den : Nat) := by
    exact_mod_cast (Nat.div_add_mod' num den).symm
  rw [eq_comm, div_sub' hden', div_mul_eq_mul_div, div_left_inj' hden']
  conv_lhs => rw [hwhole]
  push_cast
  ring

section

variable {k : Int} (hleast : Binary64.minExponent ≤ k - 53)
  (hgreatest : k - 53 < Binary64.maxExponent) (hunit : (unit : ℚ) ≤ 2 ^ k)

include hleast hgreatest hunit

/-- Whole units are taken as they are. The fraction of one that is left is rounded on its own. -/
theorem unitMicros_parts {num den : Nat} (hratio : ratio mantissa exponent = (num, den)) :
    ∃ m e a b, ofRatio false (num % den * unit) den = .finite false m e ∧
      |(m : ℚ) * 2 ^ e - (num % den * unit : Nat) / den| ≤ 2 ^ (k - 54) ∧ 0 < b ∧
      unitMicros unit mantissa exponent = roundQuotient a b ∧
      (a : ℚ) / b = (num / den : Nat) * unit + m * 2 ^ e := by
  have hden : 0 < den := by simpa [hratio] using ratio_pos mantissa exponent
  have hden' : (0 : ℚ) < den := by exact_mod_cast hden
  have hbelow : ((num % den * unit : Nat) : ℚ) / den ≤ 2 ^ k := by
    rw [div_le_iff₀ hden', mul_comm ((2 : ℚ) ^ k), Nat.cast_mul]
    have hmod : ((num % den : Nat) : ℚ) ≤ den := by exact_mod_cast (Nat.mod_lt num hden).le
    gcongr
  obtain ⟨m, e, hpart, hnear⟩ := Binary64.ofRatio_near false hden hleast hgreatest hbelow
  have hone := ratio_pos m e
  have hone' : ((ratio m e).2 : ℚ) ≠ 0 := by exact_mod_cast hone.ne'
  refine ⟨m, e, num / den * unit * (ratio m e).2 + (ratio m e).1, (ratio m e).2, hpart, hnear, hone,
    ?_, ?_⟩
  · simp only [unitMicros, hratio, hpart, Binary64.quotient]
  · rw [← ratio_value, Nat.cast_add, Nat.cast_mul, Nat.cast_mul, add_div,
      mul_div_cancel_right₀ _ hone']

theorem unitMicros_eq (mantissa : Nat) (exponent : Int) :
    ∃ num den, 0 < den ∧ unitMicros unit mantissa exponent = roundQuotient num den ∧
      |(num : ℚ) / den - mantissa * 2 ^ exponent * unit| ≤ 2 ^ (k - 54) := by
  cases hratio : ratio mantissa exponent with
  | mk num den =>
    obtain ⟨m, e, a, b, -, hnear, hb, hmicros, hvalue⟩ :=
      unitMicros_parts hleast hgreatest hunit hratio
    refine ⟨a, b, hb, hmicros, ?_⟩
    have hden : 0 < den := by simpa [hratio] using ratio_pos mantissa exponent
    rw [fraction_value num unit hden] at hnear
    rw [hvalue, ← ratio_value mantissa, hratio]
    convert hnear using 2
    ring

theorem unitMicros_near (mantissa : Nat) (exponent : Int) :
    |(unitMicros unit mantissa exponent : ℚ) - mantissa * 2 ^ exponent * unit| ≤
      1 / 2 + 2 ^ (k - 54) := by
  obtain ⟨num, den, hden, hmicros, hnear⟩ :=
    unitMicros_eq hleast hgreatest hunit mantissa exponent
  rw [hmicros]
  exact (abs_sub_le _ _ _).trans (add_le_add (Binary64.roundQuotient_near num hden) hnear)

end

theorem le_unitMicros {units : Nat} (h : (units : ℚ) ≤ mantissa * 2 ^ exponent) :
    units * unit ≤ unitMicros unit mantissa exponent := by
  rw [← ratio_value] at h
  unfold unitMicros
  have hden := ratio_pos mantissa exponent
  generalize ratio mantissa exponent = given at hden h ⊢
  obtain ⟨num, den⟩ := given
  dsimp only at hden h ⊢
  generalize ofRatio false (num % den * unit) den = part
  have hwhole : units ≤ num / den := by
    rw [le_div_iff₀ (by exact_mod_cast hden)] at h
    exact (Nat.le_div_iff_mul_le hden).mpr (by exact_mod_cast h)
  calc units * unit ≤ num / den * unit := Nat.mul_le_mul_right unit hwhole
    _ ≤ (num / den * unit * part.quotient.2 + part.quotient.1) / part.quotient.2 := by
      rw [Nat.le_div_iff_mul_le (Binary64.quotient_pos part)]
      exact Nat.le_add_right _ _
    _ ≤ _ := Binary64.le_roundQuotient _ _

theorem unitMicros_zero (unit : Nat) (exponent : Int) : unitMicros unit 0 exponent = 0 := by
  have hratio : ∀ exponent, (ratio 0 exponent).1 = 0 := fun _ => rfl
  have hnone : ∀ den, (ofRatio false 0 den).quotient.1 = 0 := fun _ => hratio _
  have hround : ∀ den, 0 < den → roundQuotient (0 * den) den = 0 := fun _ hden =>
    Binary64.roundQuotient_exact hden
  simp only [unitMicros, hratio, hnone, Nat.zero_div, Nat.zero_mod, Nat.zero_mul, Nat.add_zero]
  simpa only [Nat.zero_mul] using hround _ (Binary64.quotient_pos _)

end CatalogCache.Duration
