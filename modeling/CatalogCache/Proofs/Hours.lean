import CatalogCache.Proofs.Units

/-!
# Hours as durations

A number of hours is a duration unless it makes more days than a duration has. What is rounded on
the way is too little to matter there.
-/

namespace CatalogCache

/-! ## Limits -/

namespace Duration

variable {mantissa : Nat} {exponent : Int}

/-- The least number of hours that makes too many days. -/
def hourLimit : Nat := 24 * (maxDays + 1)

theorem ofMicros?_ok_iff (n : Nat) :
    (∃ d, ofMicros? n = .ok d) ↔ n < hourLimit * hour := by
  have hday : microsPerDay = 86400000000 := rfl
  have hmax : maxDays = 999999999 := rfl
  have hlimit : hourLimit * hour = 86400000000000000000 := rfl
  simp only [ofMicros?_eq_ok_iff, exists_eq_left, InRange, hday, hmax, hlimit]
  omega

theorem below_hourLimit (hfits : Binary64.Fits mantissa exponent)
    (h : (mantissa : ℚ) * 2 ^ exponent < hourLimit) :
    (mantissa : ℚ) * 2 ^ exponent ≤ hourLimit - 2 ^ (-18 : Int) := by
  have hlimit : (hourLimit : ℚ) = 24000000000 := by norm_num [hourLimit, maxDays]
  rw [hlimit] at h ⊢
  by_cases hfine : exponent < -18
  · -- the mantissa is too small to come near
    have hmantissa : (mantissa : ℚ) ≤ 2 ^ 53 := by exact_mod_cast hfits.below.le
    have hpow : (2 : ℚ) ^ exponent ≤ 2 ^ (-19 : Int) :=
      zpow_le_zpow_right₀ one_le_two (by omega)
    calc (mantissa : ℚ) * 2 ^ exponent ≤ 2 ^ 53 * 2 ^ (-19 : Int) := by gcongr
      _ ≤ 24000000000 - 2 ^ (-18 : Int) := by norm_num
  · -- the number and the limit are multiples of the distance
    obtain ⟨n, hn⟩ := Int.eq_ofNat_of_zero_le (by omega : 0 ≤ exponent + 18)
    obtain rfl : exponent = -18 + n := by omega
    have hvalue : (mantissa : ℚ) * 2 ^ (-18 + (n : Int)) =
        (mantissa * 2 ^ n : Nat) * 2 ^ (-18 : Int) := by
      rw [zpow_add₀ two_ne_zero, zpow_natCast]
      push_cast
      ring
    have hgrid : (24000000000 : ℚ) = (24000000000 * 2 ^ 18 : Nat) * 2 ^ (-18 : Int) := by norm_num
    have hstep : (0 : ℚ) < 2 ^ (-18 : Int) := by positivity
    rw [hvalue, hgrid] at h ⊢
    have hless : mantissa * 2 ^ n < 24000000000 * 2 ^ 18 := by
      exact_mod_cast lt_of_mul_lt_mul_right h hstep.le
    have hnext : ((mantissa * 2 ^ n : Nat) : ℚ) + 1 ≤ (24000000000 * 2 ^ 18 : Nat) := by
      exact_mod_cast hless
    calc ((mantissa * 2 ^ n : Nat) : ℚ) * 2 ^ (-18 : Int)
        ≤ ((24000000000 * 2 ^ 18 : Nat) - 1) * 2 ^ (-18 : Int) := by
          gcongr
          exact le_sub_iff_add_le.mpr hnext
      _ = (24000000000 * 2 ^ 18 : Nat) * 2 ^ (-18 : Int) - 2 ^ (-18 : Int) := by ring

theorem hourMicros_lt_iff (hfits : Binary64.Fits mantissa exponent) :
    unitMicros hour mantissa exponent < hourLimit * hour ↔
      (mantissa : ℚ) * 2 ^ exponent < hourLimit := by
  constructor
  · intro h
    by_contra hlimit
    exact absurd (le_unitMicros (not_lt.mp hlimit)) (not_le.mpr h)
  · intro h
    have hvalue : (hour : ℚ) = 3600000000 := by norm_num [hour, secondsPerHour, microsPerSecond]
    have hnear := unitMicros_near (k := 32) (by decide) (by decide)
      (by rw [hvalue]; norm_num : (hour : ℚ) ≤ _) mantissa exponent
    have hround := (abs_le.mp hnear).2.trans
      (by norm_num : (1 : ℚ) / 2 + 2 ^ ((32 : Int) - 54) ≤ 1)
    have hscaled := mul_le_mul_of_nonneg_right (below_hourLimit hfits h) (Nat.cast_nonneg hour)
    have hmargin : (1 : ℚ) < 2 ^ (-18 : Int) * hour := by
      rw [hvalue]
      norm_num
    have hcast : (unitMicros hour mantissa exponent : ℚ) < hourLimit * hour := by
      rw [sub_mul] at hscaled
      linarith only [hround, hmargin, hscaled]
    exact_mod_cast hcast

end Duration

/-- No duration has so many hours. The number that is none, which is not below zero either, counts
as one of these. -/
def Binary64.IsOverlong : Binary64 → Prop
  | nan => True
  | infinite negative => negative = false
  | finite negative mantissa exponent =>
    negative = false ∧ (Duration.hourLimit : ℚ) ≤ mantissa * 2 ^ exponent

theorem Binary64.IsOverlong.not_negative {x : Binary64} (h : x.IsOverlong) :
    x.isNegative = false := by
  cases x with
  | nan => rfl
  | infinite negative => exact h
  | finite negative mantissa exponent => rw [isNegative, h.1, Bool.false_and]

namespace Duration

variable {x : Binary64}

theorem unitMicros_signed (unit : Nat) {negative : Bool} {mantissa : Nat} {exponent : Int}
    (h : (Binary64.finite negative mantissa exponent).isNegative = false) :
    Integer.signed negative (unitMicros unit mantissa exponent) =
      unitMicros unit mantissa exponent := by
  cases negative with
  | false => rfl
  | true =>
    obtain rfl : mantissa = 0 := by simpa [Binary64.isNegative] using h
    rw [unitMicros_zero]
    rfl

theorem ofHours_ok_iff (hvalid : x.IsValid) (h : x.isNegative = false) :
    (∃ d, ofHours x = .ok d) ↔ ¬x.IsOverlong := by
  cases x with
  | nan => exact iff_of_false nofun (not_not.mpr trivial)
  | infinite negative => exact iff_of_false nofun (not_not.mpr h)
  | finite negative mantissa exponent =>
    rw [ofHours, ofUnits, unitMicros_signed hour h, ofMicros?_ok_iff, hourMicros_lt_iff hvalid,
      Binary64.IsOverlong, not_and, not_le]
    refine ⟨fun hbelow _ => hbelow, fun hbelow => ?_⟩
    cases negative with
    | false => exact hbelow rfl
    | true =>
      obtain rfl : mantissa = 0 := by simpa [Binary64.isNegative] using h
      norm_num [hourLimit, maxDays]

theorem ofHours_not_negative (h : x.isNegative = false) {d : Duration} (hd : ofHours x = .ok d) :
    d.isNegative = false := by
  cases x with
  | nan | infinite negative => cases hd
  | finite negative mantissa exponent =>
    rw [ofHours, ofUnits, unitMicros_signed hour h, ofMicros?] at hd
    split_ifs at hd
    obtain rfl := Except.ok.inj hd
    rw [isNegative, decide_eq_false_iff_not, not_lt]
    exact Int.natCast_nonneg _

end Duration

end CatalogCache
