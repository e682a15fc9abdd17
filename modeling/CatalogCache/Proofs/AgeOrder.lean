import CatalogCache.Proofs.Ages

/-!
# Ages in order

Rounding keeps the order of what is rounded. So a file never seems younger than it seemed before,
however far from the epoch.
-/

namespace CatalogCache

/-! ## Rounding in order -/

namespace Binary64

section

variable {num den num' den' : Nat}

theorem roundQuotient_congr (hden : 0 < den) (hden' : 0 < den')
    (h : (num : ℚ) / den = num' / den') : roundQuotient num den = roundQuotient num' den' := by
  have hcross : num * den' = num' * den := by
    rw [div_eq_div_iff (by exact_mod_cast hden.ne') (by exact_mod_cast hden'.ne')] at h
    exact_mod_cast h
  rw [← roundQuotient_mul num den hden', hcross, Nat.mul_comm den, roundQuotient_mul _ _ hden]

theorem roundQuotient_mono (hden : 0 < den) (hden' : 0 < den')
    (h : (num : ℚ) / den ≤ num' / den') : roundQuotient num den ≤ roundQuotient num' den' := by
  rcases h.lt_or_eq with hlt | heq
  · have hhigh := (abs_le.mp (roundQuotient_near num hden)).2
    have hlow := (abs_le.mp (roundQuotient_near num' hden')).1
    have hless : (roundQuotient num den : ℚ) < roundQuotient num' den' + 1 := by
      linarith only [hhigh, hlow, hlt]
    exact Nat.lt_succ_iff.mp (by exact_mod_cast hless)
  · exact (roundQuotient_congr hden hden' heq).le

theorem pos_of_le (hnum : 0 < num) (hden : 0 < den) (h : (num : ℚ) / den ≤ num' / den') :
    0 < num' := by
  have hratio : (0 : ℚ) < num / den := by positivity
  rcases Nat.eq_zero_or_pos num' with rfl | hpos
  · rw [Nat.cast_zero, zero_div] at h
    exact absurd h (not_le.mpr hratio)
  · exact hpos

theorem unitExponent_mono (hnum : 0 < num) (hden : 0 < den) (hden' : 0 < den')
    (h : (num : ℚ) / den ≤ num' / den') : unitExponent num den ≤ unitExponent num' den' := by
  have hratio : (0 : ℚ) < num / den := by positivity
  have hnum' := pos_of_le hnum hden h
  have hlog := Int.log_mono_right (b := 2) hratio h
  rw [← floorLog2_eq_log hnum hden, ← floorLog2_eq_log hnum' hden'] at hlog
  unfold unitExponent
  omega

/-- The least value that is too great. -/
def limit : ℚ := 2 ^ 53 * 2 ^ maxExponent

def capped (v : ℚ) : ℚ := min v limit

/-- The value of a quotient once it is rounded. -/
def rounded (num den : Nat) : ℚ :=
  if num = 0 then 0 else capped (roundedMantissa num den * 2 ^ unitExponent num den)

theorem rounded_nonneg (num den : Nat) : 0 ≤ rounded num den := by
  unfold rounded capped limit
  split_ifs <;> positivity

theorem rounded_mono (hden : 0 < den) (hden' : 0 < den') (h : (num : ℚ) / den ≤ num' / den') :
    rounded num den ≤ rounded num' den' := by
  rcases Nat.eq_zero_or_pos num with rfl | hnum
  · exact rounded_nonneg num' den'
  have hnum' := pos_of_le hnum hden h
  rw [rounded, rounded, if_neg hnum.ne', if_neg hnum'.ne', capped, capped]
  refine min_le_min_right _ ?_
  rcases (unitExponent_mono hnum hden hden' h).lt_or_eq with hlt | heq
  · -- the second one has a mantissa of full length, and a greater exponent
    have hfull : 2 ^ 52 ≤ roundedMantissa num' den' := by
      refine (roundedMantissa_normal hnum' hden').resolve_right fun hleast => ?_
      have hleast' : minExponent ≤ unitExponent num den := le_max_right _ _
      omega
    calc (roundedMantissa num den : ℚ) * 2 ^ unitExponent num den
        ≤ 2 ^ 53 * 2 ^ unitExponent num den := by
          gcongr
          exact_mod_cast roundedMantissa_le hnum hden
      _ = 2 ^ 52 * 2 ^ (unitExponent num den + 1) := by
          rw [zpow_add₀ two_ne_zero]
          ring
      _ ≤ roundedMantissa num' den' * 2 ^ unitExponent num' den' := by
          gcongr
          · exact_mod_cast hfull
          · exact one_le_two
          · exact hlt
  · rw [← heq]
    gcongr
    refine roundQuotient_mono (scaleDown_pos hden _ _) (scaleDown_pos hden' _ _) ?_
    rw [scaleDown_value, scaleDown_value, heq]
    gcongr

theorem rounded_nonpos (hden : 0 < den) (h : (num : ℚ) / den ≤ 0) : rounded num den ≤ 0 := by
  have hmono : rounded num den ≤ rounded 0 1 := rounded_mono hden Nat.one_pos (by simpa using h)
  rwa [rounded.eq_def 0, if_pos rfl] at hmono

/-- The value of a number. An infinite one counts as the least value that is too great. -/
def rank : Binary64 → ℚ
  | infinite true => -limit
  | infinite false => limit
  | x => x.value

theorem rank_finite_of_le {m : Nat} {e : Int} (negative : Bool)
    (h : (m : ℚ) * 2 ^ e ≤ limit) :
    (finite negative m e).rank = (if negative then -1 else 1) * capped (m * 2 ^ e) := by
  rw [capped, min_eq_left h]
  cases negative <;> simp [rank, value]

theorem rank_infinite_of_le {v : ℚ} (negative : Bool) (h : limit ≤ v) :
    (infinite negative).rank = (if negative then -1 else 1) * capped v := by
  rw [capped, min_eq_right h]
  cases negative <;> simp [rank]

theorem rank_carry (negative : Bool) {mantissa : Nat} {exponent : Int} (hbelow : mantissa ≤ 2 ^ 53)
    (hnormal : 2 ^ 52 ≤ mantissa ∨ exponent = minExponent) :
    (carry negative mantissa exponent).rank =
      (if negative then -1 else 1) * capped (mantissa * 2 ^ exponent) := by
  have hgreatest : minExponent < maxExponent := by decide
  have hfits : exponent ≤ maxExponent → (mantissa : ℚ) * 2 ^ exponent ≤ limit := by
    intro hle
    rw [limit]
    gcongr
    · exact_mod_cast hbelow
    · exact one_le_two
  by_cases hsmall : exponent < maxExponent
  · obtain ⟨m, e, hfinite, hvalue⟩ := carry_near negative mantissa hsmall
    rw [hfinite, ← hvalue]
    exact rank_finite_of_le negative (hvalue ▸ hfits hsmall.le)
  have hfull := hnormal.resolve_right (by omega)
  by_cases hcarry : mantissa = 2 ^ 53
  · have hlarge : maxExponent < exponent + 1 := by omega
    simp only [carry, Nat.pow_eq, if_pos hcarry, if_pos hlarge]
    apply rank_infinite_of_le
    rw [limit]
    gcongr
    · exact_mod_cast hcarry.ge
    · exact one_le_two
    · exact not_lt.mp hsmall
  · simp only [carry, Nat.pow_eq, if_neg hcarry]
    by_cases hlarge : maxExponent < exponent
    · rw [if_pos hlarge]
      apply rank_infinite_of_le
      calc limit = 2 ^ 52 * 2 ^ (maxExponent + 1) := by
            rw [limit, zpow_add₀ two_ne_zero]
            ring
        _ ≤ mantissa * 2 ^ exponent := by
            gcongr
            · exact_mod_cast hfull
            · exact one_le_two
            · exact hlarge
    · rw [if_neg hlarge]
      exact rank_finite_of_le negative (hfits (not_lt.mp hlarge))

theorem rank_ofRatio (negative : Bool) (num : Nat) (hden : 0 < den) :
    (ofRatio negative num den).rank = (if negative then -1 else 1) * rounded num den := by
  by_cases hnum : num = 0
  · rw [ofRatio, rounded, if_pos hnum, if_pos hnum, mul_zero]
    cases negative <;> simp [zero, rank, value]
  · have hpos := Nat.pos_of_ne_zero hnum
    rw [ofRatio_eq negative hnum, rounded, if_neg hnum]
    exact rank_carry negative (roundedMantissa_le hpos hden) (roundedMantissa_normal hpos hden)

end

/-- The greatest value of a finite number. -/
def greatest : ℚ := (2 ^ 53 - 1 : Nat) * 2 ^ maxExponent

theorem abs_value_le {x : Binary64} (h : x.IsValid) : |x.value| ≤ greatest := by
  have hnonneg : (0 : ℚ) ≤ greatest := by
    unfold greatest
    positivity
  cases x with
  | nan | infinite negative => simpa [value] using hnonneg
  | finite negative m e =>
    have habs : |(finite negative m e).value| = m * 2 ^ e := by
      have hvalue : (0 : ℚ) ≤ m * 2 ^ e := by positivity
      cases negative <;> simp [value, abs_of_nonneg hvalue]
    have hbelow : m ≤ 2 ^ 53 - 1 := Nat.le_pred_of_lt h.below
    rw [habs, greatest]
    gcongr
    · exact one_le_two
    · exact h.greatest

theorem greatest_lt_limit : greatest < limit := by
  have hpow : (0 : ℚ) < 2 ^ maxExponent := by positivity
  rw [greatest, limit]
  gcongr
  norm_num

/-! ## Numbers that come out of rounding -/

namespace Rounds

variable {x y z : Binary64} {u v w : ℚ}

theorem spec (h : x.Rounds v) : ∃ num den : Nat, 0 < den ∧
    (v = (num : ℚ) / den ∧ x.rank = rounded num den ∨
      v = -((num : ℚ) / den) ∧ x.rank = -rounded num den) := by
  obtain ⟨negative, d, den, hden, hsign, rfl, rfl⟩ := h
  refine ⟨d.natAbs, den, hden, ?_⟩
  rw [rank_ofRatio negative d.natAbs hden]
  have hd : (d : ℚ) = Integer.signed negative d.natAbs := by rw [hsign]
  cases negative with
  | false => exact .inl ⟨by rw [hd]; simp [Integer.signed], by simp⟩
  | true => exact .inr ⟨by rw [hd]; simp [Integer.signed, neg_div], by simp⟩

theorem rank_le (hx : x.Rounds u) (hy : y.Rounds v) (h : u ≤ v) : x.rank ≤ y.rank := by
  obtain ⟨num, den, hden, ⟨rfl, hrank⟩ | ⟨rfl, hrank⟩⟩ := hx.spec
  · obtain ⟨num', den', hden', ⟨rfl, hrank'⟩ | ⟨rfl, hrank'⟩⟩ := hy.spec
    · rw [hrank, hrank']
      exact rounded_mono hden hden' h
    · -- only zeros are in this order
      have hratio : (0 : ℚ) ≤ num / den := by positivity
      have hratio' : (0 : ℚ) ≤ num' / den' := by positivity
      have hnone := rounded_nonpos hden (h.trans (neg_nonpos.mpr hratio'))
      have hnone' := rounded_nonpos hden' (neg_nonneg.mp (hratio.trans h))
      rw [hrank, hrank']
      exact hnone.trans (neg_nonneg.mpr hnone')
  · obtain ⟨num', den', hden', ⟨rfl, hrank'⟩ | ⟨rfl, hrank'⟩⟩ := hy.spec
    · rw [hrank, hrank']
      exact (neg_nonpos.mpr (rounded_nonneg num den)).trans (rounded_nonneg num' den')
    · rw [hrank, hrank']
      exact neg_le_neg (rounded_mono hden' hden (neg_le_neg_iff.mp h))

theorem ne_nan (h : x.Rounds v) : x ≠ nan := by
  obtain ⟨negative, d, den, -, -, rfl, -⟩ := h
  exact ofRatio_ne_nan negative d.natAbs den

theorem valid (h : x.Rounds v) : x.IsValid := by
  obtain ⟨negative, d, den, hden, -, rfl, -⟩ := h
  exact ofRatio_valid negative d.natAbs hden

theorem isFinite_iff (h : x.Rounds v) : x.IsFinite ↔ |x.rank| < limit := by
  have hvalid := h.valid
  cases x with
  | nan => exact absurd rfl h.ne_nan
  | infinite negative =>
    refine iff_of_false nofun (not_lt.mpr ?_)
    cases negative with
    | false => exact le_abs_self limit
    | true => exact (le_abs_self limit).trans (abs_neg limit).ge
  | finite negative m e =>
    refine iff_of_true ⟨negative, m, e, rfl⟩ ?_
    exact (abs_value_le hvalid).trans_lt greatest_lt_limit

/-- What lies between finite numbers is finite. -/
theorem finite_between (hx : x.Rounds u) (hy : y.Rounds v) (hz : z.Rounds w) (huv : u ≤ v)
    (hvw : v ≤ w) (hfirst : x.IsFinite) (hlast : z.IsFinite) : y.IsFinite := by
  rw [hx.isFinite_iff, abs_lt] at hfirst
  rw [hz.isFinite_iff, abs_lt] at hlast
  rw [hy.isFinite_iff, abs_lt]
  exact ⟨hfirst.1.trans_le (hx.rank_le hy huv), (hy.rank_le hz hvw).trans_lt hlast.2⟩

end Rounds

theorem value_nearest {negative : Bool} {num den : Nat} {v : ℚ}
    (h : (ofRatio negative num den).Rounds v) : (nearest negative num den).value =
      max (-greatest) (min (ofRatio negative num den).rank greatest) := by
  have hbound := abs_le.mp (abs_value_le h.valid)
  have hnonneg := (abs_nonneg _).trans (abs_value_le h.valid)
  have hlimit := greatest_lt_limit.le
  unfold nearest
  cases hround : ofRatio negative num den with
  | nan => exact absurd hround h.ne_nan
  | infinite sign =>
    cases sign with
    | false =>
      rw [rank, min_eq_right hlimit, max_eq_right (neg_le_self hnonneg)]
      rfl
    | true =>
      rw [rank, min_eq_left (by linarith only [hlimit, hnonneg]),
        max_eq_left (neg_le_neg hlimit)]
      rfl
  | finite sign m e =>
    rw [hround] at hbound
    exact ((max_eq_right (le_min hbound.1 (neg_le_self hnonneg))).trans
      (min_eq_left hbound.2)).symm

end Binary64

theorem Instant.seconds_mono {t t' : Instant} (h : t ≤ t') :
    (Instant.seconds t).value ≤ (Instant.seconds t').value := by
  have hratio : (t : ℚ) / Duration.microsPerSecond ≤ t' / Duration.microsPerSecond := by
    gcongr
  rw [Instant.seconds, Instant.seconds, Binary64.value_nearest t.rounds,
    Binary64.value_nearest t'.rounds]
  exact max_le_max_left _ (min_le_min_right _ (t.rounds.rank_le t'.rounds hratio))

theorem Instant.rounds_sub (t earlier : Instant) :
    ((Instant.seconds t).sub (Instant.seconds earlier)).Rounds
      ((Instant.seconds t).value - (Instant.seconds earlier).value) := by
  obtain ⟨a, m, e, hlater⟩ := t.seconds_finite
  obtain ⟨b, n, f, hearlier⟩ := earlier.seconds_finite
  rw [hlater, hearlier]
  exact Binary64.rounds_sub a b m n e f

/-! ## Durations in order -/

namespace Duration

open Binary64 (finite ratio ratio_pos ratio_value rounded)

section

variable {unit : Nat} {k : Int} (hleast : Binary64.minExponent ≤ k - 53)
  (hgreatest : k - 53 < Binary64.maxExponent) (hunit : (unit : ℚ) ≤ 2 ^ k)

include hleast hgreatest hunit

theorem unitMicros_rounded {mantissa num den : Nat} {exponent : Int}
    (hratio : ratio mantissa exponent = (num, den)) : ∃ a b, 0 < b ∧
      unitMicros unit mantissa exponent = Binary64.roundQuotient a b ∧
      (a : ℚ) / b = (num / den : Nat) * unit + rounded (num % den * unit) den := by
  obtain ⟨m, e, a, b, hpart, -, hb, hmicros, hvalue⟩ :=
    unitMicros_parts hleast hgreatest hunit hratio
  have hden : 0 < den := by simpa [hratio] using ratio_pos mantissa exponent
  have hrank := Binary64.rank_ofRatio false (num % den * unit) hden
  rw [hpart, if_neg Bool.false_ne_true, one_mul] at hrank
  exact ⟨a, b, hb, hmicros, by rw [hvalue, ← hrank]; rfl⟩

theorem unitMicros_le (hk : k < 53) {mantissa units : Nat} {exponent : Int}
    (h : (mantissa : ℚ) * 2 ^ exponent ≤ units) :
    unitMicros unit mantissa exponent ≤ units * unit := by
  have hnear := (abs_le.mp (unitMicros_near hleast hgreatest hunit mantissa exponent)).2
  have hpart : (2 : ℚ) ^ (k - 54) ≤ 1 / 4 :=
    (zpow_le_zpow_right₀ one_le_two (by omega : k - 54 ≤ -2)).trans_eq (by norm_num)
  have hscaled := mul_le_mul_of_nonneg_right h (Nat.cast_nonneg unit)
  have hless : (unitMicros unit mantissa exponent : ℚ) < units * unit + 1 := by
    linarith only [hnear, hpart, hscaled]
  exact Nat.lt_succ_iff.mp (by exact_mod_cast hless)

theorem unitMicros_mono (hk : k < 53) {m n : Nat} {e f : Int} (h : (m : ℚ) * 2 ^ e ≤ n * 2 ^ f) :
    unitMicros unit m e ≤ unitMicros unit n f := by
  have hfloor := Nat.floor_mono h
  cases hratio : ratio m e with
  | mk num den =>
    cases hratio' : ratio n f with
    | mk num' den' =>
      have hvalue : (m : ℚ) * 2 ^ e = num / den := by rw [← ratio_value, hratio]
      have hvalue' : (n : ℚ) * 2 ^ f = num' / den' := by rw [← ratio_value, hratio']
      rw [hvalue, hvalue', Nat.floor_div_eq_div, Nat.floor_div_eq_div] at hfloor
      rcases hfloor.lt_or_eq with hlt | heq
      · -- there are more whole units, whatever the fractions are rounded to
        have habove : (m : ℚ) * 2 ^ e ≤ (num / den + 1 : Nat) := by
          have hnext := (Nat.lt_floor_add_one ((num : ℚ) / den)).le
          rwa [Nat.floor_div_eq_div, ← Nat.cast_add_one, ← hvalue] at hnext
        have hbelow : ((num' / den' : Nat) : ℚ) ≤ n * 2 ^ f := by
          rw [hvalue']
          exact Nat.cast_div_le
        calc unitMicros unit m e ≤ (num / den + 1) * unit :=
              unitMicros_le hleast hgreatest hunit hk habove
          _ ≤ num' / den' * unit := Nat.mul_le_mul_right unit hlt
          _ ≤ unitMicros unit n f := le_unitMicros hbelow
      · have hden : 0 < den := by simpa [hratio] using ratio_pos m e
        have hden' : 0 < den' := by simpa [hratio'] using ratio_pos n f
        obtain ⟨a, b, hb, hmicros, hparts⟩ :=
          unitMicros_rounded hleast hgreatest hunit hratio
        obtain ⟨a', b', hb', hmicros', hparts'⟩ :=
          unitMicros_rounded hleast hgreatest hunit hratio'
        rw [hmicros, hmicros']
        apply Binary64.roundQuotient_mono hb hb'
        rw [hparts, hparts', heq]
        gcongr
        apply Binary64.rounded_mono hden hden'
        rw [hvalue, hvalue'] at h
        rw [fraction_value num unit hden, fraction_value num' unit hden', heq]
        gcongr

theorem signedMicros_mono (hk : k < 53) {a b : Bool} {m n : Nat} {e f : Int}
    (h : (finite a m e).value ≤ (finite b n f).value) :
    Integer.signed a (unitMicros unit m e) ≤ Integer.signed b (unitMicros unit n f) := by
  have hm : (0 : ℚ) ≤ m * 2 ^ e := by positivity
  have hn : (0 : ℚ) ≤ n * 2 ^ f := by positivity
  cases a with
  | false =>
    cases b with
    | false => exact Int.ofNat_le.mpr (unitMicros_mono hleast hgreatest hunit hk h)
    | true =>
      -- only zeros are in this order
      have hsum : (m : ℚ) * 2 ^ e ≤ -(n * 2 ^ f) := h
      have hnone : unitMicros unit m e ≤ 0 * unit := by
        apply unitMicros_le hleast hgreatest hunit hk
        rw [Nat.cast_zero]
        linarith only [hsum, hn]
      have hnone' : unitMicros unit n f ≤ 0 * unit := by
        apply unitMicros_le hleast hgreatest hunit hk
        rw [Nat.cast_zero]
        linarith only [hsum, hm]
      rw [Nat.zero_mul, Nat.le_zero] at hnone hnone'
      rw [hnone, hnone']
      exact le_rfl
  | true =>
    cases b with
    | false => exact (neg_nonpos.mpr (Int.natCast_nonneg _)).trans (Int.natCast_nonneg _)
    | true =>
      have hmono := unitMicros_mono hleast hgreatest hunit hk (neg_le_neg_iff.mp h)
      exact neg_le_neg (Int.ofNat_le.mpr hmono)

end

theorem ofSeconds_eq_ok_iff {x : Binary64} {d : Duration} : ofSeconds x = .ok d ↔
    ∃ negative m e, x = finite negative m e ∧
      d = ⟨Integer.signed negative (unitMicros microsPerSecond m e)⟩ ∧ InRange d.micros := by
  cases x with
  | nan | infinite negative => exact iff_of_false nofun (by simp)
  | finite negative m e =>
    rw [ofSeconds, ofUnits, ofMicros?_eq_ok_iff]
    constructor
    · rintro ⟨rfl, hrange⟩
      exact ⟨_, _, _, rfl, rfl, hrange⟩
    · rintro ⟨_, _, _, hsame, rfl, hrange⟩
      obtain ⟨rfl, rfl, rfl⟩ := Binary64.finite.inj hsame
      exact ⟨rfl, hrange⟩

theorem since?_between {first t last earlier : Instant} {youngest oldest : Duration}
    (hfirst : first ≤ t) (hlast : t ≤ last) (hyoungest : since? first earlier = .ok youngest)
    (holdest : since? last earlier = .ok oldest) : ∃ age, since? t earlier = .ok age ∧
      youngest.micros ≤ age.micros ∧ age.micros ≤ oldest.micros := by
  obtain ⟨_, _, _, hx, rfl, hlow⟩ := ofSeconds_eq_ok_iff.mp hyoungest
  obtain ⟨_, _, _, hz, rfl, hhigh⟩ := ofSeconds_eq_ok_iff.mp holdest
  have hbelow := sub_le_sub_right (Instant.seconds_mono hfirst) (Instant.seconds earlier).value
  have habove := sub_le_sub_right (Instant.seconds_mono hlast) (Instant.seconds earlier).value
  have hrounds := Instant.rounds_sub t earlier
  obtain ⟨_, _, _, hy⟩ := (Instant.rounds_sub first earlier).finite_between hrounds
    (Instant.rounds_sub last earlier) hbelow habove ⟨_, _, _, hx⟩ ⟨_, _, _, hz⟩
  have hrank := (Instant.rounds_sub first earlier).rank_le hrounds hbelow
  have hrank' := hrounds.rank_le (Instant.rounds_sub last earlier) habove
  rw [hx, hy] at hrank
  rw [hy, hz] at hrank'
  have hunit : (microsPerSecond : ℚ) ≤ 2 ^ (20 : Int) := by norm_num [microsPerSecond]
  have hmicros := signedMicros_mono (by decide) (by decide) hunit (by decide) hrank
  have hmicros' := signedMicros_mono (by decide) (by decide) hunit (by decide) hrank'
  exact ⟨_, ofSeconds_eq_ok_iff.mpr ⟨_, _, _, hy, rfl, hlow.1.trans hmicros,
    hmicros'.trans_lt hhigh.2⟩, hmicros, hmicros'⟩

end Duration

end CatalogCache
