import CatalogCache.Proofs.Units

/-!
# Ages

The age of a file is a difference of binary64 seconds. Each of the two instants is rounded, and so
is what lies between them. Less than `2 ^ 31` seconds from the epoch all of this comes to less than
half a microsecond, so the age is exact there.
-/

namespace CatalogCache

theorem Integer.signed_natAbs {negative : Bool} {d : Int} (hlow : d < 0 → negative = true)
    (hhigh : 0 < d → negative = false) : signed negative d.natAbs = d := by
  cases negative with
  | false =>
    have hd : ¬d < 0 := fun h => Bool.false_ne_true (hlow h)
    simp only [signed, Bool.false_eq_true, if_false]
    omega
  | true =>
    have hd : ¬0 < d := fun h => Bool.false_ne_true (hhigh h).symm
    simp only [signed, if_true]
    omega

/-! ## Differences -/

namespace Binary64

/-- The value of a finite number. All others count as zero. -/
def value : Binary64 → ℚ
  | finite false mantissa exponent => mantissa * 2 ^ exponent
  | finite true mantissa exponent => -(mantissa * 2 ^ exponent)
  | _ => 0

theorem value_finite (negative : Bool) (mantissa : Nat) (exponent : Int) :
    (finite negative mantissa exponent).value =
      Integer.signed negative (ratio mantissa exponent).1 / (ratio mantissa exponent).2 := by
  cases negative <;> simp [value, Integer.signed, ← ratio_value, neg_div]

/-- The number comes out where a rational is rounded. -/
def Rounds (x : Binary64) (v : ℚ) : Prop := ∃ negative d den, 0 < den ∧
  Integer.signed negative d.natAbs = d ∧ x = ofRatio negative d.natAbs den ∧ (d : ℚ) / den = v

theorem rounds_sub (a b : Bool) (m n : Nat) (e f : Int) : ((finite a m e).sub (finite b n f)).Rounds
    ((finite a m e).value - (finite b n f).value) := by
  have hp : ((ratio m e).2 : ℚ) ≠ 0 := by exact_mod_cast (ratio_pos m e).ne'
  have hq : ((ratio n f).2 : ℚ) ≠ 0 := by exact_mod_cast (ratio_pos n f).ne'
  refine ⟨_, _, _, Nat.mul_pos (ratio_pos m e) (ratio_pos n f),
    Integer.signed_natAbs (fun hlow => ?_) (fun hhigh => ?_), rfl, ?_⟩
  · rw [decide_eq_true hlow, Bool.true_or]
  · rw [decide_eq_false hhigh.not_gt, decide_eq_false hhigh.ne', Bool.false_and, Bool.false_and,
      Bool.false_or]
  · rw [value_finite, value_finite, div_sub_div _ _ hp hq, Nat.cast_mul]
    congr 1
    cases a <;> cases b <;> simp [Integer.signed] <;> ring

def IsFinite (x : Binary64) : Prop :=
  ∃ negative mantissa exponent, x = finite negative mantissa exponent

/-- A finite number, no further than a radius from a value. -/
structure Within (x : Binary64) (v radius : ℚ) : Prop where
  finite : x.IsFinite
  close : |x.value - v| ≤ radius

theorem Within.of_close {x : Binary64} {u v r s : ℚ} (h : x.Within u r) (huv : |u - v| ≤ s) :
    x.Within v (s + r) :=
  ⟨h.finite, (abs_sub_le x.value u v).trans (add_comm s r ▸ add_le_add h.close huv)⟩

section

variable {k : Int} (hleast : minExponent ≤ k - 53) (hgreatest : k - 53 < maxExponent)

include hleast hgreatest

theorem Rounds.within {x : Binary64} {v : ℚ} (hx : x.Rounds v) (h : |v| ≤ 2 ^ k) :
    x.Within v (2 ^ (k - 54)) := by
  obtain ⟨negative, d, den, hden, hsign, rfl, rfl⟩ := hx
  have habs : ((d.natAbs : Nat) : ℚ) / den ≤ 2 ^ k := by
    rwa [abs_div, Nat.abs_cast, ← Int.cast_abs, Int.abs_eq_natAbs, Int.cast_natCast] at h
  obtain ⟨m, e, hfinite, hnear⟩ := ofRatio_near negative hden hleast hgreatest habs
  refine ⟨⟨negative, m, e, hfinite⟩, ?_⟩
  rw [hfinite, ← hsign]
  cases negative with
  | false => exact hnear
  | true =>
    rw [abs_sub_comm] at hnear
    convert hnear using 2
    simp [value, Integer.signed, neg_div]
    ring

theorem sub_within {x y : Binary64} {u v r s : ℚ} (hx : x.Within u r) (hy : y.Within v s)
    (h : |u - v| + (r + s) ≤ 2 ^ k) : (x.sub y).Within (u - v) (r + s + 2 ^ (k - 54)) := by
  obtain ⟨⟨a, m, e, rfl⟩, hx⟩ := hx
  obtain ⟨⟨b, n, f, rfl⟩, hy⟩ := hy
  have hclose : |(finite a m e).value - (finite b n f).value - (u - v)| ≤ r + s := by
    rw [sub_sub_sub_comm]
    exact (abs_sub _ _).trans (add_le_add hx hy)
  refine ((rounds_sub a b m n e f).within hleast hgreatest ?_).of_close hclose
  have htriangle := abs_add_le ((finite a m e).value - (finite b n f).value - (u - v)) (u - v)
  rw [sub_add_cancel] at htriangle
  linarith only [htriangle, hclose, h]

end

end Binary64

/-! ## Seconds -/

namespace Duration

theorem ofSeconds_eq {x : Binary64} {v radius : ℚ} {n : Int} (hx : x.Within v radius)
    (h : |v * microsPerSecond - n| + radius * microsPerSecond < 1 / 2 - 2 ^ ((20 : Int) - 54)) :
    ofSeconds x = ofMicros? n := by
  obtain ⟨⟨negative, m, e, rfl⟩, hclose⟩ := hx
  have hunit : (microsPerSecond : ℚ) = 1000000 := by norm_num [microsPerSecond]
  have hnear : |(Binary64.finite negative m e).value * microsPerSecond - n| <
      1 / 2 - 2 ^ ((20 : Int) - 54) := by
    have htriangle := abs_sub_le ((Binary64.finite negative m e).value * microsPerSecond)
      (v * microsPerSecond) n
    rw [← sub_mul, abs_mul, Nat.abs_cast] at htriangle
    have hscaled := mul_le_mul_of_nonneg_right hclose (Nat.cast_nonneg microsPerSecond)
    linarith only [htriangle, hscaled, h]
  have hhalf : (0 : ℚ) < 2 ^ ((20 : Int) - 54) := by positivity
  have hvalue : (0 : ℚ) ≤ m * 2 ^ e * microsPerSecond := by positivity
  -- the sign of the number is that of the microseconds, unless there are none
  obtain ⟨k, rfl, hk⟩ : ∃ k : Nat, n = Integer.signed negative k ∧
      |(m : ℚ) * 2 ^ e * microsPerSecond - k| < 1 / 2 - 2 ^ ((20 : Int) - 54) := by
    cases negative with
    | false =>
      rw [Binary64.value] at hnear
      have hn : (-1 : ℚ) < n := by linarith only [(abs_lt.mp hnear).2, hhalf, hvalue]
      have hn' : -1 < n := by exact_mod_cast hn
      obtain ⟨k, rfl⟩ := Int.eq_ofNat_of_zero_le (by omega : 0 ≤ n)
      exact ⟨k, rfl, hnear⟩
    | true =>
      rw [Binary64.value, neg_mul] at hnear
      have hn : (n : ℚ) < 1 := by linarith only [(abs_lt.mp hnear).1, hhalf, hvalue]
      have hn' : n < 1 := by exact_mod_cast hn
      obtain ⟨k, hk⟩ := Int.eq_ofNat_of_zero_le (by omega : 0 ≤ -n)
      obtain rfl : n = -k := by omega
      refine ⟨k, rfl, ?_⟩
      rw [abs_sub_comm] at hnear
      convert hnear using 2
      push_cast
      ring
  obtain ⟨num, den, hden, hmicros, hlast⟩ := unitMicros_eq (k := 20) (by decide)
    (by decide) (by rw [hunit]; norm_num : (microsPerSecond : ℚ) ≤ _) m e
  have hround : |(num : ℚ) / den - k| < 1 / 2 := by
    linarith only [abs_sub_le ((num : ℚ) / den) (m * 2 ^ e * microsPerSecond) k, hlast, hk]
  rw [ofSeconds, ofUnits, hmicros, Binary64.roundQuotient_eq hden hround]

end Duration

/-- Less than `2 ^ 31` seconds from the epoch. -/
def Instant.IsNear (t : Instant) : Prop := t.natAbs < 2 ^ 31 * Duration.microsPerSecond

instance (t : Instant) : Decidable t.IsNear := inferInstanceAs (Decidable (_ < _))

theorem Instant.seconds_finite (t : Instant) : (Instant.seconds t).IsFinite := by
  unfold Instant.seconds Binary64.nearest
  split
  · exact ⟨_, _, _, rfl⟩
  · next hfinite =>
    cases hround : Binary64.ofRatio (t < 0) t.natAbs Duration.microsPerSecond with
    | finite negative mantissa exponent => exact ⟨_, _, _, rfl⟩
    | infinite negative => exact absurd hround (hfinite _)
    | nan => exact absurd hround (Binary64.ofRatio_ne_nan _ _ _)

theorem Instant.rounds (t : Instant) :
    (Binary64.ofRatio (t < 0) t.natAbs Duration.microsPerSecond).Rounds
      (t / Duration.microsPerSecond) :=
  ⟨_, t, _, by decide, Integer.signed_natAbs decide_eq_true fun hhigh =>
    decide_eq_false hhigh.not_gt, rfl, rfl⟩

theorem Instant.seconds_within {t : Instant} (h : t.IsNear) :
    (Instant.seconds t).Within (t / Duration.microsPerSecond) (2 ^ ((31 : Int) - 54)) := by
  have hunit : (Duration.microsPerSecond : ℚ) = 1000000 := by norm_num [Duration.microsPerSecond]
  have hlimit : |(t : ℚ) / Duration.microsPerSecond| ≤ 2 ^ (31 : Int) := by
    rw [abs_div, Nat.abs_cast, div_le_iff₀ (by rw [hunit]; norm_num), ← Int.cast_abs,
      Int.abs_eq_natAbs, Int.cast_natCast]
    exact_mod_cast h.le
  have hwithin := (Instant.rounds t).within (k := 31) (by decide) (by decide) hlimit
  obtain ⟨negative, m, e, hfinite⟩ := hwithin.finite
  have hseconds : Instant.seconds t = .ofRatio (t < 0) t.natAbs Duration.microsPerSecond := by
    rw [Instant.seconds, Binary64.nearest, hfinite]
  rwa [hseconds]

namespace Duration

theorem since?_self (t : Instant) : since? t t = .ok .zero := by
  obtain ⟨a, m, e, hfinite⟩ := t.seconds_finite
  obtain ⟨negative, d, den, hden, -, hsub, hvalue⟩ := Binary64.rounds_sub a a m m e e
  obtain rfl : d = 0 := by
    rw [sub_self, div_eq_zero_iff] at hvalue
    exact_mod_cast hvalue.resolve_right (by exact_mod_cast hden.ne')
  rw [since?, hfinite, hsub]
  show ofMicros? (Integer.signed negative (unitMicros _ 0 _)) = _
  rw [unitMicros_zero]
  cases negative <;> rfl

/-- Near the epoch nothing gets lost. -/
theorem since?_near {t earlier : Instant} (h : t.IsNear) (hearlier : earlier.IsNear) :
    since? t earlier = .ok ⟨t - earlier⟩ := by
  have hunit : (microsPerSecond : ℚ) = 1000000 := by norm_num [microsPerSecond]
  have hdistance : (t - earlier).natAbs ≤ 2 ^ 32 * microsPerSecond - 2 := by
    have hsum := Int.natAbs_sub_le t earlier
    have hlimit : 2 ^ 31 * microsPerSecond + 2 ^ 31 * microsPerSecond = 2 ^ 32 * microsPerSecond :=
      rfl
    unfold Instant.IsNear at h hearlier
    omega
  have hlimit : |(t : ℚ) / microsPerSecond - earlier / microsPerSecond| +
      (2 ^ ((31 : Int) - 54) + 2 ^ ((31 : Int) - 54)) ≤ 2 ^ (32 : Int) := by
    have hcast : |(t : ℚ) - earlier| ≤ 4294967295999998 := by
      have h' : |t - earlier| ≤ 4294967295999998 := by
        rw [Int.abs_eq_natAbs]
        exact_mod_cast hdistance
      exact_mod_cast h'
    rw [← sub_div, abs_div, Nat.abs_cast, hunit]
    have hscaled : |(t : ℚ) - earlier| / 1000000 ≤ 4294967295999998 / 1000000 := by gcongr
    refine (add_le_add_left hscaled _).trans ?_
    norm_num
  have hwithin := Binary64.sub_within (k := 32) (by decide) (by decide)
    (Instant.seconds_within h) (Instant.seconds_within hearlier) hlimit
  rw [since?, ofSeconds_eq (n := t - earlier) hwithin, ofMicros?_eq_ok_iff]
  · refine ⟨rfl, ?_⟩
    have hday : microsPerDay = 86400000000 := rfl
    have hmax : maxDays = 999999999 := rfl
    have hsecond : microsPerSecond = 1000000 := rfl
    rw [InRange, hday, hmax]
    rw [hsecond] at hdistance
    omega
  · rw [hunit]
    push_cast
    rw [sub_mul, div_mul_cancel₀ _ (by norm_num), div_mul_cancel₀ _ (by norm_num), sub_self,
      abs_zero]
    norm_num

end Duration

end CatalogCache
