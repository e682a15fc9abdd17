import CatalogCache.Proofs.AgeOrder
import CatalogCache.Proofs.Contents

/-!
# When a file is fresh

As long as the age it seems to have is less than its lifetime, and from a little before it was
written. Near the epoch it seems as old as it is. Whether it is fresh can be told unless its path is
of no use, or so much time seems to have passed since it was written that no duration counts it.
-/

namespace CatalogCache

/-- The world at another instant. -/
def World.at (w : World) (t : Instant) : World := { w with now := t }

namespace CacheFile

variable {f : CacheFile} {w : World} {n : Node} {t m : Instant} {lifetime age : Duration}

/-! ## The status of a file -/

/-- The system answers with what stands at the path of the file. -/
structure HasStatus (f : CacheFile) (w : World) (n : Node) : Prop where
  asked : w.faults .status = none
  there : w.disk.status f.path = .ok n

theorem hasStatus_iff :
    f.HasStatus w n ↔ w.faults.guard .status (w.disk.status f.path) = .ok n := by
  constructor
  · intro h
    rw [Faults.guard, h.asked, h.there]
  · intro h
    refine ⟨?_, Disk.guard_ok h⟩
    unfold Faults.guard at h
    split at h
    · cases h
    · next hasked => exact hasked

theorem HasStatus.unique {n' : Node} (h : f.HasStatus w n) (h' : f.HasStatus w n') : n = n' :=
  Except.ok.inj (h.there.symm.trans h'.there)

theorem ageIn_eq_some_iff : f.ageIn (w.at t) = .ok (some age) ↔
    ∃ n, f.HasStatus w n ∧ Duration.since? t n.modified = .ok age := by
  simp only [hasStatus_iff]
  unfold ageIn World.at
  cases w.faults.guard .status (w.disk.status f.path) with
  | ok n => cases hage : Duration.since? t n.modified <;> simp [hage]
  | error e =>
    refine iff_of_false ?_ nofun
    cases e with
    | system e => dsimp only; split_ifs <;> exact nofun
    | nullByte | unencodable => exact nofun

/-! ## One instant -/

theorem timely_at_iff : f.Timely (w.at t) ↔
    ∀ n, f.HasStatus w n → ∃ age, Duration.since? t n.modified = .ok age := by
  simp only [Timely, World.at, ← hasStatus_iff]

theorem told_iff (f : CacheFile) (w : World) (lifetime : Duration) (t : Instant) :
    (∃ young, f.youngIn lifetime (w.at t) = .ok young) ↔
      (w.faults .status = none → f.path.isAddressable = true) ∧
        ∀ n, f.HasStatus w n → ∃ age, Duration.since? t n.modified = .ok age := by
  -- a path of no use does no harm where the call to the system fails before it is looked at
  cases hpath : f.path.isAddressable with
  | true => rw [← timely_iff hpath lifetime, timely_at_iff, and_iff_right fun _ => rfl]
  | false =>
    cases hasked : w.faults .status with
    | some fault =>
      have hyoung : f.youngIn lifetime (w.at t) = .ok false :=
        youngIn_of_system (by rw [World.at, Faults.guard, hasked])
      have hother : some fault ≠ none := Option.some_ne_none fault
      exact iff_of_true ⟨false, hyoung⟩ ⟨fun h => absurd h hother,
        fun n h => absurd (hasked.symm.trans h.asked) hother⟩
    | none =>
      obtain ⟨e, hstatus, hother⟩ := w.disk.status_unaddressable hpath
      refine iff_of_false ?_ fun h => Bool.false_ne_true (h.1 rfl)
      rintro ⟨young, hyoung⟩
      rw [youngIn, ageIn, World.at, Faults.guard, hasked, hstatus] at hyoung
      cases e with
      | system e => exact hother e rfl
      | nullByte | unencodable => cases hyoung

theorem youngIn_eq_true_iff : f.youngIn lifetime (w.at t) = .ok true ↔
    ∃ n age, f.HasStatus w n ∧ Duration.since? t n.modified = .ok age ∧
      isYoung age lifetime = true := by
  constructor
  · intro h
    obtain ⟨age, hage, hyoung⟩ := age_of_youngIn h
    obtain ⟨n, hstatus, hsince⟩ := ageIn_eq_some_iff.mp hage
    exact ⟨n, age, hstatus, hsince, hyoung⟩
  · rintro ⟨n, age, hstatus, hsince, hyoung⟩
    rw [youngIn, ageIn_eq_some_iff.mpr ⟨n, hstatus, hsince⟩]
    exact congrArg _ hyoung

/-! ## All instants -/

theorem result_isFresh (f : CacheFile) (lifetime : Duration) (w : World) :
    ((f.isFresh lifetime).exec w).1 = f.youngIn lifetime w := by
  obtain ⟨lines, hexec⟩ := says_isFresh f lifetime w
  rw [hexec]

theorem youngIn_near (h : f.HasStatus w n) (hnear : n.modified.IsNear) (ht : t.IsNear) :
    f.youngIn lifetime (w.at t) = .ok (isYoung ⟨t - n.modified⟩ lifetime) := by
  have hage := ageIn_eq_some_iff.mpr ⟨n, h, Duration.since?_near ht hnear⟩
  rw [youngIn, hage]

theorem isYoung_since_iff {t m : Int} : isYoung ⟨t - m⟩ lifetime = true ↔
    0 < lifetime.micros ∧ m - 2 * Duration.microsPerSecond ≤ t ∧ t < m + lifetime.micros := by
  rw [isYoung_iff]
  dsimp only
  omega

theorem fresh_instants (h : f.HasStatus w n) (hnear : n.modified.IsNear) :
    {t | Instant.IsNear t ∧ f.youngIn lifetime (w.at t) = .ok true} =
      if 0 < lifetime.micros then {t | Instant.IsNear t} ∩
        Set.Ico (n.modified - 2 * Duration.microsPerSecond) (n.modified + lifetime.micros)
      else ∅ := by
  have hyoung : ∀ t : Int, Instant.IsNear t → (f.youngIn lifetime (w.at t) = .ok true ↔
      0 < lifetime.micros ∧ n.modified - 2 * Duration.microsPerSecond ≤ t ∧
        t < n.modified + lifetime.micros) := by
    intro t ht
    rw [youngIn_near h hnear ht, Except.ok.injEq, isYoung_since_iff]
  ext t
  split_ifs with hpositive
  · exact and_congr_right fun ht => (hyoung t ht).trans (and_iff_right hpositive)
  · exact iff_of_false (fun ht => hpositive ((hyoung t ht.1).mp ht.2).1) (Set.notMem_empty t)

theorem isYoung_between {youngest oldest : Duration} (hyoungest : isYoung youngest lifetime = true)
    (holdest : isYoung oldest lifetime = true) (hlow : youngest.micros ≤ age.micros)
    (hhigh : age.micros ≤ oldest.micros) : isYoung age lifetime = true := by
  rw [isYoung_iff] at hyoungest holdest ⊢
  exact ⟨hyoungest.1.trans hlow, (max_le_max_right 0 hhigh).trans_lt holdest.2⟩

theorem fresh_ordConnected (f : CacheFile) (w : World) (lifetime : Duration) :
    {t | f.youngIn lifetime (w.at t) = .ok true}.OrdConnected := by
  refine ⟨fun first hfirst last hlast t ht => ?_⟩
  obtain ⟨n, youngest, hstatus, hsince, hyoung⟩ := youngIn_eq_true_iff.mp hfirst
  obtain ⟨n', oldest, hstatus', hsince', hyoung'⟩ := youngIn_eq_true_iff.mp hlast
  obtain rfl := hstatus.unique hstatus'
  obtain ⟨age, hage, hlow, hhigh⟩ := Duration.since?_between ht.1 ht.2 hsince hsince'
  exact youngIn_eq_true_iff.mpr ⟨n, age, hstatus, hage, isYoung_between hyoung hyoung' hlow hhigh⟩

theorem youngIn_mono {longer : Duration} (hle : lifetime.micros ≤ longer.micros)
    (h : f.youngIn lifetime (w.at t) = .ok true) : f.youngIn longer (w.at t) = .ok true := by
  rw [youngIn_eq_true_iff] at h ⊢
  obtain ⟨n, age, hstatus, hsince, hyoung⟩ := h
  refine ⟨n, age, hstatus, hsince, ?_⟩
  rw [isYoung_iff] at hyoung ⊢
  exact ⟨hyoung.1, hyoung.2.trans_le hle⟩

/-- **Freshness.** Whether a file is fresh can be told exactly if its path is of use, unless the
call to the system fails anyway, and the age it seems to have is within the bounds of a duration. It
is fresh exactly if it has a status and seems to have been written no more than two seconds ahead of
the clock and less than a lifetime behind it, and the instants at which it is make an interval. Near
the epoch it always can be told, and the file seems as old as it is. A longer lifetime makes no file
stale. -/
theorem freshness_told_iff (f : CacheFile) (w : World) (lifetime : Duration) :
    (∀ t, (∃ young, ((f.isFresh lifetime).exec (w.at t)).1 = .ok young) ↔
      (w.faults .status = none → f.path.isAddressable = true) ∧
        ∀ n, f.HasStatus w n → ∃ age, Duration.since? t n.modified = .ok age) ∧
    (∀ t, ((f.isFresh lifetime).exec (w.at t)).1 = .ok true ↔ ∃ n age, f.HasStatus w n ∧
      Duration.since? t n.modified = .ok age ∧
      -(2 * Duration.microsPerSecond) ≤ age.micros ∧ max age.micros 0 < lifetime.micros) ∧
    {t | ((f.isFresh lifetime).exec (w.at t)).1 = .ok true}.OrdConnected ∧
    (∀ n, f.HasStatus w n → n.modified.IsNear →
      (∀ t, t.IsNear → Duration.since? t n.modified = .ok ⟨t - n.modified⟩) ∧
      {t | Instant.IsNear t ∧ ((f.isFresh lifetime).exec (w.at t)).1 = .ok true} =
        if 0 < lifetime.micros then {t | Instant.IsNear t} ∩
          Set.Ico (n.modified - 2 * Duration.microsPerSecond) (n.modified + lifetime.micros)
        else ∅) ∧
    ∀ longer : Duration, lifetime.micros ≤ longer.micros →
      ∀ t, ((f.isFresh lifetime).exec (w.at t)).1 = .ok true →
        ((f.isFresh longer).exec (w.at t)).1 = .ok true := by
  simp only [result_isFresh]
  refine ⟨told_iff f w lifetime, fun t => ?_, fresh_ordConnected f w lifetime, fun n h hnear => ?_,
    fun longer hle t => youngIn_mono hle⟩
  · simp only [youngIn_eq_true_iff, isYoung_iff]
  · exact ⟨fun t ht => Duration.since?_near ht hnear, fresh_instants h hnear⟩

/-- A file that was fresh a second after it was written breaks the question a thousand million days
after. -/
theorem old_file_untold :
    let f := (Cached.sample .zero).slot "ana" .resolutions
    let w := Cached.sampleHolding []
    (∀ young, ((f.isFresh (.days 1)).exec (w.at (Duration.days 1000000000).micros)).1 ≠
      .ok young) ∧
      ((f.isFresh (.days 1)).exec (w.at Duration.microsPerSecond)).1 = .ok true := by
  intro f w
  have hstatus : f.HasStatus w (.file [] 0) := ⟨rfl, by cbv⟩
  obtain ⟨htold, hfresh, -⟩ := freshness_told_iff f w (.days 1)
  have hlater : Duration.since? Duration.microsPerSecond 0 = .ok ⟨Duration.microsPerSecond⟩ :=
    Duration.since?_near (by decide) (by decide)
  refine ⟨fun young hyoung => ?_, (hfresh _).mpr ⟨_, _, hstatus, hlater, by decide, by decide⟩⟩
  obtain ⟨age, hage⟩ := ((htold _).mp ⟨young, hyoung⟩).2 _ hstatus
  have hrange : Duration.since? (Duration.days 1000000000).micros 0 =
      .error (.range 1000000000) := by
    decide +kernel
  cases hrange.symm.trans hage

end CacheFile

end CatalogCache
