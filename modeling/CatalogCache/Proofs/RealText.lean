import CatalogCache.Proofs.Decimals
import CatalogCache.Proofs.JsonRoundTrip

/-!
# The text of a real

What is written for a number of the format is one token of a document, and the token is the number.
Of finite numbers the digits before and after the point and the exponent are found in the text, and
they make up the value of the shortest digits.
-/

namespace CatalogCache

namespace Text

structure IsDigits (t : Text) : Prop where
  nonempty : t ≠ []
  digits : ∀ c ∈ t, c.isAsciiDigit = true

theorem IsNumeral.isDigits {t : Text} (h : t.IsNumeral) : t.IsDigits := ⟨h.nonempty, h.digits⟩

/-- Digits without a zero in front. -/
structure IsLeading (t : Text) : Prop extends t.IsDigits where
  head : t.head? ≠ some 0x30

theorem IsLeading.isNumeral {t : Text} (h : t.IsLeading) : t.IsNumeral :=
  ⟨h.nonempty, h.digits, fun hzero => absurd hzero h.head⟩

theorem IsLeading.append {t u : Text} (h : t.IsLeading) (hu : ∀ c ∈ u, c.isAsciiDigit = true) :
    (t ++ u).IsLeading where
  nonempty := List.append_ne_nil_of_left_ne_nil h.nonempty u
  digits := List.forall_mem_append.mpr ⟨h.digits, hu⟩
  head := by rw [List.head?_append_of_ne_nil _ h.nonempty]; exact h.head

theorem IsLeading.take {t : Text} (h : t.IsLeading) (n : Nat) :
    IsLeading (List.take (n + 1) t) where
  nonempty := by simp [h.nonempty]
  digits := fun c hc => h.digits c (List.mem_of_mem_take hc)
  head := by simpa [List.head?_take] using h.head

theorem zeros_digits (k : Nat) :
    ∀ c ∈ List.replicate k (0x30 : CodePoint), c.isAsciiDigit = true := by
  intro c hc
  rw [List.eq_of_mem_replicate hc]
  rfl

theorem isDigits_padZeros (width n : Nat) : (padZeros width (ofNat n)).IsDigits :=
  ⟨List.append_ne_nil_of_right_ne_nil _ (ofNat_ne_nil n),
    List.forall_mem_append.mpr ⟨zeros_digits _, isAsciiDigit_ofNat n⟩⟩

theorem ofNat_trimmed {n : Nat} (h : n ≠ 0) : ∃ k,
    ofNat n = dropEndWhile (· = 0x30) (ofNat n) ++ List.replicate k 0x30 ∧
      (dropEndWhile (· = 0x30) (ofNat n)).IsLeading := by
  obtain ⟨k, hk⟩ : ∃ k, ((ofNat n).reverse.takeWhile (· = 0x30)).reverse =
      List.replicate k (0x30 : CodePoint) := by
    refine ⟨_, List.eq_replicate_of_mem fun c hc => ?_⟩
    simpa using List.mem_takeWhile_imp (List.mem_reverse.mp hc)
  have hsplit : ofNat n = dropEndWhile (· = 0x30) (ofNat n) ++ List.replicate k 0x30 := by
    rw [dropEndWhile, ← hk, ← List.reverse_append, List.takeWhile_append_dropWhile,
      List.reverse_reverse]
  have hhead := head?_ofNat h
  refine ⟨k, hsplit, ?_⟩
  generalize dropEndWhile _ _ = digits at hsplit ⊢
  have hne : digits ≠ [] := by
    rintro rfl
    rw [hsplit] at hhead
    cases k with
    | zero => exact ofNat_ne_nil n hsplit
    | succ k => exact hhead rfl
  rw [hsplit, List.head?_append_of_ne_nil _ hne] at hhead
  refine ⟨⟨hne, fun c hc => ?_⟩, hhead⟩
  exact isAsciiDigit_ofNat n c (hsplit ▸ List.mem_append_left _ hc)

end Text

namespace Json

open Binary64 (Numeral)

/-! ## Numerals with a point or an exponent -/

theorem scanFraction_digits {t rest : Text} (ht : t.IsDigits) (h : EndsDigits rest) :
    scanFraction (0x2e :: (t ++ rest)) = some (t.digitValues, rest) := by
  have hne := Text.digitValues_ne_nil ht.nonempty ht.digits
  unfold scanFraction
  simp only [takeDigits_append ht.digits h]
  split
  next heq => exact absurd (Prod.mk.inj heq).1 hne
  next => rfl

def signPoint (negative : Bool) : CodePoint := if negative then 0x2d else 0x2b

theorem scanExponent_digits (negative : Bool) {t rest : Text} (ht : t.IsDigits)
    (h : EndsDigits rest) : scanExponent (0x65 :: signPoint negative :: (t ++ rest)) =
      some (Integer.signed negative (Integer.ofDigits t.digitValues), rest) := by
  have hne := Text.digitValues_ne_nil ht.nonempty ht.digits
  have hsign : Binary64.takeSign (signPoint negative :: (t ++ rest)) = (negative, t ++ rest) := by
    cases negative <;> rfl
  unfold scanExponent
  simp only [true_or, if_true, hsign, takeDigits_append ht.digits h]

/-- The texts of a numeral that is not an integer. -/
inductive Spells : Text → Numeral → Prop
  | point {whole fraction : Text} (hwhole : whole.IsNumeral) (hfraction : fraction.IsDigits) :
    Spells (whole ++ 0x2e :: fraction) ⟨whole.digitValues, fraction.digitValues, 0⟩
  | exponent {whole exponent : Text} (hwhole : whole.IsNumeral) (negative : Bool)
    (hexponent : exponent.IsDigits) :
    Spells (whole ++ 0x65 :: signPoint negative :: exponent)
      ⟨whole.digitValues, [], Integer.signed negative (Integer.ofDigits exponent.digitValues)⟩
  | both {whole fraction exponent : Text} (hwhole : whole.IsNumeral)
    (hfraction : fraction.IsDigits) (negative : Bool) (hexponent : exponent.IsDigits) :
    Spells (whole ++ 0x2e :: (fraction ++ 0x65 :: signPoint negative :: exponent))
      ⟨whole.digitValues, fraction.digitValues,
        Integer.signed negative (Integer.ofDigits exponent.digitValues)⟩

variable {t rest : Text} {n : Numeral}

theorem endsDigits_cons {c : CodePoint} (hc : c.isAsciiDigit = false) (t : Text) :
    EndsDigits (c :: t) := by
  intro d hd
  cases hd
  exact hc

theorem Spells.scan (h : Spells t n) (negative : Bool) (hrest : EndsNumeral rest) :
    scanUnsigned negative (t ++ rest) = some (.scalar (.real (n.value negative)), rest) := by
  have hvalues : ∀ {whole : Text}, whole.IsNumeral → ∃ d ds, whole.digitValues = d :: ds :=
    fun hwhole => List.exists_cons_of_ne_nil
      (Text.digitValues_ne_nil hwhole.nonempty hwhole.digits)
  have hends := hrest.endsDigits
  cases h with
  | @point whole fraction hwhole hfraction =>
    obtain ⟨d, ds, hds⟩ := hvalues hwhole
    have hpoint := endsDigits_cons (c := 0x2e) rfl (fraction ++ rest)
    rw [List.append_assoc, List.cons_append, scanUnsigned, scanWhole_numeral hwhole hpoint, hds]
    simp only [scanFraction_digits hfraction hends, scanExponent_of_ends hrest, Option.getD_none]
  | @exponent whole exponent hwhole sign hexponent =>
    obtain ⟨d, ds, hds⟩ := hvalues hwhole
    have hmark := endsDigits_cons (c := 0x65) rfl (signPoint sign :: (exponent ++ rest))
    have hnone : scanFraction (0x65 :: signPoint sign :: (exponent ++ rest)) = none := rfl
    rw [List.append_assoc, List.cons_append, List.cons_append, scanUnsigned,
      scanWhole_numeral hwhole hmark, hds]
    simp only [hnone, scanExponent_digits sign hexponent hends]
  | @both whole fraction exponent hwhole hfraction sign hexponent =>
    obtain ⟨d, ds, hds⟩ := hvalues hwhole
    have hmark := endsDigits_cons (c := 0x65) rfl (signPoint sign :: (exponent ++ rest))
    have hpoint := endsDigits_cons (c := 0x2e) rfl
      (fraction ++ 0x65 :: signPoint sign :: (exponent ++ rest))
    rw [List.append_assoc, List.cons_append, List.append_assoc, List.cons_append, List.cons_append,
      scanUnsigned, scanWhole_numeral hwhole hpoint, hds]
    simp only [scanFraction_digits hfraction hmark, scanExponent_digits sign hexponent hends,
      Option.getD_some]

theorem digit_visible {c : CodePoint} (h : c.isAsciiDigit = true) :
    0x20 ≤ c.val ∧ c.val < 0x7f := by
  simp only [CodePoint.isAsciiDigit, Bool.and_eq_true, decide_eq_true_eq] at h
  omega

theorem Spells.visible (h : Spells t n) : ∀ c ∈ t, 0x20 ≤ c.val ∧ c.val < 0x7f := by
  have hdigits : ∀ {u : Text}, (∀ c ∈ u, c.isAsciiDigit = true) →
      ∀ c ∈ u, 0x20 ≤ c.val ∧ c.val < 0x7f := fun hu c hc => digit_visible (hu c hc)
  have hsign : ∀ negative, 0x20 ≤ (signPoint negative).val ∧ (signPoint negative).val < 0x7f := by
    decide
  cases h with
  | point hwhole hfraction =>
    refine List.forall_mem_append.mpr ⟨hdigits hwhole.digits, ?_⟩
    exact List.forall_mem_cons.mpr ⟨by decide, hdigits hfraction.digits⟩
  | exponent hwhole sign hexponent =>
    refine List.forall_mem_append.mpr ⟨hdigits hwhole.digits, ?_⟩
    refine List.forall_mem_cons.mpr ⟨by decide, List.forall_mem_cons.mpr ⟨hsign sign, ?_⟩⟩
    exact hdigits hexponent.digits
  | both hwhole hfraction sign hexponent =>
    refine List.forall_mem_append.mpr ⟨hdigits hwhole.digits, ?_⟩
    refine List.forall_mem_cons.mpr ⟨by decide, List.forall_mem_append.mpr ⟨?_, ?_⟩⟩
    · exact hdigits hfraction.digits
    · refine List.forall_mem_cons.mpr ⟨by decide, List.forall_mem_cons.mpr ⟨hsign sign, ?_⟩⟩
      exact hdigits hexponent.digits

theorem Spells.head (h : Spells t n) : ∃ c s, t = c :: s ∧ c.isAsciiDigit = true := by
  have hwhole : ∀ {whole : Text} (tail : Text), whole.IsNumeral →
      ∃ c s, whole ++ tail = c :: s ∧ c.isAsciiDigit = true := by
    intro whole tail hwhole
    obtain ⟨c, s, rfl⟩ := List.exists_cons_of_ne_nil hwhole.nonempty
    exact ⟨c, s ++ tail, rfl, hwhole.digits c List.mem_cons_self⟩
  cases h with
  | point hw _ => exact hwhole _ hw
  | exponent hw _ _ => exact hwhole _ hw
  | both hw _ _ _ => exact hwhole _ hw

end Json

namespace Binary64

open Json (Spells signPoint)

/-! ## The text of digits -/

variable {digits : Text} {t : Int}

theorem Numeral.value_eq (whole : Text) {fraction : Text}
    (hfraction : ∀ c ∈ fraction, c.isAsciiDigit = true) (t : Int) (negative : Bool) :
    Numeral.value ⟨whole.digitValues, fraction.digitValues, t⟩ negative =
      ofDecimal negative (Integer.ofDigits (whole ++ fraction).digitValues)
        (t - fraction.length) := by
  rw [Numeral.value, Text.digitValues_append, Text.length_digitValues hfraction]

/-- The text spells the number that has these digits, the first one at `10 ^ t`. -/
def SpellsAt (u digits : Text) (t : Int) : Prop :=
  ∃ n : Numeral, Spells u n ∧ ∀ negative,
    n.value negative =
      ofDecimal negative (Integer.ofDigits digits.digitValues) (t + 1 - digits.length)

theorem isNumeral_zero : Text.IsNumeral (List.replicate 1 0x30) := Text.isNumeral_ofNat 0

theorem spells_below_one (hdigits : digits.IsLeading) (ht : t < 0) :
    SpellsAt (positional digits t) digits t := by
  have hfraction : Text.IsDigits (List.replicate (-t - 1).toNat 0x30 ++ digits) :=
    ⟨List.append_ne_nil_of_right_ne_nil _ hdigits.nonempty,
      List.forall_mem_append.mpr ⟨Text.zeros_digits _, hdigits.digits⟩⟩
  have htext : positional digits t =
      List.replicate 1 0x30 ++ 0x2e :: (List.replicate (-t - 1).toNat 0x30 ++ digits) := by
    rw [positional, if_pos ht, List.flatten_cons, List.flatten_cons, List.flatten_singleton]
    rfl
  rw [htext]
  refine ⟨_, .point isNumeral_zero hfraction, fun negative => ?_⟩
  rw [Numeral.value_eq _ hfraction.digits, ← List.append_assoc, Text.digitValues_append,
    List.replicate_append_replicate, Text.digitValues_zeros, Integer.ofDigits_zeros]
  congr 1
  rw [List.length_append, List.length_replicate]
  omega

theorem spells_above_one (hdigits : digits.IsLeading) (ht : 0 ≤ t) :
    SpellsAt (positional digits t) digits t := by
  have hpoint : Text.ofString "." = [0x2e] := rfl
  have hzero : Text.ofString "0" = List.replicate 1 0x30 := rfl
  by_cases hlong : t.toNat + 1 < digits.length
  · -- the point falls among the digits
    have hfraction : Text.IsDigits (digits.drop (t.toNat + 1)) :=
      ⟨by simp [hlong], fun c hc => hdigits.digits c (List.mem_of_mem_drop hc)⟩
    have htext : positional digits t =
        digits.take (t.toNat + 1) ++ 0x2e :: digits.drop (t.toNat + 1) := by
      obtain ⟨c, s, hs⟩ := List.exists_cons_of_ne_nil hfraction.nonempty
      simp [positional, not_lt.mpr ht, hs, Nat.sub_eq_zero_of_le hlong.le, hpoint]
    rw [htext]
    refine ⟨_, .point (hdigits.take _).isNumeral hfraction, fun negative => ?_⟩
    rw [Numeral.value_eq _ hfraction.digits, List.take_append_drop, List.length_drop]
    congr 1
    omega
  · -- zeros lead up to the point
    rw [not_lt] at hlong
    have htext : positional digits t =
        (digits ++ List.replicate (t.toNat + 1 - digits.length) 0x30) ++
          0x2e :: List.replicate 1 0x30 := by
      simp [positional, not_lt.mpr ht, List.drop_eq_nil_of_le hlong, List.take_of_length_le hlong,
        hpoint, hzero]
    rw [htext]
    refine ⟨_, .point (hdigits.append (Text.zeros_digits _)).isNumeral isNumeral_zero.isDigits,
      fun negative => ?_⟩
    rw [Numeral.value_eq _ (Text.zeros_digits 1), List.append_assoc,
      List.replicate_append_replicate, Text.digitValues_append, Text.digitValues_zeros,
      Integer.ofDigits_append_zeros, ofDecimal_mul_pow]
    congr 1
    rw [List.length_replicate]
    omega

theorem spells_scientific (hdigits : digits.IsLeading) (t : Int) :
    SpellsAt (scientific digits t) digits t := by
  have hexponent := Text.isDigits_padZeros 2 t.natAbs
  have hpoint : Text.ofString "." = [0x2e] := rfl
  have hmark : Text.ofString "e" = [0x65] := rfl
  have hsign : (if t < 0 then Text.ofString "-" else Text.ofString "+") =
      [signPoint (decide (t < 0))] := by
    by_cases ht : t < 0
    · simp only [ht, if_true, decide_true]
      rfl
    · simp only [ht, if_false, decide_false]
      rfl
  have hsigned : Integer.signed (decide (t < 0)) (Integer.ofDigits
      (Text.digitValues (Text.padZeros 2 (Text.ofNat t.natAbs)))) = t := by
    rw [Text.number_padZeros, Integer.signed]
    split_ifs with ht <;> simp only [decide_eq_true_eq] at ht <;> omega
  by_cases hone : digits.length = 1
  · have htext : scientific digits t = digits ++ 0x65 :: signPoint (decide (t < 0)) ::
        Text.padZeros 2 (Text.ofNat t.natAbs) := by
      simp [scientific, List.drop_eq_nil_of_le hone.le, List.take_of_length_le hone.le, hmark,
        hsign]
    rw [htext]
    refine ⟨_, .exponent hdigits.isNumeral _ hexponent, fun negative => ?_⟩
    rw [hsigned, Numeral.value, List.append_nil, hone]
    congr 1
    simp
  · have hpos := List.length_pos_iff.mpr hdigits.nonempty
    have hfraction : Text.IsDigits (digits.drop 1) := by
      refine ⟨fun hnil => ?_, fun c hc => hdigits.digits c (List.mem_of_mem_drop hc)⟩
      have hle := List.drop_eq_nil_iff.mp hnil
      omega
    have htext : scientific digits t = digits.take 1 ++ 0x2e :: (digits.drop 1 ++
        0x65 :: signPoint (decide (t < 0)) :: Text.padZeros 2 (Text.ofNat t.natAbs)) := by
      obtain ⟨c, s, hs⟩ := List.exists_cons_of_ne_nil hfraction.nonempty
      simp only [scientific, hs, hpoint, hmark, hsign]
      simp
    rw [htext]
    refine ⟨_, .both (hdigits.take 0).isNumeral hfraction _ hexponent, fun negative => ?_⟩
    rw [hsigned, Numeral.value_eq _ hfraction.digits, List.take_append_drop, List.length_drop]
    congr 1
    omega

theorem spells_digitsText {d : Decimal} (hd : d.digits ≠ 0) : ∃ n : Numeral,
    Spells (digitsText d) n ∧ ∀ negative, n.value negative =
      ofDecimal negative d.digits d.exponent := by
  obtain ⟨k, hsplit, hdigits⟩ := Text.ofNat_trimmed hd
  have hnumber := Text.ofDigits_digitValues_ofNat d.digits
  unfold digitsText
  dsimp only
  generalize Text.dropEndWhile (· = 0x30) (Text.ofNat d.digits) = digits at hsplit hdigits ⊢
  rw [hsplit, Text.digitValues_append, Text.digitValues_zeros,
    Integer.ofDigits_append_zeros] at hnumber
  rw [hsplit, List.length_append, List.length_replicate]
  generalize ht : d.exponent + (digits.length + k : Nat) - 1 = t
  have hspells : SpellsAt (if -4 ≤ t ∧ t < 16 then positional digits t else scientific digits t)
      digits t := by
    split_ifs
    · rcases lt_or_ge t 0 with hneg | hpos
      · exact spells_below_one hdigits hneg
      · exact spells_above_one hdigits hpos
    · exact spells_scientific hdigits t
  obtain ⟨n, hn, hvalue⟩ := hspells
  refine ⟨n, hn, fun negative => ?_⟩
  rw [hvalue, ← hnumber, ofDecimal_mul_pow]
  congr 1
  omega

end Binary64

/-! ## Reals of a document -/

theorem Json.realReads_of_spells {x : Binary64} {negative : Bool} {t : Text}
    {n : Binary64.Numeral} (ht : Spells t n) (hx : n.value negative = x)
    (htext : x.textWith Binary64.jsonNames = Binary64.signText negative ++ t) : RealReads x := by
  obtain ⟨c, s, rfl, hdigit⟩ := ht.head
  have hscan : ∀ {rest}, EndsNumeral rest → scanUnsigned negative (c :: (s ++ rest)) =
      some (.scalar (.real x), rest) := fun hrest => hx ▸ ht.scan negative hrest
  unfold RealReads
  rw [htext]
  cases negative with
  | false =>
    refine ⟨ht.visible, c, s, rfl, (digit_facts hdigit).1, (digit_facts hdigit).2.2.1, ?_⟩
    intro rest hrest
    rw [scan_of_plain _ (digit_facts hdigit).2,
      (scanName_of_digit (t := c :: (s ++ rest)) rfl hdigit).1, scanNumber_of_digit hdigit,
      hscan hrest]
    rfl
  | true =>
    refine ⟨List.forall_mem_cons.mpr ⟨by decide, ht.visible⟩, 0x2d, c :: s, rfl, rfl, by decide, ?_⟩
    intro rest hrest
    rw [scan_of_plain _ (by decide),
      (scanName_of_digit (t := c :: s ++ rest) rfl hdigit).2]
    exact congrArg (fun o => (Option.or none o).getD (.junk, [])) (hscan hrest)

theorem Json.visible_of_all {t : Text} (h : (t.all fun c => 0x20 ≤ c.val && c.val < 0x7f) = true) :
    ∀ c ∈ t, 0x20 ≤ c.val ∧ c.val < 0x7f := by
  simpa using h

/-- **Reals.** Every number of the format reads back from its text. -/
theorem Json.realReads_of_valid {x : Binary64} (hx : x.IsValid) : RealReads x := by
  cases x with
  | nan => exact ⟨visible_of_all rfl, 0x4e, _, rfl, rfl, by decide, fun _ _ => rfl⟩
  | infinite negative =>
    cases negative with
    | false => exact ⟨visible_of_all rfl, 0x49, _, rfl, rfl, by decide, fun _ _ => rfl⟩
    | true => exact ⟨visible_of_all rfl, 0x2d, _, rfl, rfl, by decide, fun _ _ => rfl⟩
  | finite negative mantissa exponent =>
    by_cases hmantissa : mantissa = 0
    · subst hmantissa
      obtain rfl : exponent = Binary64.minExponent := by simpa using hx.normal
      have hspells : Spells "0.0" ⟨[0], [0], 0⟩ :=
        .point Binary64.isNumeral_zero Binary64.isNumeral_zero.isDigits
      exact realReads_of_spells hspells rfl rfl
    · have hshortest := fun negative => Binary64.ofDecimal_shortest negative hx hmantissa
      have hdigits : (Binary64.shortest mantissa exponent).digits ≠ 0 := by
        intro hzero
        have hback := hshortest false
        rw [hzero] at hback
        cases hback
        exact hmantissa rfl
      obtain ⟨n, hspells, hvalue⟩ := Binary64.spells_digitsText hdigits
      refine realReads_of_spells hspells ((hvalue negative).trans (hshortest negative)) ?_
      rw [Binary64.textWith, if_neg hmantissa]

end CatalogCache
