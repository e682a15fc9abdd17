import CatalogCache.Proofs.Results
import CatalogCache.Text.Utf8

/-!
# Bytes and back

What `Utf8.encode` writes, `Utf8.decode` reads. Exactly the texts without surrogates can be written.
-/

namespace CatalogCache.Utf8

/-! ## One code point -/

theorem toNat_toUInt8 {n : Nat} (h : n < 0x100) : n.toUInt8.toNat = n :=
  UInt8.toNat_ofNat_of_lt' h

theorem ofNat_val (c : CodePoint) : CodePoint.ofNat c.val = c := by
  simp [CodePoint.ofNat, c.isLt]

theorem not_surrogate_iff (c : CodePoint) :
    c.isSurrogate = false ↔ c.val < 0xd800 ∨ 0xdfff < c.val := by
  simp only [CodePoint.isSurrogate, Bool.and_eq_false_iff, decide_eq_false_iff_not]
  omega

theorem ofNat_eq {c : CodePoint} {n : Nat} (h : n = c.val) : CodePoint.ofNat n = c := by
  rw [h, ofNat_val]

theorem decodeFrom_push (p : Pending) (b : UInt8) (position : Nat) (rest : List UInt8)
    (hlow : p.low.toNat ≤ b.toNat) (hhigh : b.toNat ≤ p.high.toNat) (howed : p.owed ≠ 1) :
    decodeFrom position (some p) (b :: rest) =
      decodeFrom (position + 1) (some (p.push b)) rest := by
  rw [decodeFrom, if_pos ⟨UInt8.le_iff_toNat_le.mpr hlow, UInt8.le_iff_toNat_le.mpr hhigh⟩,
    if_neg howed]

theorem decodeFrom_last (p : Pending) (b : UInt8) (position : Nat) (rest : List UInt8)
    (hlow : p.low.toNat ≤ b.toNat) (hhigh : b.toNat ≤ p.high.toNat) (howed : p.owed = 1) :
    decodeFrom position (some p) (b :: rest) =
      (CodePoint.ofNat (p.push b).bits :: ·) <$> decodeFrom (position + 1) none rest := by
  rw [decodeFrom, if_pos ⟨UInt8.le_iff_toNat_le.mpr hlow, UInt8.le_iff_toNat_le.mpr hhigh⟩,
    if_pos howed]

theorem decodeFrom_lead {b : UInt8} {position : Nat} {p : Pending} (rest : List UInt8)
    (hb : 0x80 ≤ b.toNat) (hp : leadByte b position = some p) :
    decodeFrom position none (b :: rest) = decodeFrom (position + 1) (some p) rest := by
  rw [decodeFrom, if_neg (by simp [UInt8.lt_iff_toNat_lt]; omega), hp]

/-! ## Lead bytes -/

theorem leadByte_two {b : UInt8} (position : Nat) (hlow : 0xc2 ≤ b.toNat) (hhigh : b.toNat < 0xe0) :
    leadByte b position = some ⟨b, position, 1, 1, b.toNat - 0xc0, 0x80, 0xbf⟩ := by
  unfold leadByte
  rw [if_neg (by simp [UInt8.lt_iff_toNat_lt]; omega),
    if_pos (by simpa [UInt8.lt_iff_toNat_lt] using hhigh)]

/-- The second byte of three is bounded so that the sequence is neither overlong nor a surrogate. -/
theorem leadByte_three {b : UInt8} (position : Nat) (hlow : 0xe0 ≤ b.toNat)
    (hhigh : b.toNat < 0xf0) :
    leadByte b position = some ⟨b, position, 1, 2, b.toNat - 0xe0,
      if b.toNat = 0xe0 then 0xa0 else 0x80, if b.toNat = 0xed then 0x9f else 0xbf⟩ := by
  unfold leadByte
  simp only [UInt8.lt_iff_toNat_lt, ← UInt8.toNat_inj, UInt8.reduceToNat]
  rw [if_neg (by omega), if_neg (by omega)]
  by_cases h0 : b.toNat = 0xe0
  · simp [h0]
  by_cases hd : b.toNat = 0xed
  · simp [hd]
  rw [if_neg h0, if_neg hd, if_pos hhigh, if_neg h0, if_neg hd]

theorem leadByte_four {b : UInt8} (position : Nat) (hlow : 0xf0 ≤ b.toNat)
    (hhigh : b.toNat < 0xf5) :
    leadByte b position = some ⟨b, position, 1, 3, b.toNat - 0xf0,
      if b.toNat = 0xf0 then 0x90 else 0x80, if b.toNat = 0xf4 then 0x8f else 0xbf⟩ := by
  unfold leadByte
  simp only [UInt8.lt_iff_toNat_lt, ← UInt8.toNat_inj, UInt8.reduceToNat]
  rw [if_neg (by omega), if_neg (by omega), if_neg (by omega), if_neg (by omega),
    if_neg (by omega)]
  by_cases h0 : b.toNat = 0xf0
  · simp [h0]
  by_cases h4 : b.toNat = 0xf4
  · simp [h4]
  rw [if_neg h0, if_pos (by omega), if_neg h0, if_neg h4]

/-! ## One code point, decoded -/

theorem decodeFrom_encodePoint {c : CodePoint} (h : c.isSurrogate = false) (position : Nat)
    (rest : List UInt8) :
    ∃ next, decodeFrom position none (encodePoint c ++ rest) =
      (c :: ·) <$> decodeFrom next none rest := by
  have hc := c.isLt
  rw [not_surrogate_iff] at h
  unfold encodePoint
  dsimp only
  split_ifs with h1 h2 h3
  · have hb := toNat_toUInt8 (n := c.val) (by omega)
    refine ⟨position + 1, ?_⟩
    rw [List.singleton_append, decodeFrom, if_pos (by rw [UInt8.lt_iff_toNat_lt, hb]; exact h1), hb,
      ofNat_val]
  · have hb := toNat_toUInt8 (n := 0xc0 + c.val / 0x40) (by omega)
    have hb₁ := toNat_toUInt8 (n := 0x80 + c.val % 0x40) (by omega)
    refine ⟨position + 1 + 1, ?_⟩
    rw [List.cons_append, List.singleton_append,
      decodeFrom_lead _ (by omega) (leadByte_two position (by omega) (by omega)),
      decodeFrom_last _ _ _ _ (by simp; omega) (by simp; omega) rfl]
    rw [ofNat_eq]
    simp only [Pending.push, hb, hb₁]
    omega
  · have hb := toNat_toUInt8 (n := 0xe0 + c.val / 0x1000) (by omega)
    have hb₁ := toNat_toUInt8 (n := 0x80 + c.val / 0x40 % 0x40) (by omega)
    have hb₂ := toNat_toUInt8 (n := 0x80 + c.val % 0x40) (by omega)
    refine ⟨position + 1 + 1 + 1, ?_⟩
    rw [List.cons_append, List.cons_append, List.singleton_append,
      decodeFrom_lead _ (by omega) (leadByte_three position (by omega) (by omega)),
      decodeFrom_push _ _ _ _ (by simp only [hb, hb₁]; split_ifs <;> simp; omega)
        (by simp only [hb, hb₁]; split_ifs <;> simp <;> omega) (by simp),
      decodeFrom_last _ _ _ _ (by simp [Pending.push]; omega) (by simp [Pending.push]; omega) rfl]
    rw [ofNat_eq]
    simp only [Pending.push, hb, hb₁, hb₂]
    omega
  · have hb := toNat_toUInt8 (n := 0xf0 + c.val / 0x40000) (by omega)
    have hb₁ := toNat_toUInt8 (n := 0x80 + c.val / 0x1000 % 0x40) (by omega)
    have hb₂ := toNat_toUInt8 (n := 0x80 + c.val / 0x40 % 0x40) (by omega)
    have hb₃ := toNat_toUInt8 (n := 0x80 + c.val % 0x40) (by omega)
    refine ⟨position + 1 + 1 + 1 + 1, ?_⟩
    rw [List.cons_append, List.cons_append, List.cons_append, List.singleton_append,
      decodeFrom_lead _ (by omega) (leadByte_four position (by omega) (by omega)),
      decodeFrom_push _ _ _ _ (by simp only [hb, hb₁]; split_ifs <;> simp; omega)
        (by simp only [hb, hb₁]; split_ifs <;> simp <;> omega) (by simp),
      decodeFrom_push _ _ _ _ (by simp [Pending.push]; omega) (by simp [Pending.push]; omega)
        (by simp [Pending.push]),
      decodeFrom_last _ _ _ _ (by simp [Pending.push]; omega) (by simp [Pending.push]; omega) rfl]
    rw [ofNat_eq]
    simp only [Pending.push, hb, hb₁, hb₂, hb₃]
    omega

/-! ## Whole texts -/

theorem decodeFrom_of_encodeFrom {t : Text} {position : Nat} {bytes : List UInt8}
    (h : encodeFrom position t = .ok bytes) (start : Nat) :
    decodeFrom start none bytes = .ok t := by
  induction t generalizing position bytes start with
  | nil =>
    simp only [encodeFrom, Except.ok.injEq] at h
    rw [← h, decodeFrom]
  | cons c t ih =>
    rw [encodeFrom] at h
    split_ifs at h with hc
    obtain ⟨more, hmore, rfl⟩ := Result.map_eq_ok_iff.mp h
    obtain ⟨next, hnext⟩ := decodeFrom_encodePoint (by simpa using hc) start more
    rw [hnext, ih hmore next, Result.map_ok]

/-- **Round trip.** The bytes of a text read back as the text. -/
theorem decode_of_encode {t : Text} {bytes : List UInt8} (h : encode t = .ok bytes) :
    decode bytes = .ok t :=
  decodeFrom_of_encodeFrom h 0

theorem encodeFrom_ok_iff (t : Text) (position : Nat) :
    (∃ bytes, encodeFrom position t = .ok bytes) ↔ ∀ c ∈ t, c.isSurrogate = false := by
  induction t generalizing position with
  | nil => simp [encodeFrom]
  | cons c t ih =>
    rw [encodeFrom, List.forall_mem_cons, ← ih (position + 1)]
    cases hc : c.isSurrogate with
    | true => simp
    | false =>
      cases encodeFrom (position + 1) t <;> simp

theorem encode_ok_iff (t : Text) :
    (∃ bytes, encode t = .ok bytes) ↔ ∀ c ∈ t, c.isSurrogate = false :=
  encodeFrom_ok_iff t 0

end CatalogCache.Utf8
