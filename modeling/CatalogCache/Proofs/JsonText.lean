import CatalogCache.Json.Printer
import CatalogCache.Json.Token
import Mathlib

/-!
# Quoted text

What `quote` writes is one token, and the token is the text. Lone surrogates stand for themselves,
so two of them side by side are not joined.
-/

namespace CatalogCache.Json

/-! ## One code point -/

theorem exists_hex_four : ∀ n < 0x20, ∃ a b c d, Text.hex 4 n = [a, b, c, d] ∧
    hexQuad? a b c d = some n := by
  intro n hn
  have hlength : ∀ n < 0x20, (Text.hex 4 n).length = 4 := by decide
  have hquad : ∀ n < 0x20, hexQuad? ((Text.hex 4 n).getD 0 0) ((Text.hex 4 n).getD 1 0)
      ((Text.hex 4 n).getD 2 0) ((Text.hex 4 n).getD 3 0) = some n := by decide
  obtain ⟨a, b, c, d, hhex⟩ := List.length_eq_four.mp (hlength n hn)
  have hread := hquad n hn
  rw [hhex] at hread
  exact ⟨a, b, c, d, hhex, hread⟩

theorem scanText_short (start : Text) {e d : CodePoint} (h : shortEscape? e = some d)
    (he : e ≠ 0x75) (after : Text) :
    scanText start none (0x5c :: e :: after) = prepend d (scanText start none after) := by
  rw [scanText.eq_def]
  simp [he, h, flush]

theorem scanText_plain (start : Text) {c : CodePoint} (hquote : c ≠ 0x22) (hback : c ≠ 0x5c)
    (hcontrol : 0x20 ≤ c.val) (after : Text) :
    scanText start none (c :: after) = prepend c (scanText start none after) := by
  rw [scanText.eq_def]
  simp only [if_neg hquote, if_neg hback, if_neg (by omega : ¬c.val < 0x20), flush]

theorem scanText_control (start : Text) {c : CodePoint} (hc : c.val < 0x20) {after : Text}
    (hafter : after ≠ []) :
    scanText start none (0x5c :: 0x75 :: (Text.hex 4 c.val ++ after)) =
      prepend c (scanText start none after) := by
  obtain ⟨a, b, d, e, hhex, hquad⟩ := exists_hex_four c.val hc
  have hhigh : isHighSurrogate c.val = false := by
    simp only [isHighSurrogate, Bool.and_eq_false_iff, decide_eq_false_iff_not]
    omega
  have hself : CodePoint.ofNat c.val = c := by simp [CodePoint.ofNat, c.isLt]
  have hempty : List.isEmpty after = false := by simpa using hafter
  rw [hhex, scanText.eq_def]
  simp [hquad, hempty, hhigh, hself, flush]

theorem scanText_escapePoint (start : Text) (c : CodePoint) {after : Text} (hafter : after ≠ []) :
    scanText start none (escapePoint c ++ after) = prepend c (scanText start none after) := by
  unfold escapePoint
  split
  · next h => rw [h]; exact scanText_short start rfl (by decide) after
  split
  · next h => rw [h]; exact scanText_short start rfl (by decide) after
  split
  · next h => rw [h]; exact scanText_short start rfl (by decide) after
  split
  · next h => rw [h]; exact scanText_short start rfl (by decide) after
  split
  · next h => rw [h]; exact scanText_short start rfl (by decide) after
  split
  · next h => rw [h]; exact scanText_short start rfl (by decide) after
  split
  · next h => rw [h]; exact scanText_short start rfl (by decide) after
  split
  · next h =>
    rw [List.flatten_cons, List.flatten_singleton, List.append_assoc]
    exact scanText_control start h hafter
  · next hquote hback _ _ _ _ _ hcontrol =>
    exact scanText_plain start hquote hback (by omega) after

/-! ## Whole texts -/

theorem scanText_flatMap (start t rest : Text) :
    scanText start none (t.flatMap escapePoint ++ 0x22 :: rest) = .ok (t, rest) := by
  induction t with
  | nil => rw [List.flatMap_nil, List.nil_append, scanText.eq_def]; rfl
  | cons c t ih =>
    rw [List.flatMap_cons, List.append_assoc, scanText_escapePoint start c (by simp), ih]
    rfl

/-- **Round trip.** A quoted text is one token. -/
theorem scan_quote (t rest : Text) :
    Token.scan 0x22 (t.flatMap escapePoint ++ 0x22 :: rest) = (.text t, rest) := by
  simp [Token.scan, scanText_flatMap]

theorem quote_append (t rest : Text) :
    quote t ++ rest = 0x22 :: (t.flatMap escapePoint ++ 0x22 :: rest) := by
  simp [quote]

end CatalogCache.Json
