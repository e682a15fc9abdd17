import CatalogCache.Text.Lines
import Mathlib

/-! # Joined texts and line ends -/

namespace CatalogCache.Text

theorem join_cons (separator t : Text) (rest : List Text) :
    join separator (t :: rest) = t ++ rest.flatMap (separator ++ ·) := by
  induction rest generalizing t with
  | nil => simp [join]
  | cons u rest ih => rw [join.eq_3 _ _ _ (by simp), ih u]; simp

theorem mem_join {separator : Text} {pieces : List Text} {c : CodePoint}
    (h : c ∈ join separator pieces) : c ∈ separator ∨ ∃ piece ∈ pieces, c ∈ piece := by
  cases pieces with
  | nil => simp [join] at h
  | cons first rest =>
    rw [join_cons, List.mem_append, List.mem_flatMap] at h
    rcases h with h | ⟨piece, hpiece, h⟩
    · exact .inr ⟨first, List.mem_cons_self, h⟩
    · rcases List.mem_append.mp h with h | h
      · exact .inl h
      · exact .inr ⟨piece, List.mem_cons_of_mem _ hpiece, h⟩

theorem subset_join {separator : Text} {pieces : List Text} {piece : Text}
    (h : piece ∈ pieces) : piece ⊆ join separator pieces := by
  intro c hc
  cases pieces with
  | nil => simp at h
  | cons first rest =>
    rw [join_cons, List.mem_append, List.mem_flatMap]
    rcases List.mem_cons.mp h with rfl | h
    · exact .inl hc
    · exact .inr ⟨piece, h, List.mem_append_right _ hc⟩

theorem unifyLines_of_not_mem {t : Text} (h : carriageReturn ∉ t) : t.unifyLines = t := by
  rw [unifyLines]
  induction t with
  | nil => rfl
  | cons c t ih =>
    rw [List.mem_cons, not_or] at h
    rw [unifyLinesFrom, if_neg (fun e => h.1 e.symm), if_neg (by simp), ih h.2]

end CatalogCache.Text
