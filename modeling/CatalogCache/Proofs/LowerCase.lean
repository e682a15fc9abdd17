import CatalogCache.Proofs.ServerNumbers
import CatalogCache.Text.Lower

/-!
# Lower case and blanks

Lower-casing turns no blank into anything else, and nothing else into a blank. So a text has blanks
around it exactly if its lower case has.
-/

namespace CatalogCache

/-! ## Single code points -/

namespace CodePoint

theorem isBlank_iff {c : CodePoint} :
    c.isBlank = true ↔ ∃ run ∈ blankRuns, run.1 ≤ c.val ∧ c.val ≤ run.2 := by
  simp [isBlank]

theorem lowerRuns_visible : ∀ run ∈ lowerRuns, ∀ blank ∈ blankRuns,
    (run.last < blank.1 ∨ blank.2 < run.first) ∧
      ((run.last : Int) + run.shift < blank.1 ∨ (blank.2 : Int) < run.first + run.shift) := by
  decide +kernel

theorem LowerRun.covers_iff {run : LowerRun} {n : Nat} (h : run.covers n = true) :
    run.first ≤ n ∧ n ≤ run.last := by
  simp only [LowerRun.covers, Bool.and_eq_true, decide_eq_true_eq] at h
  exact h.1

theorem not_blank_of_covers {run : LowerRun} (hrun : run ∈ lowerRuns) {c : CodePoint}
    (h : run.covers c.val = true) : c.isBlank = false := by
  obtain ⟨hfirst, hlast⟩ := LowerRun.covers_iff h
  by_contra hblank
  rw [Bool.not_eq_false, isBlank_iff] at hblank
  obtain ⟨blank, hmem, hlow, hhigh⟩ := hblank
  have := (lowerRuns_visible run hrun blank hmem).1
  omega

theorem not_blank_of_shift {run : LowerRun} (hrun : run ∈ lowerRuns) {c : CodePoint}
    (h : run.covers c.val = true) : (ofNat (c.val + run.shift).toNat).isBlank = false := by
  obtain ⟨hfirst, hlast⟩ := LowerRun.covers_iff h
  have hstart : ∀ blank ∈ blankRuns, 0 < blank.1 := by decide
  unfold ofNat
  split
  · by_contra hblank
    rw [Bool.not_eq_false, isBlank_iff] at hblank
    obtain ⟨blank, hmem, hlow, hhigh⟩ := hblank
    have hvisible := (lowerRuns_visible run hrun blank hmem).2
    have hpositive := hstart blank hmem
    dsimp only at hlow hhigh
    omega
  · rfl

/-- A text that takes the place of a code point: it is not empty, and blank exactly if that is. -/
structure Replaces (t : Text) (c : CodePoint) : Prop where
  nonempty : t ≠ []
  blank : ∀ d ∈ t, d.isBlank = c.isBlank

theorem replaces_self (c : CodePoint) : Replaces [c] c :=
  ⟨List.cons_ne_nil _ _, fun _ hd => by rw [List.mem_singleton.mp hd]⟩

theorem replaces_of_visible {t : Text} {c : CodePoint} (hc : c.isBlank = false) (hne : t ≠ [])
    (ht : ∀ d ∈ t, d.isBlank = false) : Replaces t c :=
  ⟨hne, fun d hd => (ht d hd).trans hc.symm⟩

theorem replaces_lower (c : CodePoint) : Replaces c.lower c := by
  unfold lower
  split_ifs with hdotted
  · have hc : c = 0x130 := Fin.ext hdotted
    subst hc
    exact replaces_of_visible rfl (List.cons_ne_nil _ _)
      (List.forall_mem_cons.mpr ⟨rfl, List.forall_mem_singleton.mpr rfl⟩)
  · cases hfind : lowerRuns.find? (·.covers c.val) with
    | none => exact replaces_self c
    | some run =>
      have hrun := List.mem_of_find?_eq_some hfind
      have hcovers := List.find?_some hfind
      exact replaces_of_visible (not_blank_of_covers hrun hcovers) (List.cons_ne_nil _ _)
        (List.forall_mem_singleton.mpr (not_blank_of_shift hrun hcovers))

end CodePoint

/-! ## Texts -/

namespace Text

variable {t : Text} {pieces : List Text}

theorem exists_pieces (before t : Text) : ∃ pieces : List Text,
    lowerAfter before t = pieces.flatten ∧ List.Forall₂ CodePoint.Replaces pieces t := by
  induction t generalizing before with
  | nil => exact ⟨[], rfl, .nil⟩
  | cons c rest ih =>
    obtain ⟨pieces, hpieces, hall⟩ := ih (c :: before)
    rw [lowerAfter, hpieces]
    refine ⟨_ :: pieces, rfl, .cons ?_ hall⟩
    split_ifs with hsigma
    · exact hsigma ▸ CodePoint.replaces_of_visible rfl (List.cons_ne_nil _ _)
        (List.forall_mem_singleton.mpr rfl)
    · exact hsigma ▸ CodePoint.replaces_of_visible rfl (List.cons_ne_nil _ _)
        (List.forall_mem_singleton.mpr rfl)
    · exact c.replaces_lower

theorem head?_flatten (h : List.Forall₂ CodePoint.Replaces pieces t) :
    pieces.flatten.head?.map CodePoint.isBlank = t.head?.map CodePoint.isBlank := by
  cases h with
  | nil => rfl
  | @cons piece c pieces t hpiece =>
    obtain ⟨d, rest, rfl⟩ := List.exists_cons_of_ne_nil hpiece.nonempty
    simp [hpiece.blank d List.mem_cons_self]

theorem getLast?_flatten (h : List.Forall₂ CodePoint.Replaces pieces t) :
    pieces.flatten.getLast?.map CodePoint.isBlank = t.getLast?.map CodePoint.isBlank := by
  induction h with
  | nil => rfl
  | @cons piece c pieces t hpiece _ ih =>
    rw [List.flatten_cons, List.getLast?_append, List.getLast?_cons]
    cases hlast : t.getLast? with
    | some d =>
      rw [hlast] at ih
      obtain ⟨e, he, hblank⟩ := Option.map_eq_some_iff.mp ih
      simp [he, hblank]
    | none =>
      rw [hlast, Option.map_none, Option.map_eq_none_iff] at ih
      have hpieceLast := List.getLast?_eq_some_getLast hpiece.nonempty
      simp [ih, hpieceLast, hpiece.blank _ (List.getLast_mem hpiece.nonempty)]

theorem lower_eq_nil : t.lower = [] ↔ t = [] := by
  obtain ⟨pieces, hpieces, hall⟩ := exists_pieces [] t
  rw [lower, hpieces]
  cases hall with
  | nil => simp
  | cons hpiece _ => simp [hpiece.nonempty]

/-- No blanks stand around the text. -/
def IsTidy (t : Text) : Prop := t.strip = t

instance (t : Text) : Decidable t.IsTidy := inferInstanceAs (Decidable (t.strip = t))

theorem isTidy_iff_dropWhile : t.IsTidy ↔
    t.dropWhile CodePoint.isBlank = t ∧ t.rdropWhile CodePoint.isBlank = t := by
  have hstrip : t.strip = (t.dropWhile CodePoint.isBlank).rdropWhile CodePoint.isBlank := rfl
  rw [IsTidy, hstrip]
  constructor
  · intro h
    have hprefix := List.rdropWhile_prefix CodePoint.isBlank (t.dropWhile CodePoint.isBlank)
    rw [h] at hprefix
    have hsuffix := List.dropWhile_suffix (l := t) CodePoint.isBlank
    have hfront : t.dropWhile CodePoint.isBlank = t := hsuffix.eq_of_length_le hprefix.length_le
    rw [hfront] at h
    exact ⟨hfront, h⟩
  · rintro ⟨hfront, hend⟩
    rw [hfront, hend]

theorem isTidy_iff : t.IsTidy ↔ t.head?.map CodePoint.isBlank ≠ some true ∧
    t.getLast?.map CodePoint.isBlank ≠ some true := by
  rw [isTidy_iff_dropWhile, List.dropWhile_eq_self_iff, List.rdropWhile_eq_self_iff]
  cases t with
  | nil => simp
  | cons c rest => simp [List.getLast?_eq_some_getLast]

theorem isTidy_strip (t : Text) : t.strip.IsTidy := by
  have hprefix := List.rdropWhile_prefix CodePoint.isBlank (t.dropWhile CodePoint.isBlank)
  refine isTidy_iff_dropWhile.mpr ⟨?_, List.rdropWhile_idempotent _ _⟩
  rw [List.dropWhile_eq_self_iff]
  intro hne
  have hlong : 0 < (t.dropWhile CodePoint.isBlank).length := hne.trans_le hprefix.length_le
  have hfirst : t.strip[0] = (t.dropWhile CodePoint.isBlank)[0] := hprefix.getElem hne
  rw [hfirst]
  exact List.dropWhile_get_zero_not _ _ hlong

theorem isTidy_lower : t.lower.IsTidy ↔ t.IsTidy := by
  obtain ⟨pieces, hpieces, hall⟩ := exists_pieces [] t
  rw [isTidy_iff, isTidy_iff, lower, hpieces, head?_flatten hall, getLast?_flatten hall]

end Text

end CatalogCache
