import CatalogCache.Json.Printer
import CatalogCache.Proofs.JsonRoundTrip
import CatalogCache.Proofs.Numerals

/-!
# Printed text

Which code points a printed document has. All but those of its texts are visible ASCII or line
feeds, so it has no line ends to unify, and it has bytes if its texts have.
-/

namespace CatalogCache.Json

/-! ## The texts of a document -/

mutual

def texts : Json → List Text
  | text t => [t]
  | list items => itemTexts items
  | object members => memberTexts members
  | null | bool _ | int _ | real _ => []

def itemTexts : List Json → List Text
  | [] => []
  | item :: rest => item.texts ++ itemTexts rest

def memberTexts : List (Text × Json) → List Text
  | [] => []
  | (name, value) :: rest => name :: (value.texts ++ memberTexts rest)

end

/-- What may be printed where there are these texts. -/
def Printed (ts : List Text) (c : CodePoint) : Prop :=
  c = Text.lineFeed ∨ 0x20 ≤ c.val ∧ (c.val < 0x7f ∨ ∃ t ∈ ts, c ∈ t)

theorem Printed.mono {ts us : List Text} {c : CodePoint} (h : Printed ts c) (hsub : ts ⊆ us) :
    Printed us c := by
  rcases h with h | ⟨hlow, h | ⟨t, ht, hc⟩⟩
  · exact .inl h
  · exact .inr ⟨hlow, .inl h⟩
  · exact .inr ⟨hlow, .inr ⟨t, hsub ht, hc⟩⟩

theorem printed_ascii {ts : List Text} {c : CodePoint} (h : 0x20 ≤ c.val ∧ c.val < 0x7f) :
    Printed ts c :=
  .inr ⟨h.1, .inl h.2⟩

theorem Printed.ne_return {ts : List Text} {c : CodePoint} (h : Printed ts c) :
    c ≠ Text.carriageReturn := by
  rintro rfl
  rcases h with h | ⟨h, -⟩
  · exact absurd h (by decide)
  · exact absurd h (by decide)

/-! ## Quoted texts -/

theorem hex_ascii : ∀ n < 0x20, (Text.hex 4 n).all (fun d => 0x20 ≤ d.val && d.val < 0x7f) := by
  decide

theorem mem_escapePoint {c d : CodePoint} (h : d ∈ escapePoint c) :
    0x20 ≤ d.val ∧ (d.val < 0x7f ∨ d = c) := by
  have hpair : ∀ a b : CodePoint, (0x20 ≤ a.val ∧ a.val < 0x7f) → (0x20 ≤ b.val ∧ b.val < 0x7f) →
      d ∈ [a, b] → 0x20 ≤ d.val ∧ (d.val < 0x7f ∨ d = c) := by
    intro a b ha hb hd
    rcases List.mem_pair.mp hd with rfl | rfl
    · exact ⟨ha.1, .inl ha.2⟩
    · exact ⟨hb.1, .inl hb.2⟩
  unfold escapePoint at h
  split_ifs at h with h1 h2 h3 h4 h5 h6 h7 h8
  · exact hpair 0x5c 0x22 (by decide) (by decide) h
  · exact hpair 0x5c 0x5c (by decide) (by decide) h
  · exact hpair 0x5c 0x6e (by decide) (by decide) h
  · exact hpair 0x5c 0x72 (by decide) (by decide) h
  · exact hpair 0x5c 0x74 (by decide) (by decide) h
  · exact hpair 0x5c 0x66 (by decide) (by decide) h
  · exact hpair 0x5c 0x62 (by decide) (by decide) h
  · rw [List.flatten_cons, List.flatten_singleton, List.mem_append] at h
    rcases h with h | h
    · exact hpair 0x5c 0x75 (by decide) (by decide) h
    · have hhex := List.all_eq_true.mp (hex_ascii c.val h8) d h
      simp only [Bool.and_eq_true, decide_eq_true_eq] at hhex
      exact ⟨hhex.1, .inl hhex.2⟩
  · rw [List.mem_singleton.mp h]
    exact ⟨by omega, .inr rfl⟩

theorem mem_quote {t : Text} {c : CodePoint} (h : c ∈ quote t) : Printed [t] c := by
  rw [quote, List.mem_append, List.mem_cons, List.mem_flatMap, List.mem_singleton] at h
  rcases h with (rfl | ⟨d, hd, hc⟩) | rfl
  · exact printed_ascii (by decide)
  · obtain ⟨hlow, hc | rfl⟩ := mem_escapePoint hc
    · exact printed_ascii ⟨hlow, hc⟩
    · exact .inr ⟨hlow, .inr ⟨t, List.mem_singleton_self t, hd⟩⟩
  · exact printed_ascii (by decide)

theorem mem_quote_of_surrogate {t : Text} {c : CodePoint} (hc : c.isSurrogate = true)
    (h : c ∈ t) : c ∈ quote t := by
  have hself : c ∈ escapePoint c := by
    have hval : 0xd800 ≤ c.val := by
      simp only [CodePoint.isSurrogate, Bool.and_eq_true, decide_eq_true_eq] at hc
      exact hc.1
    have hne : ∀ d : CodePoint, d.val < 0xd800 → c ≠ d := by
      rintro d hd rfl
      omega
    unfold escapePoint
    rw [if_neg (hne _ (by decide)), if_neg (hne _ (by decide)), if_neg (hne _ (by decide)),
      if_neg (hne _ (by decide)), if_neg (hne _ (by decide)), if_neg (hne _ (by decide)),
      if_neg (hne _ (by decide)), if_neg (by omega)]
    exact List.mem_singleton_self c
  rw [quote, List.mem_append, List.mem_cons, List.mem_flatMap]
  exact .inl (.inr ⟨c, h, hself⟩)

/-! ## Whole documents -/

theorem printed_blank {ts : List Text} {blanks : Text} {c : CodePoint}
    (h : ∀ c ∈ blanks, c = Text.lineFeed ∨ c = 0x20) (hc : c ∈ blanks) : Printed ts c := by
  rcases h c hc with rfl | rfl
  · exact .inl rfl
  · exact printed_ascii (by decide)

theorem mem_break {layout : Layout} {level : Nat} :
    ∀ c ∈ layout.break level, c = Text.lineFeed ∨ c = 0x20 := by
  intro c h
  cases layout with
  | oneLine => simp [Layout.break] at h
  | lines step =>
    rcases List.mem_cons.mp h with h | h
    · exact .inl h
    · exact .inr (List.eq_of_mem_replicate h)

theorem mem_separator {ts : List Text} {layout : Layout} {level : Nat} {c : CodePoint}
    (h : c ∈ layout.separator level) : Printed ts c := by
  cases layout with
  | oneLine =>
    rcases List.mem_pair.mp (show c ∈ [0x2c, 0x20] from h) with rfl | rfl
    · exact printed_ascii (by decide)
    · exact printed_ascii (by decide)
  | lines step =>
    rcases List.mem_cons.mp h with rfl | h
    · exact printed_ascii (by decide)
    · exact printed_blank mem_break h

theorem render_items (layout : Layout) (level : Nat) (first : Json) (items : List Json) :
    render layout level (.list (first :: items)) = List.flatten [[0x5b], layout.break (level + 1),
      Text.join (layout.separator (level + 1)) (renderItems layout (level + 1) (first :: items)),
      layout.break level, [0x5d]] := by
  rw [render]
  · rfl
  · simp

theorem render_members (layout : Layout) (level : Nat) (first : Text × Json)
    (members : List (Text × Json)) :
    render layout level (.object (first :: members)) =
      List.flatten [[0x7b], layout.break (level + 1),
        Text.join (layout.separator (level + 1))
          (renderMembers layout (level + 1) (first :: members)),
        layout.break level, [0x7d]] := by
  rw [render]
  · rfl
  · simp

theorem mem_frame {ts : List Text} {layout : Layout} {level : Nat} {pieces : List Text}
    (opening closing : CodePoint) {c : CodePoint}
    (hopening : 0x20 ≤ opening.val ∧ opening.val < 0x7f)
    (hclosing : 0x20 ≤ closing.val ∧ closing.val < 0x7f)
    (hpieces : ∀ piece ∈ pieces, ∀ c ∈ piece, Printed ts c)
    (h : c ∈ List.flatten [[opening], layout.break (level + 1),
      Text.join (layout.separator (level + 1)) pieces, layout.break level, [closing]]) :
    Printed ts c := by
  simp only [List.flatten_cons, List.flatten_nil, List.append_nil, List.mem_append,
    List.mem_singleton] at h
  rcases h with rfl | h | h | h | rfl
  · exact printed_ascii hopening
  · exact printed_blank mem_break h
  · rcases Text.mem_join h with h | ⟨piece, hpiece, h⟩
    · exact mem_separator h
    · exact hpieces piece hpiece c h
  · exact printed_blank mem_break h
  · exact printed_ascii hclosing

theorem mem_ofInt {i : Int} {c : CodePoint} (h : c ∈ Text.ofInt i) :
    0x20 ≤ c.val ∧ c.val < 0x7f := by
  have hdigits : ∀ {n}, c ∈ Text.ofNat n → 0x20 ≤ c.val ∧ c.val < 0x7f := by
    intro n h
    have hdigit := Text.isAsciiDigit_ofNat n c h
    simp only [CodePoint.isAsciiDigit, Bool.and_eq_true, decide_eq_true_eq] at hdigit
    omega
  cases i with
  | ofNat n => exact hdigits h
  | negSucc n =>
    rcases List.mem_cons.mp (show c ∈ 0x2d :: Text.ofNat (n + 1) from h) with rfl | h
    · decide
    · exact hdigits h

theorem printed_name {ts : List Text} (name : String) {c : CodePoint}
    (hname : (Text.ofString name).all (fun d => 0x20 ≤ d.val && d.val < 0x7f) = true)
    (h : c ∈ Text.ofString name) : Printed ts c := by
  have hc := List.all_eq_true.mp hname c h
  simp only [Bool.and_eq_true, decide_eq_true_eq] at hc
  exact printed_ascii hc

mutual

theorem mem_render (layout : Layout) : ∀ (j : Json) (level : Nat) {depth : Nat} {c : CodePoint},
    j.Fits depth → c ∈ render layout level j → Printed j.texts c
  | .null, _, _, _, _, h => printed_name "null" (by decide) h
  | .bool true, _, _, _, _, h => printed_name "true" (by decide) h
  | .bool false, _, _, _, _, h => printed_name "false" (by decide) h
  | .int _, _, _, _, _, h => printed_ascii (mem_ofInt h)
  | .real _, _, _, _, hfits, h => printed_ascii (hfits.1 _ h)
  | .text _, _, _, _, _, h => mem_quote h
  | .list [], _, _, _, _, h => printed_name "[]" (by decide) h
  | .list (first :: items), level, depth, c, hfits, h => by
    rw [render_items] at h
    exact mem_frame 0x5b 0x5d (by decide) (by decide)
      (mem_renderItems layout (first :: items) (level + 1) hfits.2) h
  | .object [], _, _, _, _, h => printed_name "\x7b\x7d" (by decide) h
  | .object (first :: members), level, depth, c, hfits, h => by
    rw [render_members] at h
    exact mem_frame 0x7b 0x7d (by decide) (by decide)
      (mem_renderMembers layout (first :: members) (level + 1) hfits.2.2) h

theorem mem_renderItems (layout : Layout) : ∀ (items : List Json) (level : Nat) {depth : Nat},
    ItemsFit depth items → ∀ piece ∈ renderItems layout level items, ∀ c ∈ piece,
      Printed (itemTexts items) c
  | [], _, _, _ => by simp [renderItems]
  | first :: items, level, depth, hfits => by
    intro piece hpiece c hc
    rw [renderItems, List.mem_cons] at hpiece
    rcases hpiece with rfl | hpiece
    · exact (mem_render layout first level hfits.1 hc).mono (List.subset_append_left _ _)
    · exact (mem_renderItems layout items level hfits.2 piece hpiece c hc).mono
        (List.subset_append_right _ _)

theorem mem_renderMembers (layout : Layout) : ∀ (members : List (Text × Json)) (level : Nat)
    {depth : Nat}, MembersFit depth members →
    ∀ piece ∈ renderMembers layout level members, ∀ c ∈ piece, Printed (memberTexts members) c
  | [], _, _, _ => by simp [renderMembers]
  | (key, first) :: members, level, depth, hfits => by
    intro piece hpiece c hc
    rw [renderMembers, List.mem_cons] at hpiece
    rw [memberTexts]
    rcases hpiece with rfl | hpiece
    · simp only [List.flatten_cons, List.flatten_nil, List.append_nil, List.mem_append] at hc
      rcases hc with hc | hc | hc
      · exact (mem_quote hc).mono (by simp)
      · exact printed_name ": " (by decide) hc
      · exact (mem_render layout first level hfits.1 hc).mono
          (List.Subset.trans (List.subset_append_left _ _) (List.subset_cons_self _ _))
    · exact (mem_renderMembers layout members level hfits.2 piece hpiece c hc).mono
        (List.Subset.trans (List.subset_append_right _ _) (List.subset_cons_self _ _))

end

mutual

/-- Surrogates are never escaped. -/
theorem surrogate_mem_render (layout : Layout) {c : CodePoint} (hc : c.isSurrogate = true) :
    ∀ (j : Json) (level : Nat) {t : Text}, t ∈ j.texts → c ∈ t → c ∈ render layout level j
  | .text s, _, t, ht, h => by
    rw [List.mem_singleton.mp ht] at h
    exact mem_quote_of_surrogate hc h
  | .list (first :: items), level, t, ht, h => by
    obtain ⟨piece, hpiece, h⟩ :=
      surrogate_mem_renderItems layout hc (first :: items) (level + 1) ht h
    rw [render_items]
    simp only [List.flatten_cons, List.flatten_nil, List.mem_append]
    exact .inr (.inr (.inl (Text.subset_join hpiece h)))
  | .object (first :: members), level, t, ht, h => by
    obtain ⟨piece, hpiece, h⟩ :=
      surrogate_mem_renderMembers layout hc (first :: members) (level + 1) ht h
    rw [render_members]
    simp only [List.flatten_cons, List.flatten_nil, List.mem_append]
    exact .inr (.inr (.inl (Text.subset_join hpiece h)))
  | .null, _, _, ht, _ | .bool _, _, _, ht, _ | .int _, _, _, ht, _ | .real _, _, _, ht, _
  | .list [], _, _, ht, _ | .object [], _, _, ht, _ => absurd ht List.not_mem_nil

theorem surrogate_mem_renderItems (layout : Layout) {c : CodePoint} (hc : c.isSurrogate = true) :
    ∀ (items : List Json) (level : Nat) {t : Text}, t ∈ itemTexts items → c ∈ t →
      ∃ piece ∈ renderItems layout level items, c ∈ piece
  | [], _, _, ht, _ => absurd ht List.not_mem_nil
  | first :: items, level, t, ht, h => by
    rw [renderItems]
    rcases List.mem_append.mp ht with ht | ht
    · exact ⟨_, List.mem_cons_self, surrogate_mem_render layout hc first level ht h⟩
    · obtain ⟨piece, hpiece, h⟩ := surrogate_mem_renderItems layout hc items level ht h
      exact ⟨piece, List.mem_cons_of_mem _ hpiece, h⟩

theorem surrogate_mem_renderMembers (layout : Layout) {c : CodePoint}
    (hc : c.isSurrogate = true) :
    ∀ (members : List (Text × Json)) (level : Nat) {t : Text}, t ∈ memberTexts members → c ∈ t →
      ∃ piece ∈ renderMembers layout level members, c ∈ piece
  | [], _, _, ht, _ => absurd ht List.not_mem_nil
  | (key, first) :: members, level, t, ht, h => by
    rw [renderMembers]
    rw [memberTexts, List.mem_cons, List.mem_append] at ht
    rcases ht with rfl | ht | ht
    · refine ⟨_, List.mem_cons_self, ?_⟩
      simp [mem_quote_of_surrogate hc h]
    · refine ⟨_, List.mem_cons_self, ?_⟩
      simp [surrogate_mem_render layout hc first level ht h]
    · obtain ⟨piece, hpiece, h⟩ := surrogate_mem_renderMembers layout hc members level ht h
      exact ⟨piece, List.mem_cons_of_mem _ hpiece, h⟩

end

theorem surrogate_mem_print_iff {layout : Layout} {j : Json} {depth : Nat} (h : j.Fits depth)
    {c : CodePoint} (hc : c.isSurrogate = true) :
    c ∈ print layout j ++ [Text.lineFeed] ↔ ∃ t ∈ j.texts, c ∈ t := by
  have hval : 0xd800 ≤ c.val := by
    simp only [CodePoint.isSurrogate, Bool.and_eq_true, decide_eq_true_eq] at hc
    exact hc.1
  have hfeed : c ≠ Text.lineFeed := by
    rintro rfl
    exact absurd hval (by decide)
  rw [List.mem_append, List.mem_singleton, or_iff_left hfeed]
  constructor
  · intro hmem
    rcases mem_render layout j 0 h hmem with hfeed' | ⟨-, hascii | htexts⟩
    · exact absurd hfeed' hfeed
    · omega
    · exact htexts
  · rintro ⟨t, ht, hmem⟩
    exact surrogate_mem_render layout hc j 0 ht hmem

/-! ## Reading back -/

theorem unifyLines_print {layout : Layout} {j : Json} {depth : Nat} (h : j.Fits depth) :
    (print layout j ++ [Text.lineFeed]).unifyLines = print layout j ++ [Text.lineFeed] := by
  apply Text.unifyLines_of_not_mem
  intro hmem
  rcases List.mem_append.mp hmem with hmem | hmem
  · exact (mem_render layout j 0 h hmem).ne_return rfl
  · exact absurd (List.mem_singleton.mp hmem) (by decide)

theorem head?_print {layout : Layout} {j : Json} {depth : Nat} (h : j.Fits depth) (t : Text) :
    (print layout j ++ t).head? ≠ some 0xfeff := by
  have hascii : ∀ {c : CodePoint} {s : Text}, c.val < 0x7f → (c :: s ++ t).head? ≠ some 0xfeff := by
    rintro c s hc ⟨⟩
    exact absurd hc (by decide)
  unfold print
  cases j with
  | null => exact hascii (by decide)
  | bool b => cases b <;> exact hascii (by decide)
  | int i =>
    obtain ⟨c, s, hs, -⟩ := scan_ofInt h
    rw [render, hs]
    exact hascii (mem_ofInt (i := i) (hs ▸ List.mem_cons_self)).2
  | real x =>
    obtain ⟨hvisible, c, s, hs, -⟩ := h
    rw [render, hs]
    exact hascii (hvisible c (hs ▸ List.mem_cons_self)).2
  | text s => exact hascii (by decide)
  | list items => cases items <;> exact hascii (by decide)
  | object members => cases members <;> exact hascii (by decide)

/-- **Round trip.** What is printed, with a line feed at the end, reads as the document. -/
theorem read_print (layout : Layout) {j : Json} (h : j.Fits maxDepth) :
    read (print layout j ++ [Text.lineFeed]) = .ok j := by
  have hends : EndsNumeral [Text.lineFeed] := endsNumeral_of_space rfl []
  rw [read, readWithin, if_neg (head?_print h _), print,
    run_render layout maxDepth j 0 (.value []) h hends]
  show Except.mapError _ ((Reading.done j).run maxDepth [Text.lineFeed]) = _
  rw [Reading.run_space rfl, Reading.run_of_blank rfl]
  rfl

end CatalogCache.Json
