import CatalogCache.Json.Reader
import CatalogCache.Proofs.Documents
import CatalogCache.Proofs.JsonText
import CatalogCache.Proofs.Numerals
import CatalogCache.Proofs.Texts

/-!
# Documents and back

The reader takes back every document that the printer lays out, in every layout. The induction is
on the document, with the reader in any state that waits for a value: what is printed closes the
value and leaves the rest of the text.
-/

namespace CatalogCache.Json

/-! ## Documents that can be printed -/

/-- The text of a real is visible, it is one token, and the token is the real. -/
def RealReads (x : Binary64) : Prop :=
  (∀ c ∈ x.textWith Binary64.jsonNames, 0x20 ≤ c.val ∧ c.val < 0x7f) ∧
  ∃ c t, x.textWith Binary64.jsonNames = c :: t ∧ isSpace c = false ∧ c ≠ 0x5d ∧
    ∀ rest, EndsNumeral rest → Token.scan c (t ++ rest) = (.scalar (.real x), rest)

mutual

/-- Containers nest at most `depth` deep, integers are short enough for text, names of an object
do not repeat, and reals read back. -/
def Fits (depth : Nat) : Json → Prop
  | null | bool _ | text _ => True
  | int i => (Integer.text? i).isSome
  | real x => RealReads x
  | list items => 0 < depth ∧ ItemsFit (depth - 1) items
  | object members => 0 < depth ∧ (members.map (·.1)).Nodup ∧ MembersFit (depth - 1) members

def ItemsFit (depth : Nat) : List Json → Prop
  | [] => True
  | item :: rest => item.Fits depth ∧ ItemsFit depth rest

def MembersFit (depth : Nat) : List (Text × Json) → Prop
  | [] => True
  | (_, value) :: rest => value.Fits depth ∧ MembersFit depth rest

end

mutual

theorem Fits.mono : ∀ {j : Json} {depth more : Nat}, j.Fits depth → depth ≤ more → j.Fits more
  | .null, _, _, _, _ | .bool _, _, _, _, _ | .text _, _, _, _, _ => trivial
  | .int _, _, _, h, _ | .real _, _, _, h, _ => h
  | .list _, _, _, h, hle =>
    ⟨h.1.trans_le hle, ItemsFit.mono h.2 (Nat.sub_le_sub_right hle 1)⟩
  | .object _, _, _, h, hle =>
    ⟨h.1.trans_le hle, h.2.1, MembersFit.mono h.2.2 (Nat.sub_le_sub_right hle 1)⟩

theorem ItemsFit.mono : ∀ {items : List Json} {depth more : Nat}, ItemsFit depth items →
    depth ≤ more → ItemsFit more items
  | [], _, _, _, _ => trivial
  | _ :: _, _, _, h, hle => ⟨h.1.mono hle, ItemsFit.mono h.2 hle⟩

theorem MembersFit.mono : ∀ {members : List (Text × Json)} {depth more : Nat},
    MembersFit depth members → depth ≤ more → MembersFit more members
  | [], _, _, _, _ => trivial
  | _ :: _, _, _, h, hle => ⟨h.1.mono hle, MembersFit.mono h.2 hle⟩

end

/-! ## Single steps of the reader -/

namespace Reading

variable {maxDepth : Nat} {state next : Reading}

theorem run_of_blank {t : Text} (h : t.dropWhile isSpace = []) :
    state.run maxDepth t = state.finish := by
  rw [run.eq_def]
  split
  · rfl
  · next h' => simp [h] at h'

theorem run_of_dropWhile {t rest : Text} {c : CodePoint} (h : t.dropWhile isSpace = c :: rest) :
    state.run maxDepth t = (state.step maxDepth (Token.scan c rest).1 (c :: rest)).bind
      fun next => next.run maxDepth (Token.scan c rest).2 := by
  rw [run.eq_def]
  split
  · next h' => simp [h] at h'
  · next h' =>
    rw [h] at h'
    cases h'
    cases state.step maxDepth (Token.scan c rest).1 (c :: rest) <;> rfl

theorem run_space {c : CodePoint} (hc : isSpace c = true) (t : Text) :
    state.run maxDepth (c :: t) = state.run maxDepth t := by
  have hdrop : (c :: t).dropWhile isSpace = t.dropWhile isSpace := List.dropWhile_cons_of_pos hc
  cases ht : t.dropWhile isSpace with
  | nil => rw [run_of_blank ht, run_of_blank (hdrop.trans ht)]
  | cons d tail => rw [run_of_dropWhile ht, run_of_dropWhile (hdrop.trans ht)]

theorem run_spaces {blanks : Text} (h : ∀ c ∈ blanks, isSpace c = true) (t : Text) :
    state.run maxDepth (blanks ++ t) = state.run maxDepth t := by
  induction blanks with
  | nil => rfl
  | cons c blanks ih =>
    rw [List.forall_mem_cons] at h
    rw [List.cons_append, run_space h.1, ih h.2]

theorem run_token (token : Token) (next : Reading) {c : CodePoint} {t rest : Text}
    (hc : isSpace c = false) (hscan : Token.scan c t = (token, rest))
    (hstep : state.step maxDepth token (c :: t) = .ok next) :
    state.run maxDepth (c :: t) = next.run maxDepth rest := by
  have hdrop : (c :: t).dropWhile isSpace = c :: t := List.dropWhile_cons_of_neg (by simp [hc])
  rw [run_of_dropWhile hdrop, hscan, hstep]
  rfl

/-- A state in which a value may start, with what is open around it. -/
inductive Opens : Reading → List Frame → Prop
  | value (outer : List Frame) : Opens (.value outer) outer
  | item (outer : List Frame) : Opens (.item outer) (.list [] :: outer)

theorem step_of_opens {outer : List Frame} {token : Token} (h : Opens state outer) (here : Text)
    (htoken : token ≠ .closeList) :
    state.step maxDepth token here = onValue maxDepth outer token here := by
  cases h with
  | value => cases token <;> rfl
  | item => cases token <;> first | rfl | exact absurd rfl htoken

theorem run_scalar {outer : List Frame} {c : CodePoint} {t rest : Text} {j : Json}
    (h : Opens state outer) (hc : isSpace c = false) (hscan : Token.scan c t = (.scalar j, rest)) :
    state.run maxDepth (c :: t) = (close j outer).run maxDepth rest := by
  apply run_token _ _ hc hscan
  rw [step_of_opens h _ (by simp)]
  rfl

end Reading

/-! ## Layouts -/

theorem isSpace_break (layout : Layout) (level : Nat) :
    ∀ c ∈ layout.break level, isSpace c = true := by
  cases layout with
  | oneLine => simp [Layout.break]
  | lines step =>
    rintro c (hc | ⟨_, hc⟩)
    · rfl
    · rw [List.eq_of_mem_replicate hc]
      rfl

theorem separator_eq (layout : Layout) (level : Nat) :
    ∃ blanks, layout.separator level = 0x2c :: blanks ∧ ∀ c ∈ blanks, isSpace c = true := by
  cases layout with
  | oneLine => exact ⟨[0x20], rfl, by simp [isSpace]⟩
  | lines step => exact ⟨_, rfl, isSpace_break (.lines step) level⟩

theorem endsNumeral_of_space {c : CodePoint} (h : isSpace c = true) (t : Text) :
    EndsNumeral (c :: t) := by
  intro d hd
  cases hd
  simp only [isSpace, Bool.or_eq_true, decide_eq_true_eq] at h
  rcases h with ((rfl | rfl) | rfl) | rfl <;> decide

theorem endsNumeral_spaces {blanks t : Text} (h : ∀ c ∈ blanks, isSpace c = true)
    (ht : EndsNumeral t) : EndsNumeral (blanks ++ t) := by
  cases blanks with
  | nil => exact ht
  | cons c blanks => exact endsNumeral_of_space (h c List.mem_cons_self) _

theorem endsNumeral_cons {c : CodePoint} (t : Text)
    (h : c.isAsciiDigit = false ∧ c ≠ 0x2e ∧ c ≠ 0x65 ∧ c ≠ 0x45) : EndsNumeral (c :: t) := by
  intro d hd
  cases hd
  exact h

/-! ## Scalars -/

theorem scan_of_plain {c : CodePoint} (t : Text)
    (h : c ≠ 0x5b ∧ c ≠ 0x5d ∧ c ≠ 0x7b ∧ c ≠ 0x7d ∧ c ≠ 0x2c ∧ c ≠ 0x3a ∧ c ≠ 0x22) :
    Token.scan c t = ((scanName (c :: t)).or (scanNumber (c :: t))).getD (.junk, []) := by
  simp [Token.scan, h]

theorem digit_facts {c : CodePoint} (h : c.isAsciiDigit = true) : isSpace c = false ∧
    c ≠ 0x5b ∧ c ≠ 0x5d ∧ c ≠ 0x7b ∧ c ≠ 0x7d ∧ c ≠ 0x2c ∧ c ≠ 0x3a ∧ c ≠ 0x22 := by
  have hne : ∀ d : CodePoint, d.isAsciiDigit = false → c ≠ d := by
    rintro d hd rfl
    simp [h] at hd
  refine ⟨?_, hne _ rfl, hne _ rfl, hne _ rfl, hne _ rfl, hne _ rfl, hne _ rfl, hne _ rfl⟩
  simp [isSpace, hne 0x20 rfl, hne 0x9 rfl, hne 0xa rfl, hne 0xd rfl]

theorem scan_ofInt {i : Int} (hi : (Integer.text? i).isSome) :
    ∃ c t, Text.ofInt i = c :: t ∧ isSpace c = false ∧ c ≠ 0x5d ∧
      ∀ rest, EndsNumeral rest → Token.scan c (t ++ rest) = (.scalar (.int i), rest) := by
  have hnumber : ∀ {rest}, EndsNumeral rest → scanNumber (Text.ofInt i ++ rest) = _ :=
    fun h => scanNumber_ofInt hi h
  cases i with
  | ofNat n =>
    obtain ⟨c, t, hct⟩ := List.exists_cons_of_ne_nil (Text.ofNat_ne_nil n)
    have hdigit : c.isAsciiDigit = true := Text.isAsciiDigit_ofNat n c (by simp [hct])
    refine ⟨c, t, hct, (digit_facts hdigit).1, (digit_facts hdigit).2.2.1, ?_⟩
    intro rest hrest
    rw [scan_of_plain _ (digit_facts hdigit).2, ← List.cons_append, ← hct,
      (scanName_of_digit (c := c) (by simp [hct]) hdigit).1]
    exact congrArg (fun o => (Option.or none o).getD (.junk, [])) (hnumber hrest)
  | negSucc n =>
    obtain ⟨c, t, hct⟩ := List.exists_cons_of_ne_nil (Text.ofNat_ne_nil (n + 1))
    have hdigit : c.isAsciiDigit = true := Text.isAsciiDigit_ofNat (n + 1) c (by simp [hct])
    refine ⟨0x2d, Text.ofNat (n + 1), rfl, rfl, by decide, ?_⟩
    intro rest hrest
    rw [scan_of_plain _ (by decide),
      (scanName_of_digit (c := c) (t := Text.ofNat (n + 1) ++ rest) (by simp [hct]) hdigit).2]
    exact congrArg (fun o => (Option.or none o).getD (.junk, [])) (hnumber hrest)

/-! ## Containers -/

theorem endsNumeral_flatMap {separator : Text} {blanks rest : Text} (ts : List Text)
    (hseparator : separator = 0x2c :: blanks) (hrest : EndsNumeral rest) :
    EndsNumeral (ts.flatMap (separator ++ ·) ++ rest) := by
  cases ts with
  | nil => exact hrest
  | cons t ts =>
    rw [hseparator]
    exact endsNumeral_cons _ (by decide)

namespace Reading

variable {maxDepth : Nat} {outer : List Frame}

theorem run_openList {state : Reading} (h : Opens state outer) (hdepth : outer.length < maxDepth)
    (t : Text) : state.run maxDepth (0x5b :: t) = (Reading.item outer).run maxDepth t := by
  apply run_token .openList _ rfl rfl
  rw [step_of_opens h _ (by simp)]
  exact if_pos hdepth

theorem run_openObject {state : Reading} (h : Opens state outer)
    (hdepth : outer.length < maxDepth) (t : Text) :
    state.run maxDepth (0x7b :: t) = (Reading.member outer).run maxDepth t := by
  apply run_token .openObject _ rfl rfl
  rw [step_of_opens h _ (by simp)]
  exact if_pos hdepth

/-- A state in which a name may start, with the members before it. -/
inductive Names (outer : List Frame) : Reading → Members → Prop
  | member : Names outer (.member outer) []
  | name (members : Members) : Names outer (.name members outer) members

theorem run_name {state : Reading} {members : Members} (h : Names outer state members)
    (name t : Text) :
    state.run maxDepth (quote name ++ (0x3a :: 0x20 :: t)) =
      (Reading.value (.object members name :: outer)).run maxDepth t := by
  rw [quote_append, run_token _ (.colon members name outer) rfl (scan_quote name _)]
  · rw [run_token .colon (.value (.object members name :: outer)) rfl rfl rfl]
    exact run_space rfl t
  · cases h <;> rfl

theorem run_comma {items : List Json} {blanks : Text} (h : ∀ c ∈ blanks, isSpace c = true)
    (t : Text) : (Reading.afterItem items outer).run maxDepth (0x2c :: (blanks ++ t)) =
      (Reading.value (.list items :: outer)).run maxDepth t := by
  rw [run_token .comma (.value (.list items :: outer)) rfl rfl rfl]
  exact run_spaces h t

theorem run_memberComma {members : Members} {blanks : Text}
    (h : ∀ c ∈ blanks, isSpace c = true) (t : Text) :
    (Reading.afterMember members outer).run maxDepth (0x2c :: (blanks ++ t)) =
      (Reading.name members outer).run maxDepth t := by
  rw [run_token .comma (.name members outer) rfl rfl rfl]
  exact run_spaces h t

end Reading

/-! ## Documents -/

theorem render_list (layout : Layout) (level : Nat) (first : Json) (items : List Json)
    (rest : Text) : render layout level (.list (first :: items)) ++ rest =
      0x5b :: (layout.break (level + 1) ++ (render layout (level + 1) first ++
        ((renderItems layout (level + 1) items).flatMap (layout.separator (level + 1) ++ ·) ++
          (layout.break level ++ 0x5d :: rest)))) := by
  rw [render, renderItems, Text.join_cons]
  · simp [Text.ofString]
    exact ⟨rfl, rfl⟩
  · simp

theorem render_object (layout : Layout) (level : Nat) (key : Text) (first : Json)
    (members : List (Text × Json)) (rest : Text) :
    render layout level (.object ((key, first) :: members)) ++ rest =
      0x7b :: (layout.break (level + 1) ++ (quote key ++ (0x3a :: 0x20 ::
        (render layout (level + 1) first ++
          ((renderMembers layout (level + 1) members).flatMap
            (layout.separator (level + 1) ++ ·) ++ (layout.break level ++ 0x7d :: rest)))))) := by
  rw [render, renderMembers, Text.join_cons]
  · simp [Text.ofString]
    exact ⟨rfl, rfl, rfl, rfl⟩
  · simp

mutual

/-- **Round trip.** A printed value closes the value that the reader waits for. -/
theorem run_render (layout : Layout) (maxDepth : Nat) : ∀ (j : Json) (level : Nat)
    {state : Reading} {outer : List Frame} {rest : Text}, Reading.Opens state outer →
    j.Fits (maxDepth - outer.length) → EndsNumeral rest →
    state.run maxDepth (render layout level j ++ rest) =
      (Reading.close j outer).run maxDepth rest
  | .null, _, _, _, _, h, _, _ => Reading.run_scalar h rfl rfl
  | .bool true, _, _, _, _, h, _, _ => Reading.run_scalar h rfl rfl
  | .bool false, _, _, _, _, h, _, _ => Reading.run_scalar h rfl rfl
  | .int i, level, state, outer, rest, h, hfits, hrest => by
    obtain ⟨c, t, hct, hspace, -, hscan⟩ := scan_ofInt hfits
    rw [render, hct]
    exact Reading.run_scalar h hspace (hscan rest hrest)
  | .real x, level, state, outer, rest, h, hfits, hrest => by
    obtain ⟨-, c, t, hct, hspace, -, hscan⟩ := hfits
    rw [render, hct]
    exact Reading.run_scalar h hspace (hscan rest hrest)
  | .text t, level, state, outer, rest, h, _, _ => by
    rw [render, quote_append]
    apply Reading.run_token _ _ rfl (scan_quote t rest)
    rw [Reading.step_of_opens h _ (by simp)]
    rfl
  | .list [], level, state, outer, rest, h, hfits, _ => by
    show state.run maxDepth (0x5b :: 0x5d :: rest) = _
    rw [Reading.run_openList h (Nat.lt_of_sub_pos hfits.1)]
    exact Reading.run_token .closeList _ rfl rfl rfl
  | .list (first :: items), level, state, outer, rest, h, hfits, hrest => by
    obtain ⟨hdepth, hfirst, hitems⟩ := hfits
    obtain ⟨blanks, hseparator, hblanks⟩ := separator_eq layout (level + 1)
    have hclose : EndsNumeral (layout.break level ++ 0x5d :: rest) :=
      endsNumeral_spaces (isSpace_break layout level) (endsNumeral_cons _ (by decide))
    rw [render_list, Reading.run_openList h (Nat.lt_of_sub_pos hdepth),
      Reading.run_spaces (isSpace_break _ _),
      run_render layout maxDepth first (level + 1) (.item outer)
        (by rwa [List.length_cons, Nat.sub_add_eq])
        (endsNumeral_flatMap _ hseparator hclose)]
    show (Reading.afterItem [first] outer).run maxDepth _ = _
    rw [run_items layout maxDepth items (level + 1) [first] (by rwa [Nat.sub_add_eq]) hclose,
      Reading.run_spaces (isSpace_break _ _)]
    apply Reading.run_token .closeList _ rfl rfl
    show Except.ok (Reading.close (.list (items.reverse ++ [first]).reverse) outer) = _
    rw [List.reverse_append, List.reverse_reverse]
    rfl
  | .object [], level, state, outer, rest, h, hfits, _ => by
    show state.run maxDepth (0x7b :: 0x7d :: rest) = _
    rw [Reading.run_openObject h (Nat.lt_of_sub_pos hfits.1)]
    exact Reading.run_token .closeObject _ rfl rfl rfl
  | .object ((key, first) :: members), level, state, outer, rest, h, hfits, hrest => by
    obtain ⟨hdepth, hnames, hfirst, hmembers⟩ := hfits
    obtain ⟨blanks, hseparator, hblanks⟩ := separator_eq layout (level + 1)
    have hclose : EndsNumeral (layout.break level ++ 0x7d :: rest) :=
      endsNumeral_spaces (isSpace_break layout level) (endsNumeral_cons _ (by decide))
    rw [render_object, Reading.run_openObject h (Nat.lt_of_sub_pos hdepth),
      Reading.run_spaces (isSpace_break _ _), Reading.run_name .member,
      run_render layout maxDepth first (level + 1) (.value _)
        (by rwa [List.length_cons, Nat.sub_add_eq])
        (endsNumeral_flatMap _ hseparator hclose)]
    show (Reading.afterMember [(key, first)] outer).run maxDepth _ = _
    rw [run_members layout maxDepth members (level + 1) [(key, first)] (by rwa [Nat.sub_add_eq])
        hnames hclose,
      Reading.run_spaces (isSpace_break _ _)]
    exact Reading.run_token .closeObject _ rfl rfl rfl

theorem run_items (layout : Layout) (maxDepth : Nat) : ∀ (items : List Json) (level : Nat)
    (before : List Json) {outer : List Frame} {rest : Text},
    ItemsFit (maxDepth - (outer.length + 1)) items → EndsNumeral rest →
    (Reading.afterItem before outer).run maxDepth
        ((renderItems layout level items).flatMap (layout.separator level ++ ·) ++ rest) =
      (Reading.afterItem (items.reverse ++ before) outer).run maxDepth rest
  | [], _, _, _, _, _, _ => rfl
  | first :: items, level, before, outer, rest, hfits, hrest => by
    obtain ⟨blanks, hseparator, hblanks⟩ := separator_eq layout level
    have ih := run_items layout maxDepth items level (first :: before) hfits.2 hrest
    rw [hseparator] at ih
    rw [renderItems, List.flatMap_cons, hseparator, List.append_assoc, List.cons_append,
      List.cons_append, List.append_assoc, Reading.run_comma hblanks,
      run_render layout maxDepth first level (.value _) (by rw [List.length_cons]; exact hfits.1)
        (endsNumeral_flatMap _ rfl hrest),
      List.reverse_cons, List.append_assoc]
    exact ih

theorem run_members (layout : Layout) (maxDepth : Nat) : ∀ (members : List (Text × Json))
    (level : Nat) (before : Members) {outer : List Frame} {rest : Text},
    MembersFit (maxDepth - (outer.length + 1)) members →
    ((before ++ members).map (·.1)).Nodup → EndsNumeral rest →
    (Reading.afterMember before outer).run maxDepth
        ((renderMembers layout level members).flatMap (layout.separator level ++ ·) ++ rest) =
      (Reading.afterMember (before ++ members) outer).run maxDepth rest
  | [], _, _, _, _, _, _, _ => by rw [List.append_nil]; rfl
  | (key, first) :: members, level, before, outer, rest, hfits, hnames, hrest => by
    obtain ⟨blanks, hseparator, hblanks⟩ := separator_eq layout level
    have hnew : key ∉ before.map (·.1) := by
      rw [List.map_append, List.nodup_append] at hnames
      exact fun hmem => hnames.2.2 key hmem key (by simp) rfl
    have ih := run_members layout maxDepth members level (before ++ [(key, first)])
      hfits.2 (by simpa using hnames) hrest
    rw [hseparator] at ih
    have htext : (renderMembers layout level ((key, first) :: members)).flatMap
          (layout.separator level ++ ·) ++ rest =
        0x2c :: (blanks ++ (quote key ++ (0x3a :: 0x20 :: (render layout level first ++
          ((renderMembers layout level members).flatMap ((0x2c :: blanks) ++ ·) ++ rest))))) := by
      rw [renderMembers, List.flatMap_cons, hseparator]
      simp [Text.ofString]
      exact ⟨rfl, rfl⟩
    rw [htext, Reading.run_memberComma hblanks, Reading.run_name (.name before),
      run_render layout maxDepth first level (.value _) (by rw [List.length_cons]; exact hfits.1)
        (endsNumeral_flatMap _ rfl hrest)]
    show (Reading.afterMember (Ordered.insert before key first) outer).run maxDepth _ = _
    rw [Ordered.insert_of_not_mem hnew, ih, List.append_assoc]
    rfl

end

end CatalogCache.Json
