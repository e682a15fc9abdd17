import CatalogCache.Proofs.Results
import CatalogCache.Site

/-!
# Numbers of a server

Whether a text is a number is asked of its digits, with all blanks off, and signs that only look
like digits pass. What is then converted has fewer blanks off, must have decimal digits only, and
not too many of them. A text between the two breaks the record that it is read for.
-/

namespace CatalogCache

/-! ## Blanks around a text -/

/-- The information separators: blank, but not around a number. -/
def CodePoint.isSeparator (c : CodePoint) : Bool := 0x1c ≤ c.val && c.val ≤ 0x1f

namespace Text

/-- The text without what satisfies a predicate at both of its ends. -/
def trim (p : CodePoint → Bool) (t : Text) : Text := dropEndWhile p (t.dropWhile p)

variable {p q : CodePoint → Bool} {t : Text} {c : CodePoint}

theorem dropWhile_congr (h : ∀ c ∈ t, p c = q c) : t.dropWhile p = t.dropWhile q := by
  induction t with
  | nil => rfl
  | cons c t ih =>
    rw [List.forall_mem_cons] at h
    rw [List.dropWhile_cons, List.dropWhile_cons, h.1, ih h.2]

theorem trim_congr (h : ∀ c ∈ t, p c = q c) : t.trim p = t.trim q := by
  have hrest : ∀ c ∈ (t.dropWhile q).reverse, p c = q c := by
    intro c hc
    exact h c ((List.dropWhile_suffix q).mem (List.mem_reverse.mp hc))
  rw [trim, trim, dropEndWhile, dropEndWhile, dropWhile_congr h, dropWhile_congr hrest]

theorem mem_trim (hc : c ∈ t) (hp : p c = false) : c ∈ t.trim p := by
  have hkeep : ∀ {s : Text}, c ∈ s → c ∈ s.dropWhile p := by
    intro s hs
    rw [← List.takeWhile_append_dropWhile (p := p) (l := s), List.mem_append] at hs
    rcases hs with hs | hs
    · rw [List.mem_takeWhile_imp hs] at hp
      cases hp
    · exact hs
  exact List.mem_reverse.mpr (hkeep (List.mem_reverse.mpr (hkeep hc)))

end Text

namespace CodePoint

theorem exists_of_isSeparator {c : CodePoint} (h : c.isSeparator = true) :
    ∃ n < 4, c = ofNat (0x1c + n) := by
  simp only [isSeparator, Bool.and_eq_true, decide_eq_true_eq] at h
  refine ⟨c.val - 0x1c, by omega, Fin.ext ?_⟩
  have hval : 0x1c + (c.val - 0x1c) = c.val := by omega
  rw [hval, ofNat, dif_pos c.isLt]

theorem isNumeralBlank_of_isSeparator {c : CodePoint} (h : c.isSeparator = true) :
    c.isNumeralBlank = false := by
  rw [isNumeralBlank]
  unfold isSeparator at h
  rw [h, Bool.not_true, Bool.and_false]

theorem isNumeralBlank_eq {c : CodePoint} (h : c.isSeparator = false) :
    c.isNumeralBlank = c.isBlank := by
  rw [isNumeralBlank]
  unfold isSeparator at h
  rw [h, Bool.not_false, Bool.and_true]

theorem decimal?_of_isSeparator {c : CodePoint} (h : c.isSeparator = true) : c.decimal? = none := by
  have hnone : ∀ n < 4, (ofNat (0x1c + n)).decimal? = none := by decide
  obtain ⟨n, hn, rfl⟩ := exists_of_isSeparator h
  exact hnone n hn

theorem isDigit_of_decimal? {c : CodePoint} (h : c.decimal?.isSome = true) : c.isDigit = true := by
  rw [isDigit, h, Bool.true_or]

end CodePoint

/-! ## Texts that show a number -/

namespace Text

variable {t : Text}

def isDecimal (t : Text) : Bool := t.all (·.decimal?.isSome)

theorem stripNumeral_eq (h : ∀ c ∈ t, c.isSeparator = false) : t.stripNumeral = t.strip :=
  trim_congr fun c hc => CodePoint.isNumeralBlank_eq (h c hc)

theorem isDecimal_stripNumeral (t : Text) :
    t.stripNumeral.isDecimal = true ↔
      t.strip.isDecimal = true ∧ ∀ c ∈ t, c.isSeparator = false := by
  constructor
  · intro h
    have hplain : ∀ c ∈ t, c.isSeparator = false := by
      intro c hc
      by_contra hsep
      rw [Bool.not_eq_false] at hsep
      -- a separator stays, and is no digit
      have hmem : c ∈ t.stripNumeral := mem_trim hc (CodePoint.isNumeralBlank_of_isSeparator hsep)
      have hdigit := List.all_eq_true.mp h c hmem
      rw [CodePoint.decimal?_of_isSeparator hsep] at hdigit
      cases hdigit
    exact ⟨stripNumeral_eq hplain ▸ h, hplain⟩
  · rintro ⟨h, hplain⟩
    rw [stripNumeral_eq hplain]
    exact h

theorem isDigit_of_isDecimal (h : t.isDecimal = true) : t.all CodePoint.isDigit = true :=
  List.all_eq_true.mpr fun c hc => CodePoint.isDigit_of_decimal? (List.all_eq_true.mp h c hc)

theorem length_decimals (h : t.isDecimal = true) :
    (t.filterMap CodePoint.decimal?).length = t.length := by
  rw [List.filterMap_length_eq_length]
  exact List.all_eq_true.mp h

/-- The digits at the front of a text. -/
def leading (t : Text) : List Nat := (t.takeWhile (·.decimal?.isSome)).filterMap (·.decimal?)

theorem leading_of_isDecimal (h : t.isDecimal = true) :
    t.leading = t.filterMap CodePoint.decimal? := by
  rw [leading, List.takeWhile_eq_self_iff.mpr (List.all_eq_true.mp h)]

theorem length_leading : t.leading.length = t.length ↔ t.isDecimal = true := by
  constructor
  · intro h
    have hle : t.leading.length ≤ (t.takeWhile (·.decimal?.isSome)).length :=
      List.length_filterMap_le ..
    have hall : t.takeWhile (·.decimal?.isSome) = t :=
      (List.takeWhile_prefix _).eq_of_length_le (h ▸ hle)
    exact List.all_eq_true.mpr (List.takeWhile_eq_self_iff.mp hall)
  · intro h
    rw [leading_of_isDecimal h, length_decimals h]

/-- The number that a text shows, whatever blanks stand around it. -/
def number? (t : Text) : Option Nat :=
  if t.strip ≠ [] ∧ t.strip.isDecimal then
    some (Integer.ofDigits (t.strip.filterMap CodePoint.decimal?))
  else none

/-- A text that passes for a number, and cannot be converted: it has signs that are no decimal
digits, or separators around it, or too many digits. -/
structure Misleads (t : Text) : Prop where
  nonempty : t.strip ≠ []
  digits : t.strip.all CodePoint.isDigit = true
  unread : t.strip.isDecimal = false ∨ (∃ c ∈ t, c.isSeparator = true) ∨
    Integer.maxDigits < t.strip.length

theorem isDecimal_of_not_misleads (hnonempty : t.strip ≠ [])
    (hdigits : t.strip.all CodePoint.isDigit = true) (h : ¬t.Misleads) :
    t.strip.isDecimal = true ∧ t.stripNumeral = t.strip ∧ t.strip.length ≤ Integer.maxDigits := by
  refine ⟨?_, stripNumeral_eq fun c hc => ?_, ?_⟩
  · by_contra hdecimal
    exact h ⟨hnonempty, hdigits, .inl (Bool.not_eq_true _ ▸ hdecimal)⟩
  · by_contra hsep
    exact h ⟨hnonempty, hdigits, .inr (.inl ⟨c, hc, Bool.not_eq_false _ ▸ hsep⟩)⟩
  · by_contra hlong
    exact h ⟨hnonempty, hdigits, .inr (.inr (not_le.mp hlong))⟩

end Text

namespace Json

/-- The number that a member shows, as an integer or as a text. -/
def number? : Json → Option Int
  | int i => some i
  | text t => t.number?.map Int.ofNat
  | _ => none

def Misleads : Json → Prop
  | text t => t.Misleads
  | _ => False

end Json

namespace Payload

/-! ## Single numbers -/

theorem toInt_text {t : Text} (h : ¬t.Misleads) :
    toInt (.text t) = .ok (t.number?.map Int.ofNat) := by
  rw [toInt, Text.number?]
  by_cases hshown : t.strip ≠ [] ∧ t.strip.all CodePoint.isDigit
  · obtain ⟨hdecimal, hstrip, hlength⟩ := Text.isDecimal_of_not_misleads hshown.1 hshown.2 h
    have hdigits := Text.leading_of_isDecimal hdecimal
    have hlong := Text.length_decimals hdecimal
    have hnumber : t.strip ≠ [] ∧ t.strip.isDecimal = true := ⟨hshown.1, hdecimal⟩
    rw [if_pos hshown, if_pos hnumber, hstrip]
    dsimp only
    rw [← Text.leading, hdigits, hlong, if_neg (not_lt.mpr hlength), if_pos rfl]
    rfl
  · have hother : ¬(t.strip ≠ [] ∧ t.strip.isDecimal = true) :=
      fun hnumber => hshown ⟨hnumber.1, Text.isDigit_of_isDecimal hnumber.2⟩
    rw [if_neg hshown, if_neg hother]
    rfl

theorem toInt_misleads {t : Text} (h : t.Misleads) : ∃ e, toInt (.text t) = .error e := by
  have hshown : t.strip ≠ [] ∧ t.strip.all CodePoint.isDigit := ⟨h.nonempty, h.digits⟩
  rw [toInt, if_pos hshown]
  dsimp only
  rw [← Text.leading]
  split_ifs with hlong hall
  · exact ⟨_, rfl⟩
  · -- all of it is digits, then nothing of what misleads is there
    exfalso
    have hconverted := Text.length_leading.mp hall
    obtain ⟨hdecimal, hplain⟩ := (Text.isDecimal_stripNumeral t).mp hconverted
    rcases h.unread with hunread | ⟨c, hc, hsep⟩ | hmany
    · rw [hdecimal] at hunread
      cases hunread
    · rw [hplain c hc] at hsep
      cases hsep
    · rw [hall, Text.stripNumeral_eq hplain] at hlong
      exact hlong hmany
  · exact ⟨_, rfl⟩

theorem toInt_number {j : Json} (h : ¬j.Misleads) : toInt j = .ok j.number? := by
  cases j with
  | text t => exact toInt_text h
  | _ => rfl

theorem toInt_ok_iff {j : Json} : (∃ n?, toInt j = .ok n?) ↔ ¬j.Misleads := by
  constructor
  · rintro ⟨n?, hn⟩ hmisleads
    cases j with
    | text t =>
      obtain ⟨e, he⟩ := toInt_misleads hmisleads
      rw [he] at hn
      cases hn
    | _ => exact hmisleads
  · intro h
    exact ⟨_, toInt_number h⟩

/-! ## Numbers of a record -/

/-- The members that a reading takes a number from. `nested` says it of a category. -/
def Reading.numbers (nested : Json → List Json) (reading : Reading) (j : Json) : List Json :=
  match reading with
  | number => [j]
  | category => nested j
  | _ => []

def recordNumbers (nested : Json → List Json) (cls : RecordClass) (members : Members) : List Json :=
  (readings cls).flatMap fun (key, reading) =>
    reading.numbers nested ((Ordered.get? members key).getD .null)

def categoryNumbers : Json → List Json
  | .object members => recordNumbers (fun _ => []) .statusCategory members
  | _ => []

/-- All members of a document that become numbers of a record: its id or the number of its build,
and the id of its category. -/
def numbers (cls : RecordClass) (j : Json) : List Json :=
  if cls = .statusCategory then categoryNumbers j
  else match j with
    | .object members => recordNumbers categoryNumbers cls members
    | _ => []

section

variable {nested : Json → Except Failure Value} {nestedNumbers : Json → List Json}
  {cls : RecordClass} {members : Members}

theorem value_ok_iff (hnested : ∀ j, (∃ v, nested j = .ok v) ↔ ∀ i ∈ nestedNumbers j, ¬i.Misleads)
    (reading : Reading) (member : Option Json) :
    (∃ v, reading.value nested member = .ok v) ↔
      ∀ j ∈ reading.numbers nestedNumbers (member.getD .null), ¬j.Misleads := by
  cases reading with
  | number =>
    rw [Reading.numbers, List.forall_mem_singleton, ← toInt_ok_iff]
    exact Result.exists_map_ok_iff
  | category => exact hnested _
  | orEmpty | text | flag | label =>
    exact ⟨fun _ j hj => absurd hj List.not_mem_nil, fun _ => ⟨_, rfl⟩⟩

theorem record_ok_iff
    (hnested : ∀ j, (∃ v, nested j = .ok v) ↔ ∀ i ∈ nestedNumbers j, ¬i.Misleads) :
    (∃ v, record nested cls members = .ok v) ↔
      ∀ j ∈ recordNumbers nestedNumbers cls members, ¬j.Misleads := by
  rw [record, Result.exists_map_ok_iff, Result.exists_mapM_ok_iff, recordNumbers,
    List.forall_mem_flatMap]
  exact forall₂_congr fun entry _ => value_ok_iff hnested _ _

theorem statusCategory_ok_iff (j : Json) :
    (∃ v, statusCategory j = .ok v) ↔ ∀ i ∈ categoryNumbers j, ¬i.Misleads := by
  have hnone : ∀ v : Value, (∃ v', (.ok v : Except Failure Value) = .ok v') ↔
      ∀ i ∈ ([] : List Json), ¬i.Misleads :=
    fun v => ⟨fun _ i hi => absurd hi List.not_mem_nil, fun _ => ⟨v, rfl⟩⟩
  cases j with
  | object members => exact record_ok_iff fun _ => hnone .null
  | _ => exact hnone .null

theorem build_ok_iff :
    (∃ v, build cls (.object members) = .ok v) ↔
      ∀ j ∈ numbers cls (.object members), ¬j.Misleads := by
  rw [build, numbers]
  split_ifs
  · exact statusCategory_ok_iff _
  · exact record_ok_iff statusCategory_ok_iff

end

theorem numbers_eq_nil {cls : RecordClass} {j : Json} (h : Site.isObject j = false) :
    numbers cls j = [] := by
  cases j with
  | object members => cases h
  | _ => exact ite_self []

theorem records_ok_iff {path : Text} {cls : RecordClass} {items : List Json} :
    (∃ v, Site.records path (build cls) none (.list items) = .ok v) ↔
      ∀ item ∈ items, ∀ j ∈ numbers cls item, ¬j.Misleads := by
  have hrecords : Site.records path (build cls) none (.list items) =
      .list <$> (items.filter Site.isObject).mapM (build cls) := rfl
  rw [hrecords, Result.exists_map_ok_iff, Result.exists_mapM_ok_iff]
  constructor
  · intro h item hitem
    cases hobject : Site.isObject item with
    | false =>
      rw [numbers_eq_nil hobject]
      exact fun j hj => absurd hj List.not_mem_nil
    | true =>
      have hbuilt := h item (List.mem_filter.mpr ⟨hitem, hobject⟩)
      cases item with
      | object members => exact build_ok_iff.mp hbuilt
      | _ => cases hobject
  · intro h item hitem
    obtain ⟨hitem, hobject⟩ := List.mem_filter.mp hitem
    cases item with
    | object members => exact build_ok_iff.mpr (h _ hitem)
    | _ => cases hobject

/-! ## What breaks a catalog -/

/-- A member is the number that it shows unless it misleads, and it is an error only then. A record
cannot be built, nor a list of records, exactly if a member for one of its numbers misleads. -/
theorem numbers_break_iff (j : Json) (cls : RecordClass) (members : Members) (path : Text)
    (items : List Json) :
    ((toInt j = .ok j.number? ↔ ¬j.Misleads) ∧ ((∃ n?, toInt j = .ok n?) ↔ ¬j.Misleads)) ∧
      ((∃ v, build cls (.object members) = .ok v) ↔
        ∀ i ∈ numbers cls (.object members), ¬i.Misleads) ∧
      ((∃ v, Site.records path (build cls) none (.list items) = .ok v) ↔
        ∀ item ∈ items, ∀ i ∈ numbers cls item, ¬i.Misleads) := by
  have hvalue : toInt j = .ok j.number? ↔ ¬j.Misleads :=
    ⟨fun h => toInt_ok_iff.mp ⟨_, h⟩, toInt_number⟩
  exact ⟨⟨hvalue, toInt_ok_iff⟩, build_ok_iff, records_ok_iff⟩

/-- A superscript two as the id of a priority fails the record and the list, though it is a text of
one digit sign. -/
theorem superscript_breaks :
    (∀ n?, toInt (.text "²") ≠ .ok n?) ∧
      (∀ v, build .priority (.object [("id", .text "²")]) ≠ .ok v) ∧
      ∀ v, Site.records "/priority" (build .priority) none
        (.list [.object [("id", .text "²")]]) ≠ .ok v := by
  have hmisleads : (Json.text "²").Misleads := ⟨by decide, by decide, .inl (by decide)⟩
  obtain ⟨⟨-, hnumber⟩, hrecord, hlist⟩ := numbers_break_iff (.text "²") .priority
    [("id", .text "²")] "/priority" [.object [("id", .text "²")]]
  refine ⟨fun n? hn => ?_, fun v hv => ?_, fun v hv => ?_⟩
  · exact hnumber.mp ⟨n?, hn⟩ hmisleads
  · exact hrecord.mp ⟨v, hv⟩ _ List.mem_cons_self hmisleads
  · exact hlist.mp ⟨v, hv⟩ _ List.mem_cons_self _ List.mem_cons_self hmisleads

end Payload

end CatalogCache
