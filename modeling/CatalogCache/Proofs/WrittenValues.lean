import CatalogCache.Codec.Decode
import CatalogCache.Codec.Encode
import CatalogCache.Proofs.PrintedText
import CatalogCache.Proofs.Results
import CatalogCache.Proofs.Schemas

/-!
# Values and back

What the codec writes for records of flat and nested classes, it reads back as the same records,
whatever its settings are. Only an integer that is too long for text stops it from writing.
-/

namespace CatalogCache

/-! ## The texts of a value -/

namespace Value

mutual

def texts : Value → List Text
  | text t => [t]
  | list items | tuple items => itemTexts items
  | record _ fields => itemTexts fields
  | _ => []

def itemTexts : List Value → List Text
  | [] => []
  | item :: rest => item.texts ++ itemTexts rest

end

/-- Some text in the value has a surrogate. -/
def HasSurrogate (v : Value) : Prop := ∃ t ∈ v.texts, ∃ c ∈ t, c.isSurrogate = true

end Value

def surrogateTexts (ts : List Text) : List Text := ts.filter (·.any CodePoint.isSurrogate)

theorem surrogateTexts_append (ts us : List Text) :
    surrogateTexts (ts ++ us) = surrogateTexts ts ++ surrogateTexts us :=
  List.filter_append ..

theorem surrogateTexts_ne_nil_iff (ts : List Text) :
    surrogateTexts ts ≠ [] ↔ ∃ t ∈ ts, ∃ c ∈ t, c.isSurrogate = true := by
  simp [surrogateTexts, List.filter_eq_nil_iff]

/-! ## Entries by name -/

namespace Ordered

variable {α : Type}

theorem find?_of_mem {entries : Ordered α} (h : (entries.map (·.1)).Nodup) {entry : Text × α}
    (hmem : entry ∈ entries) : entries.find? (·.1 = entry.1) = some entry := by
  induction entries with
  | nil => simp at hmem
  | cons first rest ih =>
    rw [List.map_cons, List.nodup_cons] at h
    rcases List.mem_cons.mp hmem with rfl | hmem
    · simp
    · have hne : ¬first.1 = entry.1 := fun e => h.1 (e ▸ List.mem_map_of_mem hmem)
      simpa [hne] using ih h.2 hmem

theorem find?_zip {names : List Text} {values : List α} (hnames : names.Nodup)
    (hlength : names.length = values.length) :
    List.Forall₂ (fun name v => (names.zip values).find? (·.1 = name) = some (name, v)) names
      values := by
  rw [List.forall₂_iff_zip]
  refine ⟨hlength, fun hmem => find?_of_mem ?_ hmem⟩
  rwa [List.map_fst_zip (Nat.le_of_eq hlength)]

theorem get?_zip {names : List Text} {values : List α} (hnames : names.Nodup)
    (hlength : names.length = values.length) :
    List.Forall₂ (fun name v => get? (names.zip values) name = some v) names values :=
  (find?_zip hnames hlength).imp fun name v hfind => by rw [get?, hfind]; rfl

end Ordered

/-! ## Drafts -/

theorem Draft.members_zip (keys : List Text) (drafts : List Draft)
    (h : keys.length = drafts.length) :
    Draft.members (keys.zip drafts) = (Draft.items drafts).map (keys.zip ·) := by
  induction drafts generalizing keys with
  | nil => simp [Draft.items, Draft.members]
  | cons draft drafts ih =>
    cases keys with
    | nil => simp at h
    | cons key keys =>
      rw [List.zip_cons_cons, Draft.members, Draft.items, ih keys (by simpa using h)]
      cases draft with
      | error e => rfl
      | ok j => cases Draft.items drafts <;> rfl

/-! ## What is written for a value -/

section

variable (decode : Shape → Json → Except CodecError Value)

/-- Documents that read as values of shapes, one by one. Null is read only where it is accepted. -/
inductive Reads : List Shape → List Json → List Value → Prop
  | nil : Reads [] [] []
  | cons {shape : Shape} {shapes : List Shape} {j : Json} {js : List Json} {v : Value}
    {vs : List Value} (back : decode shape j = .ok v)
    (null : j = .null → shape.acceptsNull = true) (rest : Reads shapes js vs) :
    Reads (shape :: shapes) (j :: js) (v :: vs)

/-- What writing a value of a shape comes to, with containers nested at most `depth` deep. -/
inductive Written (depth : Nat) (shape : Shape) (v : Value) : Prop
  | tooLong (draft : v.outline depth = .ok (.error .longInteger)) (long : v.hasLongInteger = true)
  | document (j : Json) (draft : v.outline depth = .ok (.ok j)) (short : v.hasLongInteger = false)
    (fits : j.Fits depth) (back : decode shape j = .ok v)
    (null : j = .null → shape.acceptsNull = true)
    (texts : surrogateTexts j.texts = surrogateTexts v.texts)

inductive ItemsWritten (depth : Nat) (shapes : List Shape) (vs : List Value)
    (drafts : List Draft) : Prop
  | tooLong (items : Draft.items drafts = .error .longInteger)
    (long : Value.anyLongInteger vs = true)
  | documents (js : List Json) (items : Draft.items drafts = .ok js)
    (short : Value.anyLongInteger vs = false) (fits : Json.ItemsFit depth js)
    (reads : Reads decode shapes js vs)
    (texts : surrogateTexts (Json.itemTexts js) = surrogateTexts (Value.itemTexts vs))

variable {decode}

theorem Written.congr {decode' : Shape → Json → Except CodecError Value} {depth : Nat}
    {shape : Shape} {v : Value} (h : Written decode depth shape v)
    (hdecode : ∀ j, decode shape j = decode' shape j) : Written decode' depth shape v := by
  cases h with
  | tooLong draft long => exact .tooLong draft long
  | document j draft short fits back null texts =>
    exact .document j draft short fits (hdecode j ▸ back) null texts

theorem Reads.length_eq {shapes : List Shape} {js : List Json} {vs : List Value}
    (h : Reads decode shapes js vs) : shapes.length = js.length := by
  induction h with
  | nil => rfl
  | cons _ _ _ ih => rw [List.length_cons, List.length_cons, ih]

theorem itemsWritten {depth : Nat} {shapes : List Shape} {vs : List Value}
    (h : List.Forall₂ (Written decode depth) shapes vs) :
    ∃ drafts, Value.outlineItems depth vs = .ok drafts ∧ drafts.length = vs.length ∧
      ItemsWritten decode depth shapes vs drafts := by
  induction h with
  | nil => exact ⟨[], rfl, rfl, .documents [] rfl rfl trivial .nil rfl⟩
  | @cons shape v shapes vs hv _ ih =>
    obtain ⟨drafts, houtline, hlength, ih⟩ := ih
    cases hv with
    | tooLong draft long =>
      refine ⟨.error .longInteger :: drafts, ?_, by simp [hlength], .tooLong rfl ?_⟩
      · simp [Value.outlineItems, draft, houtline]
      · simp [Value.anyLongInteger, long]
    | document j draft short fits back null texts =>
      refine ⟨.ok j :: drafts, ?_, by simp [hlength], ?_⟩
      · simp [Value.outlineItems, draft, houtline]
      · cases ih with
        | tooLong items long =>
          refine .tooLong ?_ (by simp [Value.anyLongInteger, long])
          simp [Draft.items, items]
        | documents js items shorts allFit reads allTexts =>
          refine .documents (j :: js) ?_ ?_ ⟨fits, allFit⟩ (.cons back null reads) ?_
          · simp [Draft.items, items]
          · simp [Value.anyLongInteger, short, shorts]
          · rw [Json.itemTexts, Value.itemTexts, surrogateTexts_append, surrogateTexts_append,
              texts, allTexts]

/-! ## Lists -/

theorem Reads.mapM {shape : Shape} {js : List Json} {vs : List Value}
    (h : Reads decode (List.replicate vs.length shape) js vs) :
    js.mapM (decode shape) = .ok vs := by
  rw [Result.mapM_eq_ok_iff]
  generalize hshapes : List.replicate vs.length shape = shapes at h
  induction h with
  | nil => exact .nil
  | cons back _ _ ih =>
    rw [List.length_cons, List.replicate_succ, List.cons.injEq] at hshapes
    obtain ⟨rfl, hshapes⟩ := hshapes
    exact .cons back (ih hshapes)

theorem written_list {record : RecordClass → Json → Except CodecError Value} {depth : Nat}
    (shape : Shape) {vs : List Value}
    (h : ∀ v ∈ vs, Written (Shape.decodeWith record) depth shape v) :
    Written (Shape.decodeWith record) (depth + 1) (.list shape) (.list vs) := by
  have hall : List.Forall₂ (Written (Shape.decodeWith record) depth)
      (List.replicate vs.length shape) vs := by
    induction vs with
    | nil => exact .nil
    | cons v vs ih =>
      rw [List.forall_mem_cons] at h
      exact .cons h.1 (ih h.2)
  obtain ⟨drafts, houtline, -, hitems⟩ := itemsWritten hall
  have hlist : (Value.list vs).outline (depth + 1) = .ok ((Draft.items drafts).map .list) := by
    simp [Value.outline, houtline]
  cases hitems with
  | tooLong items long => exact .tooLong (by rw [hlist, items]; rfl) long
  | documents js items short fits reads texts =>
    refine .document (.list js) (by rw [hlist, items]; rfl) short ⟨Nat.succ_pos _, fits⟩ ?_
      (by simp) texts
    rw [Shape.decodeWith, reads.mapM]
    rfl

/-! ## Records -/

/-- Keys that name properties well: each is read, none is there twice, none has a surrogate. -/
structure RecordClass.Keyed (cls : RecordClass) : Prop where
  nodup : (cls.properties.map (·.key)).Nodup
  isRead : ∀ p ∈ cls.properties, p.isRead = true
  plain : surrogateTexts (cls.properties.map (·.key)) = []

theorem fits_zip {depth : Nat} {keys : List Text} {js : List Json} (h : Json.ItemsFit depth js) :
    Json.MembersFit depth (keys.zip js) := by
  induction keys generalizing js with
  | nil => trivial
  | cons key keys ih =>
    cases js with
    | nil => trivial
    | cons j js => exact ⟨h.1, ih h.2⟩

theorem texts_zip {keys : List Text} {js : List Json} (hplain : surrogateTexts keys = [])
    (hlength : keys.length = js.length) :
    surrogateTexts (Json.memberTexts (keys.zip js)) = surrogateTexts (Json.itemTexts js) := by
  induction keys generalizing js with
  | nil => rw [List.length_eq_zero_iff.mp hlength.symm]; rfl
  | cons key keys ih =>
    cases js with
    | nil => simp at hlength
    | cons j js =>
      have hkeys : surrogateTexts [key] = [] ∧ surrogateTexts keys = [] := by
        rw [← List.append_eq_nil_iff, ← surrogateTexts_append]
        exact hplain
      rw [List.zip_cons_cons, Json.memberTexts, Json.itemTexts, ← List.singleton_append,
        surrogateTexts_append, surrogateTexts_append, surrogateTexts_append, hkeys.1,
        ih hkeys.2 (by simpa using hlength)]
      rfl

theorem decodeProperties (codec : Codec) (cls : RecordClass) {members : Members}
    {properties : List Property} {js : List Json} {vs : List Value}
    (hread : ∀ p ∈ properties, p.isRead = true)
    (hmembers : List.Forall₂ (fun key j => Ordered.get? members key = some j)
      (properties.map (·.key)) js)
    (h : Reads decode (properties.map (·.shape)) js vs) :
    properties.mapM (codec.decodeProperty decode cls members) = .ok (vs.map some) := by
  rw [Result.mapM_eq_ok_iff]
  induction properties generalizing js vs with
  | nil =>
    cases h
    exact .nil
  | cons p properties ih =>
    rw [List.forall_mem_cons] at hread
    rw [List.map_cons] at hmembers h
    cases h with
    | @cons _ _ j js v vs back null rest =>
      rw [List.forall₂_cons] at hmembers
      refine .cons ?_ (ih hread.2 hmembers.2 rest)
      rw [Codec.decodeProperty, if_neg (by simp [hread.1]), hmembers.1]
      cases j with
      | null => simp [null rfl, back]
      | _ => simp [back]

theorem decodeRecord_of_reads (codec : Codec) {cls : RecordClass} {js : List Json}
    {vs : List Value} (hcls : cls.Keyed)
    (h : Reads decode (cls.properties.map (·.shape)) js vs) :
    codec.decodeRecord decode cls (.object ((cls.properties.map (·.key)).zip js)) =
      .ok (.record cls vs) := by
  have hlength : (cls.properties.map (·.key)).length = js.length := by
    simpa using h.length_eq
  have hfields := decodeProperties codec cls hcls.isRead
    (Ordered.get?_zip hcls.nodup hlength) h
  have hunknown : Codec.unknownKeys cls ((cls.properties.map (·.key)).zip js) = [] := by
    have hall : cls.properties.filter (·.isRead) = cls.properties :=
      List.filter_eq_self.mpr hcls.isRead
    have hnone : (cls.properties.map (·.key)).filter
        (!(cls.properties.map (·.key)).contains ·) = [] := by
      rw [List.filter_eq_nil_iff]
      intro key hkey
      rw [List.contains_iff_mem.mpr hkey]
      simp
    simp only [Codec.unknownKeys, hall, List.map_fst_zip (Nat.le_of_eq hlength), hnone,
      List.mergeSort_nil]
  have hmissing : ∀ ps : List Property,
      (ps.zip (vs.map some)).filter (·.2.isNone) = [] := by
    intro ps
    rw [List.filter_eq_nil_iff]
    intro entry hentry
    obtain ⟨v, -, hv⟩ := List.mem_map.mp (List.of_mem_zip hentry).2
    simp [← hv]
  simp only [Codec.decodeRecord, hfields, Result.bind_ok, hunknown, hmissing]
  simp

theorem written_record (codec : Codec) {depth : Nat} {cls : RecordClass} {vs : List Value}
    (hcls : cls.Keyed)
    (h : List.Forall₂ (Written decode depth) (cls.properties.map (·.shape)) vs) {shape : Shape} :
    Written (fun _ j => codec.decodeRecord decode cls j) (depth + 1) shape (.record cls vs) := by
  obtain ⟨drafts, houtline, hlength, hitems⟩ := itemsWritten h
  have hkeys : (cls.properties.map (·.key)).length = drafts.length := by
    rw [hlength, ← h.length_eq, List.length_map, List.length_map]
  have hrecord : (Value.record cls vs).outline (depth + 1) =
      .ok ((Draft.items drafts).map fun js => .object ((cls.properties.map (·.key)).zip js)) := by
    simp only [Value.outline, Nat.add_sub_cancel, houtline, Result.bind_ok,
      Draft.members_zip _ _ hkeys]
    cases Draft.items drafts <;> rfl
  cases hitems with
  | tooLong items long => exact .tooLong (by rw [hrecord, items]; rfl) long
  | documents js items short fits reads texts =>
    have hjs : (cls.properties.map (·.key)).length = js.length := by
      simpa using reads.length_eq
    refine .document (.object ((cls.properties.map (·.key)).zip js))
      (by rw [hrecord, items]; rfl) short ⟨Nat.succ_pos _, ?_, fits_zip fits⟩
      (decodeRecord_of_reads codec hcls reads) (by simp) ?_
    · rw [List.map_fst_zip (Nat.le_of_eq hjs)]
      exact hcls.nodup
    · exact (texts_zip hcls.plain hjs).trans texts

end

/-! ## Leaves -/

namespace Shape

def isLeaf : Shape → Bool
  | bool | int | text => true
  | _ => false

def isFlat : Shape → Bool
  | optional shape => shape.isLeaf
  | shape => shape.isLeaf

end Shape

section

variable {record : RecordClass → Json → Except CodecError Value} {depth : Nat}

theorem written_int {shape : Shape} (hshape : shape.isLeaf = true) {i : Int}
    (h : Inhabits (.int i) shape) : Written (Shape.decodeWith record) depth shape (.int i) := by
  cases h with
  | int =>
    cases hi : Integer.text? i with
    | none => exact .tooLong (by simp [Value.outline, hi]) (by simp [Value.hasLongInteger, hi])
    | some t =>
      exact .document (.int i) (by simp [Value.outline, hi]) (by simp [Value.hasLongInteger, hi])
        (by simp [Json.Fits, hi]) rfl (by simp) rfl
  | _ => simp [Shape.isLeaf] at hshape

theorem written_leaf {shape : Shape} (hshape : shape.isLeaf = true) {v : Value}
    (h : Inhabits v shape) : Written (Shape.decodeWith record) depth shape v := by
  cases h with
  | bool b => exact .document (.bool b) rfl rfl trivial rfl (by simp) rfl
  | int i => exact written_int rfl (.int i)
  | text t => exact .document (.text t) rfl rfl trivial rfl (by simp) rfl
  | _ => simp [Shape.isLeaf] at hshape

theorem written_null (shape : Shape) :
    Written (Shape.decodeWith record) depth (.optional shape) .null :=
  .document .null rfl rfl trivial rfl (fun _ => rfl) rfl

theorem written_optional {shape : Shape} (hshape : shape.acceptsNull = false) {v : Value}
    (h : Written (Shape.decodeWith record) depth shape v) :
    Written (Shape.decodeWith record) depth (.optional shape) v := by
  cases h with
  | tooLong draft long => exact .tooLong draft long
  | document j draft short fits back null texts =>
    refine .document j draft short fits ?_ (fun _ => rfl) texts
    cases j with
    | null => simp [null rfl] at hshape
    | _ => exact back

theorem written_flat {shape : Shape} (hshape : shape.isFlat = true) {v : Value}
    (h : Inhabits v shape) : Written (Shape.decodeWith record) depth shape v := by
  unfold Shape.isFlat at hshape
  split at hshape
  · next shape =>
    cases h with
    | null => exact written_null shape
    | optional h =>
      have hnull : shape.acceptsNull = false := by
        cases shape <;> simp_all [Shape.isLeaf, Shape.acceptsNull]
      exact written_optional hnull (written_leaf hshape h)
  · exact written_leaf hshape h

end

/-! ## Stored classes -/

namespace RecordClass

/-- The classes of stored records, and of the records inside them. -/
def isStored : RecordClass → Bool
  | storedIssueType | storedStatusCategory | storedStatus | storedPriority | storedResolution =>
    true
  | _ => false

theorem inhabits_default (cls : RecordClass) :
    ∀ p ∈ cls.properties, ∀ v, p.default? = some v → Inhabits v p.shape := by
  cases cls <;>
    simp [properties, Property.required, Property.optional, Property.keyed, Property.nullable,
      Inhabits.null, Inhabits.bool, Inhabits.int, Inhabits.real, Inhabits.text, Inhabits.list,
      Inhabits.choice, Inhabits.anything, Inhabits.nothing, Inhabits.anyList]

theorem keyed_of_isStored {cls : RecordClass} (h : cls.isStored = true) : cls.Keyed := by
  cases cls <;> simp only [isStored, Bool.false_eq_true] at h
  all_goals exact ⟨nodup_keys _, by simp [properties, Property.optional, Property.keyed,
    Property.nullable], rfl⟩

end RecordClass

theorem Inhabits.fields {cls : RecordClass} {v : Value} (h : Inhabits v (.record cls)) :
    ∃ fields, v = .record cls fields ∧
      List.Forall₂ (fun shape field => Inhabits field shape) (cls.properties.map (·.shape))
        fields := by
  cases h with
  | @record _ fields size h =>
    refine ⟨fields, rfl, ?_⟩
    rw [List.forall₂_map_left_iff, List.forall₂_iff_zip]
    refine ⟨size.symm, fun {p field} hmem => ?_⟩
    by_cases hdefault : p.default? = some field
    · exact cls.inhabits_default p (List.of_mem_zip hmem).1 field hdefault
    · exact h (p, field) hmem hdefault

theorem written_flatRecord (codec : Codec) {record : RecordClass → Json → Except CodecError Value}
    {cls : RecordClass} (hcls : cls.Keyed) (hflat : ∀ p ∈ cls.properties, p.shape.isFlat = true)
    {v : Value} (h : Inhabits v (.record cls)) (depth : Nat) (shape : Shape) :
    Written (fun _ => codec.decodeRecord (Shape.decodeWith record) cls) (depth + 1) shape v := by
  obtain ⟨fields, rfl, hfields⟩ := h.fields
  apply written_record codec hcls
  rw [List.forall₂_map_left_iff, List.forall₂_iff_zip] at hfields ⊢
  exact ⟨hfields.1, fun hmem =>
    written_flat (hflat _ (List.of_mem_zip hmem).1) (hfields.2 hmem)⟩

theorem flat_of_rank {cls : RecordClass} (h : cls.isStored = true) (hrank : cls.rank = 0) :
    ∀ p ∈ cls.properties, p.shape.isFlat = true := by
  have hne : cls ≠ .storedStatus := by
    rintro rfl
    exact absurd hrank (by decide)
  cases cls <;> simp only [RecordClass.isStored, Bool.false_eq_true] at h
  all_goals first
    | exact absurd rfl hne
    | simp [RecordClass.properties, Property.optional, Property.keyed, Property.nullable,
        Shape.isFlat, Shape.isLeaf]

theorem shape_storedStatus : ∀ p ∈ RecordClass.storedStatus.properties,
    p.shape.isFlat = true ∨ p.shape = .optional (.record .storedStatusCategory) := by
  simp [RecordClass.properties, Property.optional, Property.keyed, Property.nullable,
    Shape.isFlat, Shape.isLeaf]

/-- **Records.** What is written for a stored record reads back as the record. -/
theorem written_stored (codec : Codec) {cls : RecordClass} (hcls : cls.isStored = true)
    {v : Value} (h : Inhabits v (.record cls)) (depth : Nat) :
    Written codec.decodeShape (depth + 2) (.record cls) v := by
  have hkeyed := RecordClass.keyed_of_isStored hcls
  have hclass : ∀ {shape : Shape}, Written (fun _ => codec.decodeClass cls.rank cls) (depth + 2)
      shape v := by
    intro shape
    cases hrank : cls.rank with
    | zero => exact written_flatRecord codec hkeyed (flat_of_rank hcls hrank) h (depth + 1) shape
    | succ rank =>
      obtain ⟨rfl, rfl⟩ : cls = .storedStatus ∧ rank = 0 := by
        cases cls <;> simp_all [RecordClass.isStored, RecordClass.rank]
      obtain ⟨fields, rfl, hfields⟩ := h.fields
      apply written_record codec hkeyed
      rw [List.forall₂_map_left_iff, List.forall₂_iff_zip] at hfields ⊢
      refine ⟨hfields.1, fun {p field} hmem => ?_⟩
      have hfield := hfields.2 hmem
      rcases shape_storedStatus p (List.of_mem_zip hmem).1 with hflat | hcategory
      · exact written_flat hflat hfield
      rw [hcategory] at hfield ⊢
      cases hfield with
      | null => exact written_null _
      | optional hfield =>
        apply written_optional rfl
        exact (written_flatRecord codec (RecordClass.keyed_of_isStored rfl)
          (flat_of_rank rfl rfl) hfield depth (.record .storedStatusCategory)).congr fun _ => rfl
  exact hclass.congr fun _ => rfl

theorem Codec.encode_of_document {codec : Codec} {v : Value} {j : Json}
    (hdraft : v.outline Value.maxNesting = .ok (.ok j)) (hindent : codec.canIndent = true) :
    codec.encode v = .ok (Json.print (.ofIndent codec.indent) j ++ [Text.lineFeed]) := by
  simp only [encode, hdraft, hindent, Bool.true_or, if_true]

theorem Codec.encode_of_refusal {codec : Codec} {v : Value} {reason : Unwritable}
    (hdraft : v.outline Value.maxNesting = .ok (.error reason)) (hindent : codec.canIndent = true) :
    codec.encode v = .error (.codec (.unwritable v.typeName reason)) := by
  simp only [encode, hdraft, hindent, Bool.true_or, if_true]

theorem Codec.canIndent_tolerant : Codec.tolerant.canIndent = true := rfl

theorem Codec.canIndent_of_indent {codec : Codec} {v : Value}
    (h : codec.encode v = .error .indent) : codec.canIndent = false := by
  unfold encode at h
  split at h
  · cases h
  · cases h
  · next draft _ =>
    split_ifs at h with hindent
    · cases draft <;> cases h
    · rw [Bool.not_eq_true, Bool.or_eq_false_iff] at hindent
      exact hindent.1

theorem Codec.canIndent_of_encode {codec : Codec} {v : Value} {t : Text}
    (h : codec.encode v = .ok t) (hv : v.isText = false) : codec.canIndent = true := by
  by_contra hindent
  unfold encode at h
  split at h
  · cases h
  · cases h
  · rw [Bool.not_eq_true] at hindent
    rw [hindent, hv, Bool.or_false, if_neg Bool.false_ne_true] at h
    cases h

/-- Lists of stored records have a text, unless an integer is too long. The text reads back as the
list, and it has surrogates only where the list has them. -/
theorem encode_stored {codec : Codec} (hindent : codec.canIndent = true) {cls : RecordClass}
    (hcls : cls.isStored = true) {vs : List Value} (h : ∀ v ∈ vs, Inhabits v (.record cls)) :
    (codec.encode (.list vs) = .error (.codec (.unwritable "list" .longInteger)) ∧
      (Value.list vs).hasLongInteger = true) ∨
    ∃ t, codec.encode (.list vs) = .ok t ∧ (Value.list vs).hasLongInteger = false ∧
      t.unifyLines = t ∧
      (∀ other : Codec, other.decode t (.list (.record cls)) = .ok (.list vs)) ∧
      ((∀ c ∈ t, c.isSurrogate = false) ↔ ¬(Value.list vs).HasSurrogate) := by
  have hlist := fun other : Codec => written_list (.record cls) fun v hv =>
    written_stored other hcls (h v hv) (Value.maxNesting - 3)
  cases hlist codec with
  | tooLong draft long =>
    replace draft : (Value.list vs).outline Value.maxNesting = .ok (.error .longInteger) := draft
    exact .inl ⟨Codec.encode_of_refusal draft hindent, long⟩
  | document j draft short fits back null texts =>
    replace draft : (Value.list vs).outline Value.maxNesting = .ok (.ok j) := draft
    have hdecode : ∀ other : Codec,
        other.decodeShape (.list (.record cls)) j = .ok (.list vs) := by
      intro other
      cases hlist other with
      | tooLong draft' => exact absurd (draft.symm.trans draft') (by simp)
      | document j' draft' _ _ back' =>
        have hj := draft.symm.trans draft'
        simp only [Except.ok.injEq] at hj
        rwa [hj]
    refine .inr ⟨_, Codec.encode_of_document draft hindent, short, Json.unifyLines_print fits,
      fun other => ?_, ?_⟩
    · have hread := Json.read_print (.ofIndent codec.indent) (fits.mono Value.maxNesting_le)
      simp [Codec.decode, hread, hdecode other]
    · have hsome : (Value.list vs).HasSurrogate ↔ ∃ t ∈ j.texts, ∃ c ∈ t, c.isSurrogate = true := by
        rw [Value.HasSurrogate, ← surrogateTexts_ne_nil_iff, ← texts, surrogateTexts_ne_nil_iff]
      rw [hsome]
      constructor
      · rintro hplain ⟨t, ht, c, hc, hsurrogate⟩
        have hc' := hplain c ((Json.surrogate_mem_print_iff fits hsurrogate).mpr ⟨t, ht, hc⟩)
        simp [hc'] at hsurrogate
      · intro hnone c hmem
        by_contra hsurrogate
        rw [Bool.not_eq_false] at hsurrogate
        obtain ⟨t, ht, hc⟩ := (Json.surrogate_mem_print_iff fits hsurrogate).mp hmem
        exact hnone ⟨t, ht, c, hc, hsurrogate⟩

end CatalogCache
