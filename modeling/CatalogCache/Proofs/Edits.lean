import CatalogCache.Proofs.Schemas
import CatalogCache.Proofs.WrittenValues

/-!
# What the tolerant codec does not see

The order of members, members that no property reads, and members that are null: an object may be
edited in any of these and still reads the same, if its class has null as its default wherever it
accepts null. The stored classes have.

Edits are made to documents and not to texts: of a name that a text repeats, only the last member is
in the document.
-/

namespace CatalogCache

variable {C : Type}

namespace Ordered

variable {α : Type} {entries entries' : Ordered α} {name other : Text} {value value' : α}

theorem get?_eq_some_iff (h : (entries.map (·.1)).Nodup) :
    entries.get? name = some value ↔ (name, value) ∈ entries := by
  constructor
  · exact mem_of_get?
  · intro hmem
    unfold get?
    rw [find?_of_mem h hmem]
    rfl

theorem get?_perm (h : (entries.map (·.1)).Nodup) (hperm : entries.Perm entries') (name : Text) :
    entries.get? name = entries'.get? name := by
  have h' : (entries'.map (·.1)).Nodup := (hperm.map _).nodup_iff.mp h
  apply Option.ext
  intro value
  rw [get?_eq_some_iff h, get?_eq_some_iff h']
  exact hperm.mem_iff

theorem get?_cons_of_ne (h : name ≠ other) : get? ((name, value) :: entries) other =
    entries.get? other := by
  simp [get?, h]

theorem get?_replace (h : name ≠ other) :
    get? (entries ++ (name, value) :: entries') other =
      get? (entries ++ (name, value') :: entries') other := by
  simp [get?, List.find?_append, h]

end Ordered

/-! ## Edits -/

/-- A document before and after one edit, in an object that is read as a record of one of the
classes where the whole document is read in the shape. What is added stands in front, and may then
be moved. -/
inductive Schema.Edited (S : Schema C) (classes : C → Prop) : ShapeOf C → Json → Json → Prop
  | permuted {cls : C} {members members' : Members} (hcls : classes cls)
    (h : members.Perm members') :
    S.Edited classes (.record cls) (.object members) (.object members')
  | unknown {cls : C} {members : Members} {key : Text} (j : Json) (hcls : classes cls)
    (hkey : S.knows cls key = false) :
    S.Edited classes (.record cls) (.object members) (.object ((key, j) :: members))
  | null {cls : C} {members : Members} {key : Text} (hcls : classes cls)
    (hkey : S.knows cls key = true) (habsent : key ∉ members.map (·.1)) :
    S.Edited classes (.record cls) (.object members) (.object ((key, .null) :: members))
  | item {shape : ShapeOf C} {before after : List Json} {j j' : Json}
    (h : S.Edited classes shape j j') :
    S.Edited classes (.list shape) (.list (before ++ j :: after)) (.list (before ++ j' :: after))
  | optional {shape : ShapeOf C} {j j' : Json} (h : S.Edited classes shape j j') :
    S.Edited classes (.optional shape) j j'
  | field {cls : C} {before after : Members} {p : PropertyOf C} {j j' : Json} (hp : p ∈ S cls)
    (hread : p.isRead = true) (h : S.Edited classes p.shape j j') :
    S.Edited classes (.record cls) (.object (before ++ (p.key, j) :: after))
      (.object (before ++ (p.key, j') :: after))

/-- Each key has one property, and properties of these classes that may be null are null where they
are not given. -/
structure Schema.Forgives (S : Schema C) (classes : C → Prop) : Prop where
  keys : ∀ cls, ((S cls).map (·.key)).Nodup
  null : ∀ cls, classes cls → ∀ p ∈ S cls, p.shape.acceptsNull = true →
    p.default? = some (.plain .null)

namespace Schema

variable {S : Schema C} {classes : C → Prop} {codec : Codec} {cls : C} {members members' : Members}

theorem Edited.ne_null {shape : ShapeOf C} {j j' : Json} (h : S.Edited classes shape j j') :
    j ≠ .null ∧ j' ≠ .null := by
  induction h with
  | optional _ ih => exact ih
  | _ => constructor <;> exact nofun

theorem valueOf?_null {shape : ShapeOf C} (h : shape.acceptsNull = true) :
    S.valueOf? codec shape .null = some (.plain .null) := by
  cases shape with
  | anything | nothing | choice => exact S.valueOf?_of_plain? rfl
  | optional shape => rw [valueOf?]
  | _ => cases h

theorem given?_of_mem {p : PropertyOf C} {j : Json} (names : (members.map (·.1)).Nodup)
    (h : (p.key, j) ∈ members) (hj : j ≠ .null) : p.given? members = some j :=
  PropertyOf.given?_of_get? ((Ordered.get?_eq_some_iff names).mpr h) hj

theorem field?_congr {p : PropertyOf C}
    (h : Ordered.get? members p.key = Ordered.get? members' p.key) :
    S.field? codec members p = S.field? codec members' p := by
  unfold field? PropertyOf.given?
  rw [h]

/-- Objects that give their properties the same values read the same, if members that no property
reads are skipped. -/
theorem valueOf?_congr (hcodec : codec.ignoreUnknown = true)
    (h : ∀ p ∈ S cls, S.field? codec members p = S.field? codec members' p) :
    S.valueOf? codec (.record cls) (.object members) =
      S.valueOf? codec (.record cls) (.object members') := by
  rw [valueOf?_record, valueOf?_record, hcodec, Bool.true_or, Bool.true_or, mapM_congr h]

theorem field?_null {p : PropertyOf C} (hcodec : codec.allowMissing = true)
    (hdefault : p.shape.acceptsNull = true → p.default? = some (.plain .null))
    (habsent : p.key ∉ members.map (·.1)) :
    S.field? codec members p = S.field? codec ((p.key, .null) :: members) p := by
  have hnone : p.given? members = none := by
    unfold PropertyOf.given?
    rw [Ordered.get?_of_not_mem habsent]
  have hnull : p.given? ((p.key, .null) :: members) =
      if p.shape.acceptsNull then some .null else none := by
    simp [PropertyOf.given?, Ordered.get?]
  unfold field?
  rw [hnone, hnull]
  by_cases haccepts : p.shape.acceptsNull = true
  · simp [haccepts, hcodec, hdefault haccepts, valueOf?_null haccepts]
  · simp [haccepts]

theorem valueOf?_edited (hS : S.Forgives classes) {shape : ShapeOf C} {j j' : Json}
    (h : S.Edited classes shape j j') (hj : j.IsDistinct) (hj' : j'.IsDistinct) :
    S.valueOf? Codec.tolerant shape j = S.valueOf? Codec.tolerant shape j' := by
  induction h with
  | @permuted cls members members' hcls h =>
    cases hj with
    | object names _ =>
      apply valueOf?_congr rfl
      intro p hp
      exact field?_congr (Ordered.get?_perm names h p.key)
  | @unknown cls members key j hcls hkey =>
    apply valueOf?_congr rfl
    intro p hp
    by_cases hread : p.isRead = true
    · apply field?_congr
      have hne : key ≠ p.key := by
        rintro rfl
        rw [knows_iff.mpr ⟨p, hp, hread, rfl⟩] at hkey
        cases hkey
      rw [Ordered.get?_cons_of_ne hne]
    · simp [field?, hread]
  | @null cls members key hcls hkey habsent =>
    apply valueOf?_congr rfl
    intro p hp
    by_cases hsame : key = p.key
    · subst hsame
      exact field?_null rfl (hS.null cls hcls p hp) habsent
    · apply field?_congr
      rw [Ordered.get?_cons_of_ne hsame]
  | @item shape before after j j' h ih =>
    cases hj with
    | list hitems =>
      cases hj' with
      | list hitems' =>
        have hvalue := ih (hitems j (by simp)) (hitems' j' (by simp))
        rw [valueOf?, valueOf?]
        simp only [List.mapM_append, List.mapM_cons, hvalue]
  | @optional shape j j' h ih =>
    rw [valueOf?, valueOf?]
    · exact ih hj hj'
    · exact h.ne_null.2
    · exact h.ne_null.1
  | @field cls before after p j j' hp hread h ih =>
    cases hj with
    | object names hvalues =>
      cases hj' with
      | object names' hvalues' =>
        have hvalue := ih (hvalues (p.key, j) (by simp)) (hvalues' (p.key, j') (by simp))
        apply valueOf?_congr rfl
        intro q hq
        by_cases hsame : q.key = p.key
        · obtain rfl := List.inj_on_of_nodup_map (hS.keys cls) hq hp hsame
          have hgiven := given?_of_mem names (List.mem_append_right _ List.mem_cons_self)
            h.ne_null.1
          have hgiven' := given?_of_mem names' (List.mem_append_right _ List.mem_cons_self)
            h.ne_null.2
          rw [field?_given hread hgiven, field?_given hread hgiven', hvalue]
        · exact field?_congr (Ordered.get?_replace (Ne.symm hsame))

end Schema

/-! ## Stored records -/

theorem RecordClass.default_of_acceptsNull {cls : RecordClass} (hcls : cls.isStored = true) :
    ∀ p ∈ cls.properties, p.shape.acceptsNull = true → p.default? = some .null := by
  cases cls <;> simp only [isStored, Bool.false_eq_true] at hcls <;>
    simp [properties, Property.optional, Property.keyed, Property.nullable, Shape.acceptsNull]

theorem Schema.forgives_stored : Schema.records.Forgives (·.isStored = true) := by
  constructor
  · exact Schema.nodup_records
  · intro cls hcls p hp hnull
    obtain ⟨q, hq, rfl⟩ := List.mem_pmap.mp hp
    have hdefault := RecordClass.default_of_acceptsNull hcls q hq (q.shape.acceptsNull_lift ▸ hnull)
    exact congrArg (Option.map ValueOf.plain) hdefault

/-- One edit of a document, in an object that is read as a stored record. -/
def Document.Edited (shape : Shape) (d d' : Document) : Prop :=
  Schema.records.Edited (·.isStored = true) shape.lift d.json d'.json

theorem Document.valueOf?_edits {shape : Shape} {d d' : Document}
    (h : Relation.EqvGen (Document.Edited shape) d d') :
    Schema.records.valueOf? Codec.tolerant shape.lift d.json =
      Schema.records.valueOf? Codec.tolerant shape.lift d'.json := by
  induction h with
  | rel d d' h => exact Schema.valueOf?_edited Schema.forgives_stored h d.distinct d'.distinct
  | refl d => rfl
  | symm d d' _ ih => exact ih.symm
  | trans d d' d'' _ _ ih ih' => exact ih.trans ih'

theorem Codec.decode_of_read {codec : Codec} {t : Text} {j : Json} (h : Json.read t = .ok j)
    (shape : Shape) : codec.decode t shape = (codec.decodeShape shape j).mapError .codec := by
  unfold decode
  rw [h]

/-- **Edits.** Two documents that differ by edits of stored records are read as the same value, or
both are refused by the codec. -/
theorem edited_decode {shape : Shape} {t t' : Text} {j j' : Json} (h : Json.read t = .ok j)
    (h' : Json.read t' = .ok j')
    (hedits : Relation.EqvGen (Document.Edited shape) (Document.ofRead h) (Document.ofRead h')) :
    (∃ v, Codec.tolerant.decode t shape = .ok v ∧ Codec.tolerant.decode t' shape = .ok v) ∨
      ∃ e e', Codec.tolerant.decode t shape = .error (.codec e) ∧
        Codec.tolerant.decode t' shape = .error (.codec e') := by
  have hsame : (Codec.tolerant.decodeShape shape j).toOption =
      (Codec.tolerant.decodeShape shape j').toOption := by
    rw [Codec.reads_decodeShape, Codec.reads_decodeShape]
    exact congrArg _ (Document.valueOf?_edits hedits)
  rw [Codec.decode_of_read h, Codec.decode_of_read h']
  cases hdecode : Codec.tolerant.decodeShape shape j with
  | error e =>
    cases hdecode' : Codec.tolerant.decodeShape shape j' with
    | error e' => exact .inr ⟨e, e', rfl, rfl⟩
    | ok v' => simp [hdecode, hdecode', Except.toOption] at hsame
  | ok v =>
    cases hdecode' : Codec.tolerant.decodeShape shape j' with
    | error e' => simp [hdecode, hdecode', Except.toOption] at hsame
    | ok v' =>
      obtain rfl : v = v' := by simpa [hdecode, hdecode', Except.toOption] using hsame
      exact .inl ⟨v, rfl, rfl⟩

def sampleShort : Text :=
  "[\x7b\"name\": \"Open\", \"statusCategory\": \x7b\"key\": \"new\"\x7d\x7d]"

/-- The same with null inside the category. -/
def sampleLonger : Text := List.flatten
  ["[\x7b\"name\": \"Open\", ",
    "\"statusCategory\": \x7b\"id\": null, \"key\": \"new\"\x7d\x7d]"]

/-- The same in another order. -/
def sampleMoved : Text := List.flatten
  ["[\x7b\"statusCategory\": \x7b\"id\": null, \"key\": \"new\"\x7d, ",
    "\"name\": \"Open\"\x7d]"]

/-- The same with a member that is not read. -/
def sampleHidden : Text := List.flatten
  ["[\x7b\"hidden\": [1], ", "\"statusCategory\": \x7b\"id\": null, \"key\": \"new\"\x7d, ",
    "\"name\": \"Open\"\x7d]"]

theorem sample_edited :
    Codec.tolerant.decode sampleHidden (.list (.record .storedStatus)) =
      .ok (.list [.record .storedStatus [.null, .null, .text "Open", .null, .null,
        .record .storedStatusCategory [.null, .null, .text "new", .null, .null]]]) := by
  let short : Json := .object [("key", .text "new")]
  let long : Json := .object [("id", .null), ("key", .text "new")]
  let name : Text × Json := ("name", .text "Open")
  have hshort :
      Json.read sampleShort = .ok (.list [.object [name, ("statusCategory", short)]]) := by
    cbv
  have hlonger : Json.read sampleLonger =
      .ok (.list [.object [name, ("statusCategory", long)]]) := by
    cbv
  have hmoved : Json.read sampleMoved =
      .ok (.list [.object [("statusCategory", long), name]]) := by
    cbv
  have hhidden : Json.read sampleHidden =
      .ok (.list [.object [("hidden", .list [.int 1]), ("statusCategory", long), name]]) := by
    cbv
  have hitem : ∀ {j j'}, Schema.records.Edited (·.isStored = true) (.record .storedStatus) j j' →
      Schema.records.Edited (·.isStored = true) (.list (.record .storedStatus)) (.list [j])
        (.list [j']) := by
    intro j j' h
    exact @Schema.Edited.item _ _ _ _ [] [] _ _ h
  have hnull : Document.Edited (.list (.record .storedStatus)) (.ofRead hshort)
      (.ofRead hlonger) := by
    have hcategory : (Schema.records .storedStatus)[5] ∈ Schema.records .storedStatus :=
      List.getElem_mem _
    apply hitem
    apply @Schema.Edited.field _ _ _ _ [name] [] _ short long hcategory rfl
    apply Schema.Edited.optional
    apply Schema.Edited.null <;> decide
  have hpermuted : Document.Edited (.list (.record .storedStatus)) (.ofRead hlonger)
      (.ofRead hmoved) := by
    apply hitem
    apply Schema.Edited.permuted
    · rfl
    · exact List.Perm.swap _ _ _
  have hunknown : Document.Edited (.list (.record .storedStatus)) (.ofRead hmoved)
      (.ofRead hhidden) := by
    apply hitem
    apply Schema.Edited.unknown <;> decide
  have hedits : Relation.EqvGen (Document.Edited (.list (.record .storedStatus)))
      (.ofRead hshort) (.ofRead hhidden) :=
    .trans _ _ _ (.rel _ _ hnull) (.trans _ _ _ (.rel _ _ hpermuted) (.rel _ _ hunknown))
  have hdecode : Codec.tolerant.decode sampleShort (.list (.record .storedStatus)) =
      .ok (.list [.record .storedStatus [.null, .null, .text "Open", .null, .null,
        .record .storedStatusCategory [.null, .null, .text "new", .null, .null]]]) := by
    cbv
  rcases edited_decode hshort hhidden hedits with ⟨v, hv, hv'⟩ | ⟨e, _, he, _⟩
  · rw [hv', ← hv, hdecode]
  · rw [hdecode] at he
    cases he

end CatalogCache
