import CatalogCache.Payload
import CatalogCache.Proofs.StoredRoundTrip

/-!
# Records of a site

Most members of a document are turned into what the properties of a record are declared as. Some
are taken as they are, and a record is an entry of its catalog only if those are texts.
-/

namespace CatalogCache

/-! ## Members that are taken as they are -/

/-- A text, or something that is not true and counts as the empty text. -/
def Json.isTextual : Json → Bool
  | .text _ => true
  | j => !j.isTrue

namespace Payload

def Reading.shape : Reading → Shape
  | orEmpty | label => .text
  | number => .optional .int
  | text => .optional .text
  | flag => .bool
  | category => .optional (.record .statusCategory)

/-- The member is read as a value of the shape. `nested` says so of the category of a status. -/
def Reading.accepts (nested : Json → Bool) : Reading → Json → Bool
  | orEmpty, j => j.isTextual
  | category, j => nested j
  | _, _ => true

def hasTexts (nested : Json → Bool) (cls : RecordClass) (members : Members) : Bool :=
  (readings cls).all fun entry =>
    entry.2.accepts nested ((Ordered.get? members entry.1).getD .null)

def categoryHasTexts : Json → Bool
  | .object members => hasTexts (fun _ => true) .statusCategory members
  | _ => true

end Payload

/-- What becomes an entry of the catalog has texts where members are taken as they are. What is no
object becomes no entry. -/
def Catalog.hasTexts (c : Catalog) : Json → Bool
  | .object members => Payload.hasTexts Payload.categoryHasTexts c.entryClass members
  | _ => true

/-! ## Equal values -/

namespace Value

theorem isTrue_ofJson (j : Json) : (ofJson j).isTrue = j.isTrue := by
  cases j with
  | list items => cases items <;> simp [ofJson, ofJsonItems, isTrue, Json.isTrue]
  | object members => cases members <;> simp [ofJson, ofJsonMembers, isTrue, Json.isTrue]
  | _ => simp [ofJson, isTrue, Json.isTrue]

theorem text_of_equal {t : Text} {v : Value} (h : (text t).equal v = true) : ∃ t', v = text t' := by
  cases v <;> simp [equal, asInt?] at h ⊢

theorem null_of_equal {v : Value} (h : null.equal v = true) : v = null := by
  cases v <;> simp [equal, asInt?] at h ⊢

theorem record_of_equal {cls : RecordClass} {fields : List Value} {v : Value}
    (h : (record cls fields).equal v = true) :
    ∃ others, v = record cls others ∧ equalItems fields others = true := by
  cases v <;> simp [equal, asInt?] at h ⊢
  exact ⟨h.1.symm, h.2⟩

theorem forall₂_of_equalItems {vs ws : List Value} (h : equalItems vs ws = true) :
    List.Forall₂ (fun v w => v.equal w = true) vs ws := by
  induction vs generalizing ws with
  | nil =>
    cases ws with
    | nil => exact .nil
    | cons w ws => simp [equalItems] at h
  | cons v vs ih =>
    cases ws with
    | nil => simp [equalItems] at h
    | cons w ws =>
      simp only [equalItems, Bool.and_eq_true] at h
      exact .cons h.1 (ih h.2)

theorem equalItems_self {vs : List Value} (h : ∀ v ∈ vs, v.equal v = true) :
    equalItems vs vs = true := by
  induction vs with
  | nil => simp [equalItems]
  | cons v vs ih =>
    rw [List.forall_mem_cons] at h
    simp [equalItems, h.1, ih h.2]

end Value

/-! ## What is read from members -/

namespace Payload

variable {nested : Json → Except Failure Value} {good : Json → Bool} {cls : RecordClass}
  {members : Members} {v v' : Value}

/-- What a reading gives is of its shape if the member is accepted, and only then can it be equal
to a value of the shape. `good` says which documents `nested` makes a category of. -/
structure Reads (nested : Json → Except Failure Value) (good : Json → Bool) : Prop where
  inhabits : ∀ {j v}, nested j = .ok v → good j = true →
    Inhabits v (.optional (.record .statusCategory))
  good : ∀ {j v v'}, nested j = .ok v → Inhabits v' (.optional (.record .statusCategory)) →
    v'.equal v = true → good j = true

theorem Reads.inhabits_value (hreads : Reads nested good) {reading : Reading} {member : Option Json}
    (h : reading.value nested member = .ok v)
    (haccepts : reading.accepts good (member.getD .null) = true) : Inhabits v reading.shape := by
  cases reading with
  | orEmpty =>
    obtain rfl := Except.ok.inj h
    have htrue := Value.isTrue_ofJson (member.getD .null)
    rw [Reading.accepts] at haccepts
    generalize member.getD .null = j at htrue haccepts
    unfold Value.orEmpty
    rw [htrue]
    cases j <;> simp_all [Json.isTextual, Json.isTrue, Value.ofJson, Reading.shape, Inhabits.text]
    split_ifs <;> exact .text _
  | number =>
    obtain ⟨i?, -, rfl⟩ := Result.map_eq_ok_iff.mp h
    cases i? with
    | none => exact .null _
    | some i => exact .optional (.int i)
  | text =>
    obtain rfl := Except.ok.inj h
    cases Payload.text (member.getD .null) with
    | none => exact .null _
    | some t => exact .optional (.text t)
  | flag =>
    obtain rfl := Except.ok.inj h
    exact .bool _
  | label =>
    obtain rfl := Except.ok.inj h
    exact .text _
  | category => exact hreads.inhabits h haccepts

theorem Reads.accepts_of_equal (hreads : Reads nested good) {reading : Reading}
    {member : Option Json} (h : reading.value nested member = .ok v)
    (hv' : Inhabits v' reading.shape) (hequal : v'.equal v = true) :
    reading.accepts good (member.getD .null) = true := by
  cases reading with
  | orEmpty =>
    obtain rfl := Except.ok.inj h
    have htext : ∃ t, (Value.ofJson (member.getD .null)).orEmpty = .text t := by
      cases hv' with
      | text t => exact Value.text_of_equal hequal
    obtain ⟨t, ht⟩ := htext
    have htrue := Value.isTrue_ofJson (member.getD .null)
    rw [Reading.accepts]
    generalize member.getD .null = j at ht htrue
    rw [Value.orEmpty, htrue] at ht
    cases hj : j.isTrue with
    | false => cases j <;> simp_all [Json.isTextual]
    | true =>
      rw [hj, if_pos rfl] at ht
      cases j <;> simp_all [Json.isTextual, Value.ofJson]
  | category => exact hreads.good h hv' hequal
  | number | text | flag | label => rfl

theorem record_ok (h : record nested cls members = .ok v) :
    ∃ fields, v = .record cls fields ∧ List.Forall₂
      (fun entry field => entry.2.value nested (Ordered.get? members entry.1) = .ok field)
      (readings cls) fields := by
  obtain ⟨fields, hfields, rfl⟩ := Result.map_eq_ok_iff.mp h
  exact ⟨fields, rfl, Result.mapM_eq_ok_iff.mp hfields⟩

/-- The properties of a class are declared as what they are read as. -/
def Declares (cls : RecordClass) : Prop :=
  cls.properties.map (·.shape) = (readings cls).map (·.2.shape)

theorem Reads.inhabits_record (hreads : Reads nested good) (hcls : Declares cls)
    (h : record nested cls members = .ok v) (htexts : hasTexts good cls members = true) :
    Inhabits v (.record cls) := by
  obtain ⟨fields, rfl, hfields⟩ := record_ok h
  apply Stored.inhabits_record
  rw [hcls, List.forall₂_map_left_iff]
  rw [hasTexts, List.all_eq_true] at htexts
  clear h
  generalize readings cls = entries at hfields htexts
  induction hfields with
  | nil => exact .nil
  | cons hfield _ ih =>
    rw [List.forall_mem_cons] at htexts
    exact .cons (hreads.inhabits_value hfield htexts.1) (ih htexts.2)

theorem Reads.hasTexts_of_equal (hreads : Reads nested good) (hcls : Declares cls)
    (h : record nested cls members = .ok v) (hv' : Inhabits v' (.record cls))
    (hequal : v'.equal v = true) : hasTexts good cls members = true := by
  obtain ⟨fields, rfl, hfields⟩ := record_ok h
  obtain ⟨others, rfl, hothers⟩ := hv'.fields
  obtain ⟨_, hrecord, hitems⟩ := Value.record_of_equal hequal
  obtain ⟨-, rfl⟩ := Value.record.inj hrecord
  have hpairs := Value.forall₂_of_equalItems hitems
  rw [hcls, List.forall₂_map_left_iff] at hothers
  rw [hasTexts, List.all_eq_true]
  clear h hv' hequal hitems hrecord
  generalize readings cls = entries at hfields hothers
  induction hfields generalizing others with
  | nil => exact nofun
  | cons hfield _ ih =>
    cases hothers with
    | cons hother hothers =>
      cases hpairs with
      | cons hpair hpairs =>
        rw [List.forall_mem_cons]
        exact ⟨hreads.accepts_of_equal hfield hother hpair, ih _ hpairs hothers⟩

/-! ## Entries -/

theorem reads_nothing : Reads (fun _ => .ok .null) fun _ => true where
  inhabits := by
    rintro _ _ ⟨⟩ -
    exact .null _
  good := fun _ _ _ => rfl

theorem reads_category : Reads statusCategory categoryHasTexts where
  inhabits := by
    intro j v h htexts
    cases j with
    | object members => exact .optional (reads_nothing.inhabits_record rfl h htexts)
    | _ =>
      obtain rfl := Except.ok.inj h
      exact .null _
  good := by
    intro j v v' h hv' hequal
    cases j with
    | object members =>
      cases hv' with
      | null =>
        obtain ⟨fields, rfl, -⟩ := record_ok h
        cases Value.null_of_equal hequal
      | optional hv' => exact reads_nothing.hasTexts_of_equal rfl h hv' hequal
    | _ => rfl

theorem declares_entryClass (c : Catalog) : Declares c.entryClass := by cases c <;> rfl

theorem build_object (c : Catalog) (members : Members) :
    build c.entryClass (.object members) = record statusCategory c.entryClass members := by
  cases c <;> rfl

/-! ## Entries equal themselves -/

theorem equal_self_of_reading {reading : Reading} (hplain : reading ≠ .category)
    (h : Inhabits v reading.shape) : v.equal v = true := by
  have hleaf : ∀ {v}, Inhabits v .text ∨ Inhabits v .int ∨ Inhabits v .bool → v.equal v = true := by
    intro v hv
    rcases hv with hv | hv | hv <;> cases hv <;> simp [Value.equal, Value.asInt?]
  have hoptional : ∀ {v shape}, Inhabits v (.optional shape) → shape = .text ∨ shape = .int →
      v.equal v = true := by
    intro v shape hv hshape
    cases hv with
    | null => simp [Value.equal]
    | optional hv => rcases hshape with rfl | rfl <;> exact hleaf (by simp [hv])
  cases reading with
  | orEmpty | label => exact hleaf (.inl h)
  | number => exact hoptional h (.inr rfl)
  | text => exact hoptional h (.inl rfl)
  | flag => exact hleaf (.inr (.inr h))
  | category => exact absurd rfl hplain

theorem equal_self_of_record (hcls : Declares cls)
    (hreading : ∀ entry ∈ readings cls, ∀ v, Inhabits v entry.2.shape → v.equal v = true)
    (h : Inhabits v (.record cls)) : v.equal v = true := by
  obtain ⟨fields, rfl, hfields⟩ := h.fields
  rw [hcls, List.forall₂_map_left_iff] at hfields
  have hself : Value.equalItems fields fields = true := by
    apply Value.equalItems_self
    clear h
    generalize readings cls = entries at hfields hreading
    induction hfields with
    | nil => exact nofun
    | cons hfield _ ih =>
      rw [List.forall_mem_cons] at hreading ⊢
      exact ⟨hreading.1 _ hfield, ih hreading.2⟩
  simp [Value.equal, hself]

theorem equal_self_of_category (h : Inhabits v (.optional (.record .statusCategory))) :
    v.equal v = true := by
  cases h with
  | null => simp [Value.equal]
  | optional h =>
    have hdeclares : Declares .statusCategory := rfl
    have hplain : ∀ entry ∈ readings .statusCategory, entry.2 ≠ .category := by decide
    refine equal_self_of_record hdeclares (fun entry hentry v hv => ?_) h
    exact equal_self_of_reading (hplain entry hentry) hv

end Payload

theorem Catalog.equal_self_of_entry (c : Catalog) {v : Value}
    (h : Inhabits v (.record c.entryClass)) :
    v.equal v = true := by
  refine Payload.equal_self_of_record (Payload.declares_entryClass c) (fun entry _ v hv => ?_) h
  by_cases hcategory : entry.2 = .category
  · rw [hcategory] at hv
    exact Payload.equal_self_of_category hv
  · exact Payload.equal_self_of_reading hcategory hv

theorem Catalog.entries_of_hasTexts (c : Catalog) {members : Members} {v : Value}
    (h : Payload.build c.entryClass (.object members) = .ok v)
    (htexts : c.hasTexts (.object members) = true) : Inhabits v (.record c.entryClass) := by
  rw [Payload.build_object] at h
  exact Payload.reads_category.inhabits_record (Payload.declares_entryClass c) h htexts

theorem Catalog.hasTexts_of_equal (c : Catalog) {members : Members} {v v' : Value}
    (h : Payload.build c.entryClass (.object members) = .ok v)
    (hv' : Inhabits v' (.record c.entryClass)) (hequal : v'.equal v = true) :
    c.hasTexts (.object members) = true := by
  rw [Payload.build_object] at h
  exact Payload.reads_category.hasTexts_of_equal (Payload.declares_entryClass c) h hv' hequal

end CatalogCache
