import CatalogCache.Proofs.WrittenValues
import CatalogCache.Stored

/-!
# Stored records and back

A record that a client answers with is packed into a stored record, and the stored record answers as
the record it was packed from. No text and no integer is lost or added on the way.
-/

namespace CatalogCache

/-! ## Properties of records -/

namespace RecordClass

def propertyNames (cls : RecordClass) : List Text := cls.properties.map (·.name)

theorem nodup_propertyNames (cls : RecordClass) : cls.propertyNames.Nodup := by
  cases cls <;> decide

end RecordClass

theorem property_record (cls : RecordClass) {fields : List Value}
    (hlength : cls.propertyNames.length = fields.length) :
    List.Forall₂ (fun name v => (Value.record cls fields).property name = .ok v)
      cls.propertyNames fields := by
  refine (Ordered.find?_zip cls.nodup_propertyNames hlength).imp fun name v hfind => ?_
  have hentry : ((cls.properties.map (·.name)).zip fields).find? (·.1 = name) = some (name, v) :=
    hfind
  simp only [Value.property, hentry]

namespace Stored

theorem pack_record {cls target : RecordClass} {fields : List Value}
    (hnames : target.propertyNames = cls.propertyNames)
    (hlength : cls.propertyNames.length = fields.length) :
    pack target (.record cls fields) = .ok (.record target fields) := by
  have hfields : target.properties.mapM (fun p => (Value.record cls fields).property p.name) =
      .ok fields := by
    rw [Result.mapM_eq_ok_iff]
    have hall := property_record _ hlength
    rw [← hnames] at hall
    exact List.forall₂_map_left_iff.mp hall
  rw [pack, hfields]
  rfl

/-! ## Flat records -/

theorem unpackField_of_inhabits {p : Property} {v : Value} (h : Inhabits v p.shape) :
    unpackField p v = v := by
  unfold unpackField
  split
  · next hp =>
    rw [hp.2] at h
    cases h with
    | text t => cases t <;> rfl
  · rfl

theorem unpackFlat_record {cls : RecordClass} {fields : List Value}
    (h : List.Forall₂ (fun shape field => Inhabits field shape)
      (cls.answered.properties.map (·.shape)) fields) :
    unpackFlat (.record cls fields) = .record cls.answered fields := by
  have hfields : (cls.answered.properties.zip fields).map (fun entry =>
      unpackField entry.1 entry.2) = fields := by
    rw [List.forall₂_map_left_iff] at h
    generalize cls.answered.properties = properties at h
    induction h with
    | nil => rfl
    | cons hfield _ ih => rw [List.zip_cons_cons, List.map_cons, ih, unpackField_of_inhabits hfield]
  rw [unpackFlat, hfields]

/-- The shape of a stored property: the one it stands for, or that with null. -/
def Loosens (target shape : Shape) : Prop := target = shape ∨ target = .optional shape

theorem Loosens.inhabits {target shape : Shape} (h : Loosens target shape) {v : Value}
    (hv : Inhabits v shape) : Inhabits v target := by
  rcases h with rfl | rfl
  · exact hv
  · exact .optional hv

theorem inhabits_record {cls : RecordClass} {fields : List Value}
    (h : List.Forall₂ (fun shape field => Inhabits field shape) (cls.properties.map (·.shape))
      fields) : Inhabits (.record cls fields) (.record cls) := by
  rw [List.forall₂_map_left_iff, List.forall₂_iff_zip] at h
  exact .record h.1.symm fun entry hentry _ => h.2 hentry

theorem inhabits_loosened {targets shapes : List Shape} {fields : List Value}
    (hloosens : List.Forall₂ Loosens targets shapes)
    (h : List.Forall₂ (fun shape field => Inhabits field shape) shapes fields) :
    List.Forall₂ (fun shape field => Inhabits field shape) targets fields := by
  induction hloosens generalizing fields with
  | nil => exact h
  | cons hfirst _ ih =>
    cases h with
    | cons hfield hrest => exact .cons (hfirst.inhabits hfield) (ih hrest)

/-- The classes without records in their properties. -/
structure Flat (cls : RecordClass) : Prop where
  names : cls.propertyNames = cls.answered.propertyNames
  loosens : List.Forall₂ Loosens (cls.properties.map (·.shape))
    (cls.answered.properties.map (·.shape))

theorem flat_of_ne_status {cls : RecordClass} (h : cls.isStored = true)
    (hne : cls ≠ .storedStatus) : Flat cls := by
  cases cls <;> simp only [RecordClass.isStored, Bool.false_eq_true] at h
  all_goals first
    | exact absurd rfl hne
    | exact ⟨rfl, by simp [RecordClass.properties, RecordClass.answered, Property.required,
        Property.optional, Property.keyed, Property.nullable, Loosens]⟩

/-! ## Every catalog -/

/-- The stored record of a class that stands for a value. -/
structure Packed (cls : RecordClass) (v packed : Value) : Prop where
  inhabits : Inhabits packed (.record cls)
  answers : toAnswered packed = v
  address : packed.property "self_uri" = v.property "self_uri"
  texts : packed.texts = v.texts
  long : packed.hasLongInteger = v.hasLongInteger

theorem property_eq {cls target : RecordClass} {fields : List Value}
    (hnames : target.propertyNames = cls.propertyNames)
    (hlength : cls.propertyNames.length = fields.length) {name : Text}
    (hname : name ∈ cls.propertyNames) :
    (Value.record target fields).property name = (Value.record cls fields).property name := by
  have hcls := property_record _ hlength
  have htarget := property_record target (by rw [hnames]; exact hlength)
  rw [hnames] at htarget
  obtain ⟨i, hi, rfl⟩ := List.mem_iff_getElem.mp hname
  rw [List.forall₂_iff_get] at hcls htarget
  have h₁ := hcls.2 i hi (hlength ▸ hi)
  have h₂ := htarget.2 i hi (hlength ▸ hi)
  exact h₂.trans h₁.symm

theorem pack_flat (cls : RecordClass) (hflat : Flat cls) (hcls : cls ≠ .storedStatus)
    (huri : Text.ofString "self_uri" ∈ cls.answered.propertyNames) {v : Value}
    (h : Inhabits v (.record cls.answered)) :
    ∃ packed, pack cls v = .ok packed ∧ Packed cls v packed := by
  obtain ⟨fields, rfl, hfields⟩ := h.fields
  have hlength : cls.answered.propertyNames.length = fields.length := by
    simpa [RecordClass.propertyNames] using hfields.length_eq
  refine ⟨_, pack_record hflat.names hlength, ?_⟩
  constructor
  · exact inhabits_record (inhabits_loosened hflat.loosens hfields)
  · rw [toAnswered.eq_2 _ (by rintro _ ⟨⟩; exact hcls rfl)]
    exact unpackFlat_record hfields
  · exact property_eq hflat.names hlength huri
  · rfl
  · rfl

def unpackInner : Value → Value
  | .record cls fields => unpackFlat (.record cls fields)
  | v => v

theorem toAnswered_status (fields : List Value) :
    toAnswered (.record .storedStatus fields) =
      unpackFlat (.record .storedStatus (fields.map unpackInner)) := by
  rw [toAnswered]
  congr

theorem unpackInner_flat {shape : Shape} (hshape : shape.isFlat = true) {v : Value}
    (h : Inhabits v shape) : unpackInner v = v := by
  cases h with
  | optional h => cases h <;> first | rfl | simp [Shape.isFlat, Shape.isLeaf] at hshape
  | record => simp [Shape.isFlat, Shape.isLeaf] at hshape
  | _ => first | rfl | simp [Shape.isFlat, Shape.isLeaf] at hshape

theorem pack_category {v : Value} (h : Inhabits v (.optional (.record .statusCategory))) :
    ∃ packed, (if v.isTrue then pack .storedStatusCategory v else .ok .null) = .ok packed ∧
      Inhabits packed (.optional (.record .storedStatusCategory)) ∧ unpackInner packed = v ∧
      packed.texts = v.texts ∧ packed.hasLongInteger = v.hasLongInteger := by
  cases h with
  | null => exact ⟨.null, rfl, .null _, rfl, rfl, rfl⟩
  | optional h =>
    obtain ⟨packed, hpack, hpacked⟩ := pack_flat .storedStatusCategory
      (flat_of_ne_status rfl (by decide)) (by decide) (by decide) h
    have htrue : v.isTrue = true := by
      obtain ⟨fields, rfl, -⟩ := h.fields
      rfl
    have hinner : unpackInner packed = toAnswered packed := by
      obtain ⟨fields, rfl, -⟩ := hpacked.inhabits.fields
      rfl
    exact ⟨packed, by rw [if_pos htrue, hpack], .optional hpacked.inhabits,
      hinner.trans hpacked.answers, hpacked.texts, hpacked.long⟩

theorem pack_status {v : Value} (h : Inhabits v (.record .issueStatus)) :
    ∃ packed, packStatus v = .ok packed ∧ Packed .storedStatus v packed := by
  obtain ⟨fields, rfl, hfields⟩ := h.fields
  have hlength : RecordClass.issueStatus.propertyNames.length = fields.length := by
    simpa [RecordClass.propertyNames] using hfields.length_eq
  have hnames := property_record _ hlength
  simp only [RecordClass.properties, Property.required, Property.nullable, Property.optional,
    List.map_cons, List.map_nil, List.forall₂_cons_left_iff, List.forall₂_nil_left_iff] at hfields
  obtain ⟨a, _, ha, ⟨b, _, hb, ⟨c, _, hc, ⟨d, _, hd, ⟨e, _, he, ⟨f, _, hf, rfl, rfl⟩, rfl⟩, rfl⟩,
    rfl⟩, rfl⟩, rfl⟩ := hfields
  obtain ⟨category, hpack, hcategory, hinner, htexts, hlong⟩ := pack_category hf
  have hfront : RecordClass.storedStatus.properties.dropLast.mapM (fun p =>
      (Value.record .issueStatus [a, b, c, d, e, f]).property p.name) = .ok [a, b, c, d, e] := by
    rw [Result.mapM_eq_ok_iff]
    have htake := List.forall₂_take 5 hnames
    have hsame : RecordClass.issueStatus.propertyNames.take 5 =
        RecordClass.storedStatus.properties.dropLast.map (·.name) := rfl
    rw [hsame] at htake
    exact List.forall₂_map_left_iff.mp htake
  have hlast : (Value.record .issueStatus [a, b, c, d, e, f]).property "status_category" = .ok f :=
    (List.forall₂_cons.mp (List.forall₂_drop 5 hnames)).1
  refine ⟨.record .storedStatus [a, b, c, d, e, category], ?_, ?_⟩
  · rw [packStatus, hlast, hfront, Result.bind_ok, Result.bind_ok]
    cases htrue : f.isTrue with
    | true =>
      rw [htrue, if_pos rfl] at hpack
      simp only [if_true, hpack]
      rfl
    | false =>
      rw [htrue, if_neg (by simp)] at hpack
      cases hpack
      rfl
  constructor
  · exact inhabits_record (.cons (.optional ha) (.cons hb (.cons (.optional hc) (.cons hd
      (.cons he (.cons hcategory .nil))))))
  · rw [toAnswered_status]
    simp only [List.map_cons, List.map_nil, hinner, unpackInner_flat rfl ha,
      unpackInner_flat rfl hb, unpackInner_flat rfl hc, unpackInner_flat rfl hd,
      unpackInner_flat rfl he]
    exact unpackFlat_record (.cons ha (.cons hb (.cons hc (.cons hd (.cons he (.cons hf .nil))))))
  · rfl
  · simp [Value.texts, Value.itemTexts, htexts]
  · simp [Value.hasLongInteger, Value.anyLongInteger, hlong]

end Stored

/-- **Round trip.** A record of a catalog is packed into a stored record of the catalog. -/
theorem Catalog.packed (c : Catalog) {v : Value} (h : Inhabits v (.record c.entryClass)) :
    ∃ packed, Stored.ofAnswered c.stored v = .ok packed ∧ Stored.Packed c.stored v packed := by
  by_cases hc : c.stored = .storedStatus
  · have hstatus : c = .statuses := by cases c <;> simp_all [Catalog.stored]
    subst hstatus
    exact Stored.pack_status h
  · rw [Stored.ofAnswered, if_neg hc]
    apply Stored.pack_flat _ (Stored.flat_of_ne_status (by cases c <;> rfl) hc) hc
    · cases c <;> decide
    · cases c <;> exact h

theorem Catalog.packedAll (c : Catalog) {vs : List Value}
    (h : ∀ v ∈ vs, Inhabits v (.record c.entryClass)) :
    ∃ packed, vs.mapM (Stored.ofAnswered c.stored) = .ok packed ∧
      List.Forall₂ (Stored.Packed c.stored) vs packed := by
  induction vs with
  | nil => exact ⟨[], rfl, .nil⟩
  | cons v vs ih =>
    rw [List.forall_mem_cons] at h
    obtain ⟨packed, hpack, hpacked⟩ := c.packed h.1
    obtain ⟨more, hmore, hall⟩ := ih h.2
    exact ⟨packed :: more, by rw [List.mapM_cons, hpack, hmore]; rfl, .cons hpacked hall⟩

namespace Stored

/-! ## Whatever is stored -/

/-- A property of an answered record can be restored from a stored one. -/
def Restores (p q : Property) : Prop :=
  q.shape = p.shape ∨ q.shape = .optional .text ∧ p.shape = .text ∧ p.default? = none

theorem inhabits_unpackField {p q : Property} (h : Restores p q) {v : Value}
    (hv : Inhabits v q.shape) : Inhabits (unpackField p v) p.shape := by
  have htext : ∀ {v}, Inhabits v (.optional .text) → Inhabits v.orEmpty .text := by
    intro v hv
    cases hv with
    | null => exact .text []
    | optional hv =>
      cases hv with
      | text t => cases t <;> exact .text _
  rcases h with hsame | ⟨hq, hp, hdefault⟩
  · rw [hsame] at hv
    unfold unpackField
    split_ifs with hrequired
    · rw [hrequired.2] at hv ⊢
      exact htext (.optional hv)
    · exact hv
  · rw [hq] at hv
    rw [unpackField, if_pos ⟨hdefault, hp⟩, hp]
    exact htext hv

theorem inhabits_unpackFlat {cls : RecordClass} {fields : List Value}
    (hrestores : List.Forall₂ Restores cls.answered.properties cls.properties)
    (h : List.Forall₂ (fun q field => Inhabits field q.shape) cls.properties fields) :
    Inhabits (unpackFlat (.record cls fields)) (.record cls.answered) := by
  rw [unpackFlat]
  apply inhabits_record
  rw [List.forall₂_map_left_iff]
  generalize cls.answered.properties = ps at hrestores ⊢
  generalize cls.properties = qs at hrestores h
  induction hrestores generalizing fields with
  | nil => exact .nil
  | cons hfirst _ ih =>
    cases h with
    | cons hfield hrest => exact .cons (inhabits_unpackField hfirst hfield) (ih hrest)

theorem restores_of_ne_status {cls : RecordClass} (h : cls.isStored = true)
    (hne : cls ≠ .storedStatus) : List.Forall₂ Restores cls.answered.properties cls.properties := by
  cases cls <;> simp only [RecordClass.isStored, Bool.false_eq_true] at h
  all_goals first
    | exact absurd rfl hne
    | simp [RecordClass.properties, RecordClass.answered, Property.required, Property.optional,
        Property.keyed, Property.nullable, Restores]

theorem inhabits_unpackInner {v : Value}
    (h : Inhabits v (.optional (.record .storedStatusCategory))) :
    Inhabits (unpackInner v) (.optional (.record .statusCategory)) := by
  cases h with
  | null => exact .null _
  | optional h =>
    obtain ⟨fields, rfl, hfields⟩ := h.fields
    rw [List.forall₂_map_left_iff] at hfields
    exact .optional (inhabits_unpackFlat (restores_of_ne_status rfl (by decide)) hfields)

theorem inhabits_unpackStatus {v : Value} (h : Inhabits v (.record .storedStatus)) :
    Inhabits (toAnswered v) (.record .issueStatus) := by
  obtain ⟨fields, rfl, hfields⟩ := h.fields
  simp only [RecordClass.properties, Property.optional, Property.keyed, Property.nullable,
    List.map_cons, List.map_nil, List.forall₂_cons_left_iff, List.forall₂_nil_left_iff] at hfields
  obtain ⟨a, _, ha, ⟨b, _, hb, ⟨c, _, hc, ⟨d, _, hd, ⟨e, _, he, ⟨f, _, hf, rfl, rfl⟩, rfl⟩, rfl⟩,
    rfl⟩, rfl⟩, rfl⟩ := hfields
  rw [toAnswered_status, unpackFlat]
  simp only [List.map_cons, List.map_nil, unpackInner_flat rfl ha, unpackInner_flat rfl hb,
    unpackInner_flat rfl hc, unpackInner_flat rfl hd, unpackInner_flat rfl he]
  have hf' := inhabits_unpackInner hf
  apply inhabits_record
  refine .cons ?_ (.cons hb (.cons ?_ (.cons hd (.cons he (.cons hf' .nil)))))
  · exact inhabits_unpackField (q := .nullable "self_uri" .text) (.inr ⟨rfl, rfl, rfl⟩) ha
  · exact inhabits_unpackField (q := .nullable "name" .text) (.inr ⟨rfl, rfl, rfl⟩) hc

theorem inhabits_toAnswered (c : Catalog) {v : Value} (h : Inhabits v (.record c.stored)) :
    Inhabits (toAnswered v) (.record c.entryClass) := by
  by_cases hc : c = .statuses
  · subst hc
    exact inhabits_unpackStatus h
  · have hne : c.stored ≠ .storedStatus := by cases c <;> simp_all [Catalog.stored]
    have hclass : c.stored.answered = c.entryClass := by cases c <;> rfl
    obtain ⟨fields, rfl, hfields⟩ := h.fields
    rw [List.forall₂_map_left_iff] at hfields
    have hflat : toAnswered (.record c.stored fields) = unpackFlat (.record c.stored fields) :=
      toAnswered.eq_2 _ fun _ hstatus => hne (Value.record.inj hstatus).1
    rw [hflat, ← hclass]
    exact inhabits_unpackFlat (restores_of_ne_status (by cases c <;> rfl) hne) hfields

/-! ## Lists -/

variable {cls : RecordClass} {vs packed : List Value}

theorem inhabits_of_packed (h : List.Forall₂ (Packed cls) vs packed) :
    ∀ v ∈ packed, Inhabits v (.record cls) := by
  induction h with
  | nil => simp
  | cons hv _ ih => exact List.forall_mem_cons.mpr ⟨hv.inhabits, ih⟩

theorem answers_of_packed (h : List.Forall₂ (Packed cls) vs packed) :
    packed.map toAnswered = vs := by
  induction h with
  | nil => rfl
  | cons hv _ ih => rw [List.map_cons, hv.answers, ih]

theorem texts_of_packed (h : List.Forall₂ (Packed cls) vs packed) :
    (Value.list packed).texts = (Value.list vs).texts := by
  rw [Value.texts, Value.texts]
  induction h with
  | nil => rfl
  | cons hv _ ih => rw [Value.itemTexts, Value.itemTexts, hv.texts, ih]

theorem long_of_packed (h : List.Forall₂ (Packed cls) vs packed) :
    (Value.list packed).hasLongInteger = (Value.list vs).hasLongInteger := by
  rw [Value.hasLongInteger, Value.hasLongInteger]
  induction h with
  | nil => rfl
  | cons hv _ ih => rw [Value.anyLongInteger, Value.anyLongInteger, hv.long, ih]

end Stored

end CatalogCache
