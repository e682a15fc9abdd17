import CatalogCache.Proofs.Schemas

/-!
# What the settings refuse

The settings of the codec decide which objects pass, and nothing else: what is read with two
settings is the same. With the strict ones, the objects that pass are those that name every property
that is read, and no other, and that give a value to each which does not accept null.
-/

namespace CatalogCache

variable {C : Type}

/-- Tolerates neither unknown members nor missing ones. -/
def Codec.strict (indent : Option Int) : Codec := ⟨indent, false, false⟩

/-- Tolerates all that the other codec tolerates. -/
structure Codec.Tolerates (lenient codec : Codec) : Prop where
  unknown : codec.ignoreUnknown = true → lenient.ignoreUnknown = true
  missing : codec.allowMissing = true → lenient.allowMissing = true

namespace Schema

/-- The members of an object inside the document that is read as a record of the class, where the
whole document is read in the shape. -/
inductive Consumes (S : Schema C) : ShapeOf C → Json → C → Members → Prop
  | here (cls : C) (members : Members) : S.Consumes (.record cls) (.object members) cls members
  | item {shape : ShapeOf C} {items : List Json} {j : Json} {cls : C} {members : Members}
    (hj : j ∈ items) (h : S.Consumes shape j cls members) :
    S.Consumes (.list shape) (.list items) cls members
  | optional {shape : ShapeOf C} {j : Json} {cls : C} {members : Members}
    (h : S.Consumes shape j cls members) : S.Consumes (.optional shape) j cls members
  | field {outer cls : C} {around members : Members} {p : PropertyOf C} {j : Json}
    (hp : p ∈ S outer) (hread : p.isRead = true) (hj : Ordered.get? around p.key = some j)
    (h : S.Consumes p.shape j cls members) :
    S.Consumes (.record outer) (.object around) cls members

/-- The object names what its class reads and nothing else, and null stands only where it is
accepted. -/
structure Exact (S : Schema C) (cls : C) (members : Members) : Prop where
  keys : ∀ key, key ∈ members.map (·.1) ↔ ∃ p ∈ S cls, p.isRead = true ∧ p.key = key
  nulls : ∀ p ∈ S cls, p.isRead = true → Ordered.get? members p.key = some .null →
    p.shape.acceptsNull = true

/-- Every object that is read as a record is exact. -/
def IsExact (S : Schema C) (t : Text) (shape : ShapeOf C) : Prop :=
  ∀ j, Json.read t = .ok j → ∀ cls members, S.Consumes shape j cls members → S.Exact cls members

/-- The codec has nothing to refuse in the object. -/
structure Passes (S : Schema C) (codec : Codec) (cls : C) (members : Members) : Prop where
  known : (codec.ignoreUnknown || members.all (S.knows cls ·.1)) = true
  given : ∀ p ∈ S cls, p.isRead = true → codec.allowMissing = true ∨ p.given? members ≠ none

variable {S : Schema C} {codec lenient : Codec} {cls : C} {members : Members}

theorem Passes.mono (h : S.Passes codec cls members) (ht : lenient.Tolerates codec) :
    S.Passes lenient cls members := by
  constructor
  · have hknown := h.known
    rw [Bool.or_eq_true] at hknown ⊢
    exact hknown.imp_left ht.unknown
  · intro p hp hread
    exact (h.given p hp hread).imp_left ht.missing

theorem not_consumes_null {shape : ShapeOf C} : ¬S.Consumes shape .null cls members := by
  intro h
  generalize hj : Json.null = j at h
  induction h with
  | optional _ ih => exact ih hj
  | _ => cases hj

theorem valueOf?_of_passes {other : Codec} {shape : ShapeOf C} {j : Json} {v : ValueOf C}
    (hpass : ∀ cls members, S.Consumes shape j cls members → S.Passes other cls members)
    (h : S.valueOf? codec shape j = some v) : S.valueOf? other shape j = some v := by
  induction shape, j using valueOf?.induct S codec generalizing v with
  | case1 item items ih =>
    rw [valueOf?] at h ⊢
    obtain ⟨vs, hvs, rfl⟩ := Option.map_eq_some_iff.mp h
    apply Option.map_eq_some_iff.mpr
    refine ⟨vs, Optional.mapM_mono ?_ hvs, rfl⟩
    intro j hj v hv
    exact ih j hj (fun cls members hc => hpass cls members (.item hj hc)) hv
  | case2 shape =>
    rw [valueOf?] at h ⊢
    exact h
  | case3 shape j hj ih =>
    rw [valueOf?] at h ⊢
    · exact ih (fun cls members hc => hpass cls members (.optional hc)) h
    all_goals exact hj
  | case4 cls members hknown ih =>
    have hthis := hpass cls members (.here cls members)
    rw [valueOf?_record] at h ⊢
    rw [if_pos hknown] at h
    rw [if_pos hthis.known]
    obtain ⟨fields, hfields, rfl⟩ := Option.map_eq_some_iff.mp h
    apply Option.map_eq_some_iff.mpr
    refine ⟨fields, Optional.mapM_mono ?_ hfields, rfl⟩
    intro p hp v hv
    unfold field? at hv ⊢
    split at hv
    next hread =>
      rw [if_pos hread]
      split at hv
      next j hj =>
        have hinner : ∀ cls ms, S.Consumes p.shape j cls ms → S.Passes other cls ms := by
          intro cls ms hc
          exact hpass cls ms (.field hp hread (PropertyOf.get?_of_given? hj) hc)
        exact ih p j hj hinner hv
      next hnone =>
        -- The default was taken, so the codec that has nothing to refuse takes it as well.
        rw [if_pos ((hthis.given p hp hread).resolve_right (not_not.mpr hnone))]
        split at hv
        · exact hv
        · cases hv
    next hread =>
      rw [if_neg hread]
      exact hv
  | case5 cls members hknown =>
    rw [valueOf?_record, if_neg hknown] at h
    cases h
  | case6 shape j hlist hnull hoptional hrecord =>
    rw [valueOf?] at h ⊢
    · exact h
    all_goals assumption

theorem passes_of_valueOf? {shape : ShapeOf C} {j : Json} {v : ValueOf C}
    (h : S.valueOf? codec shape j = some v) (hc : S.Consumes shape j cls members) :
    S.Passes codec cls members := by
  induction hc generalizing v with
  | here cls members =>
    rw [valueOf?_record] at h
    split at h
    next hknown =>
      obtain ⟨fields, hfields, -⟩ := Option.map_eq_some_iff.mp h
      apply Passes.mk hknown
      intro p hp hread
      obtain ⟨v, hv⟩ := Optional.isSome_of_mapM hfields hp
      unfold field? at hv
      rw [if_pos hread] at hv
      split at hv
      next hj => exact .inr (by simp [hj])
      split at hv
      next hmissing => exact .inl hmissing
      · cases hv
    · cases h
  | item hj _ ih =>
    rw [valueOf?] at h
    obtain ⟨vs, hvs, -⟩ := Option.map_eq_some_iff.mp h
    obtain ⟨v, hv⟩ := Optional.isSome_of_mapM hvs hj
    exact ih hv
  | @optional shape j cls members hc ih =>
    rw [valueOf?] at h
    · exact ih h
    · rintro rfl
      exact not_consumes_null hc
  | @field outer cls around members p j hp hread hj hc ih =>
    have hne : j ≠ .null := by
      rintro rfl
      exact not_consumes_null hc
    rw [valueOf?_record] at h
    split at h
    · obtain ⟨fields, hfields, -⟩ := Option.map_eq_some_iff.mp h
      obtain ⟨v, hv⟩ := Optional.isSome_of_mapM hfields hp
      rw [field?_given hread (PropertyOf.given?_of_get? hj hne)] at hv
      exact ih hv
    · cases h

theorem valueOf?_eq_some_iff (other : Codec) (ht : other.Tolerates codec) {shape : ShapeOf C}
    {j : Json} {v : ValueOf C} : S.valueOf? codec shape j = some v ↔
      S.valueOf? other shape j = some v ∧
        ∀ cls members, S.Consumes shape j cls members → S.Passes codec cls members := by
  constructor
  · intro h
    have hpass : ∀ cls members, S.Consumes shape j cls members → S.Passes codec cls members :=
      fun cls members hc => passes_of_valueOf? h hc
    refine ⟨valueOf?_of_passes (fun cls members hc => (hpass cls members hc).mono ht) h, hpass⟩
  · rintro ⟨h, hpass⟩
    exact valueOf?_of_passes hpass h

theorem passes_strict_iff (indent : Option Int) :
    S.Passes (Codec.strict indent) cls members ↔ S.Exact cls members := by
  constructor
  · rintro ⟨hknown, hgiven⟩
    have hread : ∀ p ∈ S cls, p.isRead = true → ∃ j, p.given? members = some j := by
      intro p hp hread
      exact Option.ne_none_iff_exists'.mp ((hgiven p hp hread).resolve_left Bool.false_ne_true)
    constructor
    · intro key
      constructor
      · intro hkey
        obtain ⟨member, hmember, rfl⟩ := List.mem_map.mp hkey
        exact knows_iff.mp (List.all_eq_true.mp hknown member hmember)
      · rintro ⟨p, hp, hpread, rfl⟩
        obtain ⟨j, hj⟩ := hread p hp hpread
        exact List.mem_map.mpr ⟨_, Ordered.mem_of_get? (PropertyOf.get?_of_given? hj), rfl⟩
    · intro p hp hpread hnull
      obtain ⟨j, hj⟩ := hread p hp hpread
      unfold PropertyOf.given? at hj
      rw [hnull] at hj
      by_contra hrefused
      simp [hrefused] at hj
  · rintro ⟨hkeys, hnulls⟩
    constructor
    · apply List.all_eq_true.mpr
      intro member hmember
      exact knows_iff.mpr ((hkeys member.1).mp (List.mem_map_of_mem hmember))
    · intro p hp hpread
      obtain ⟨j, hj⟩ := Ordered.exists_get?_of_mem ((hkeys p.key).mpr ⟨p, hp, hpread, rfl⟩)
      apply Or.inr
      by_cases hnull : j = .null
      · subst hnull
        simp [PropertyOf.given?, hj, hnulls p hp hpread hj]
      · simp [PropertyOf.given?_of_get? hj hnull]

end Schema

/-! ## The theorem -/

/-- What a decoder makes of the settings, where `exact` tells the documents that the strict ones
take. -/
structure Heeds {V : Type} (decode : Codec → Option V) (exact : Prop) : Prop where
  strict : ∀ indent v, decode (Codec.strict indent) = some v ↔
    decode Codec.tolerant = some v ∧ exact
  lenient : ∀ {codec other : Codec}, other.Tolerates codec → ∀ v,
    decode codec = some v → decode other = some v

theorem Heeds.map {V W : Type} {decode : Codec → Option V} {exact : Prop} (h : Heeds decode exact)
    (f : V → W) : Heeds (fun codec => (decode codec).map f) exact := by
  constructor
  · intro indent w
    simp only [Option.map_eq_some_iff, h.strict]
    tauto
  · intro codec other ht w hw
    obtain ⟨v, hv, rfl⟩ := Option.map_eq_some_iff.mp hw
    exact Option.map_eq_some_iff.mpr ⟨v, h.lenient ht v hv, rfl⟩

theorem Schema.heeds (S : Schema C) (t : Text) (shape : ShapeOf C) :
    Heeds (fun codec => S.decode? codec t shape) (S.IsExact t shape) := by
  unfold Schema.decode? Schema.IsExact
  cases Json.read t with
  | error e => exact ⟨by simp [Except.toOption], by simp [Except.toOption]⟩
  | ok j =>
    constructor
    · intro indent v
      have htolerant : Codec.tolerant.Tolerates (Codec.strict indent) :=
        ⟨fun _ => rfl, fun _ => rfl⟩
      simpa [Except.toOption, passes_strict_iff] using valueOf?_eq_some_iff Codec.tolerant htolerant
    · intro codec other ht v h
      exact ((valueOf?_eq_some_iff other ht).mp h).1

/-- **Strictness.** The strict settings read what the tolerant ones read, from exact documents only,
and to tolerate more refuses nothing and changes nothing. -/
theorem decoding_heeds (t : Text) :
    (∀ shape : Shape, Heeds (fun codec => (codec.decode t shape).toOption)
        (Schema.records.IsExact t shape.lift)) ∧
      ∀ {C : Type} (S : Schema C) (shape : ShapeOf C),
        Heeds (fun codec => S.decode? codec t shape) (S.IsExact t shape) := by
  constructor
  · intro shape
    simp only [Codec.toOption_decode]
    exact (Schema.records.heeds t shape.lift).map ValueOf.toValue
  · intro C S shape
    exact S.heeds t shape

/-- A tree that gives all that its class reads. -/
def sampleExact : Text := List.flatten
  ["[\x7b\"below\": [\x7b\"size\": 0, \"size\": 1, \"below\": []\x7d], ", "\"size\": 2\x7d]"]

/-- A resolution that lacks members. -/
def sampleLacking : Text := "[\x7b\"id\": 1, \"name\": null\x7d]"

theorem sample_heeds :
    Schema.nodes.IsExact sampleExact (.list (.record ())) ∧
      ¬Schema.records.IsExact sampleLacking (.list (.record .storedResolution)) := by
  constructor
  · have hheeds := (decoding_heeds sampleExact).2 Schema.nodes (.list (.record ()))
    have hstrict := (hheeds.strict none (.list [.record () [.plain (.int 2),
      .list [.record () [.plain (.int 1), .list [], .plain (.int 0)]], .plain (.int 0)]])).mp
      (by cbv)
    exact hstrict.2
  · intro hexact
    have hheeds := (decoding_heeds sampleLacking).1 (.list (.record .storedResolution))
    have hstrict := (hheeds.strict none (.list [.record .storedResolution
      [.null, .int 1, .null, .null]])).mpr ⟨by cbv, hexact⟩
    have hrefused : ((Codec.strict none).decode sampleLacking
        (.list (.record .storedResolution))).toOption = none := by
      cbv
    rw [hrefused] at hstrict
    cases hstrict

end CatalogCache
