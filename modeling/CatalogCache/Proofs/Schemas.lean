import CatalogCache.Codec.Decode
import CatalogCache.Proofs.Documents
import CatalogCache.Proofs.Results
import Mathlib

/-!
# Decoding for any classes

The codec knows a class by its properties only. Here is what it reads for any family of classes:
there may be any number of them, and they may hold each other or themselves. The classes of the
catalogs are one family, and for it this is what `Codec.decode` reads.
-/

namespace CatalogCache

/-! ## Shapes, values and schemas -/

/-- What kind of value a property or a whole document holds, over the classes of a family. -/
inductive ShapeOf (C : Type)
  | bool
  | int
  | real
  | text
  | anything
  | nothing
  | anyList
  | anyDict
  | listOfAnything
  | list (item : ShapeOf C)
  | optional (shape : ShapeOf C)
  | choice (nullable : Bool)
  | record (cls : C)

/-- A value that holds records of a family. What holds none of them is plain. -/
inductive ValueOf (C : Type)
  | plain (v : Value)
  | list (items : List (ValueOf C))
  | record (cls : C) (fields : List (ValueOf C))

structure PropertyOf (C : Type) where
  key : Text
  shape : ShapeOf C
  default? : Option (ValueOf C)
  isRead : Bool
  /-- Without a default, a record would lack what is not read. -/
  default_of_unread : isRead = false → default?.isSome = true

/-- The properties of every class of a family, in order. -/
abbrev Schema (C : Type) := C → List (PropertyOf C)

variable {C : Type}

namespace ShapeOf

def acceptsNull : ShapeOf C → Bool
  | anything | nothing | optional _ | choice true => true
  | _ => false

/-- The value of a document in a shape without other shapes in it. -/
def plain? : ShapeOf C → Json → Option Value
  | bool, .bool b => some (.bool b)
  | int, .int i => some (.int i)
  | real, .real x => some (.real x)
  | real, .int i => some (.int i)
  | text, .text t => some (.text t)
  | anything, j | nothing, j | anyList, j | anyDict, j | choice _, j => some (Value.ofJson j)
  | listOfAnything, .list items => some (.list (Value.ofJsonItems items))
  | _, _ => none

end ShapeOf

/-! ## Reading -/

namespace Json

/-- The items of a list, or the values of the members of an object. -/
def children : Json → List Json
  | list items => items
  | object members => members.map (·.2)
  | _ => []

theorem sizeOf_child {j k : Json} (h : k ∈ j.children) : sizeOf k < sizeOf j := by
  cases j with
  | list items =>
    have hk : sizeOf k < sizeOf items := List.sizeOf_lt_of_mem h
    simp only [list.sizeOf_spec]
    omega
  | object members =>
    obtain ⟨⟨key, k⟩, hmem, rfl⟩ := List.mem_map.mp h
    have hk := List.sizeOf_lt_of_mem hmem
    simp only [object.sizeOf_spec, Prod.mk.sizeOf_spec] at hk ⊢
    omega
  | null | bool | int | real | text => simp [children] at h

end Json

/-- The member that a property reads. Null is none, where the shape does not accept it. -/
def PropertyOf.given? (p : PropertyOf C) (members : Members) : Option Json :=
  match Ordered.get? members p.key with
  | some .null => if p.shape.acceptsNull then some .null else none
  | member? => member?

namespace PropertyOf

variable {p : PropertyOf C} {members : Members} {j : Json}

theorem get?_of_given? (h : p.given? members = some j) : Ordered.get? members p.key = some j := by
  unfold given? at h
  split at h
  next hnull =>
    split at h
    · rwa [← h]
    · cases h
  · exact h

theorem given?_of_get? (h : Ordered.get? members p.key = some j) (hj : j ≠ .null) :
    p.given? members = some j := by
  unfold given?
  split
  next hnull =>
    rw [h] at hnull
    exact absurd (Option.some.inj hnull) hj
  · exact h

theorem sizeOf_given (h : p.given? members = some j) : sizeOf j < sizeOf (Json.object members) := by
  apply Json.sizeOf_child
  exact List.mem_map.mpr ⟨_, Ordered.mem_of_get? (get?_of_given? h), rfl⟩

end PropertyOf

namespace Schema

variable (S : Schema C)

/-- A property of the class reads the key. -/
def knows (cls : C) (key : Text) : Bool := (S cls).any fun p => p.isRead && p.key = key

variable {S} in
theorem knows_iff {cls : C} {key : Text} :
    S.knows cls key = true ↔ ∃ p ∈ S cls, p.isRead = true ∧ p.key = key := by
  simp [knows]

/-- The value that a document has in a shape, if it has one. -/
def valueOf? (codec : Codec) : ShapeOf C → Json → Option (ValueOf C)
  | .list item, .list items => .list <$> items.mapM fun j => valueOf? codec item j
  | .optional _, .null => some (.plain .null)
  | .optional shape, j => valueOf? codec shape j
  | .record cls, .object members =>
    if codec.ignoreUnknown || members.all (S.knows cls ·.1) then
      .record cls <$> (S cls).mapM fun p =>
        if p.isRead then
          match _h : p.given? members with
          | some j => valueOf? codec p.shape j
          | none => if codec.allowMissing then p.default? else none
        else p.default?
    else none
  | shape, j => .plain <$> shape.plain? j
termination_by shape j => (sizeOf j, sizeOf shape)
decreasing_by
  · exact .left _ _ (Json.sizeOf_child (j := .list _) ‹_ ∈ _›)
  · exact .right _ (by simp)
  · exact .left _ _ (PropertyOf.sizeOf_given _h)

/-- The value of a property of an object with these members. -/
def field? (codec : Codec) (members : Members) (p : PropertyOf C) : Option (ValueOf C) :=
  if p.isRead then
    match p.given? members with
    | some j => S.valueOf? codec p.shape j
    | none => if codec.allowMissing then p.default? else none
  else p.default?

variable {S} in
theorem field?_given {codec : Codec} {members : Members} {p : PropertyOf C} {j : Json}
    (hread : p.isRead = true) (h : p.given? members = some j) :
    S.field? codec members p = S.valueOf? codec p.shape j := by
  unfold field?
  rw [if_pos hread, h]

theorem valueOf?_of_plain? {codec : Codec} {shape : ShapeOf C} {j : Json} {w : Value}
    (h : shape.plain? j = some w) : S.valueOf? codec shape j = some (.plain w) := by
  cases shape with
  | list | optional | record => cases h
  | _ => simp [valueOf?, h]

theorem valueOf?_record (codec : Codec) (cls : C) (members : Members) :
    S.valueOf? codec (.record cls) (.object members) =
      if codec.ignoreUnknown || members.all (S.knows cls ·.1) then
        .record cls <$> (S cls).mapM (S.field? codec members)
      else none := by
  rw [valueOf?]
  congr
  funext p
  unfold field?
  cases p.given? members <;> rfl

/-- The value of a text in a shape, if the text is a document that has one. -/
def decode? (codec : Codec) (t : Text) (shape : ShapeOf C) : Option (ValueOf C) :=
  (Json.read t).toOption.bind (S.valueOf? codec shape)

end Schema

/-- A family of one class, whose records hold each other. -/
def Schema.nodes : Schema Unit := fun _ =>
  [⟨"size", .real, none, true, nofun⟩,
    ⟨"below", .list (.record ()), some (.list []), true, nofun⟩,
    ⟨"depth", .int, some (.plain (.int 0)), false, fun _ => rfl⟩]

/-! ## The classes of the catalogs -/

def Shape.lift : Shape → ShapeOf RecordClass
  | bool => .bool
  | int => .int
  | real => .real
  | text => .text
  | anything => .anything
  | nothing => .nothing
  | anyList => .anyList
  | anyDict => .anyDict
  | listOfAnything => .listOfAnything
  | list item => .list item.lift
  | optional shape => .optional shape.lift
  | choice nullable => .choice nullable
  | record cls => .record cls

/-- The value itself, without a note on where it holds records. -/
def ValueOf.toValue : ValueOf RecordClass → Value
  | plain v => v
  | list items => .list (items.map toValue)
  | record cls fields => .record cls (fields.map toValue)

theorem RecordClass.isSome_default (cls : RecordClass) :
    ∀ p ∈ cls.properties, p.isRead = false → p.default?.isSome = true := by
  cases cls <;>
    simp [properties, Property.required, Property.optional, Property.keyed, Property.nullable]

def Property.lift (p : Property) (h : p.isRead = false → p.default?.isSome = true) :
    PropertyOf RecordClass where
  key := p.key
  shape := p.shape.lift
  default? := p.default?.map .plain
  isRead := p.isRead
  default_of_unread := by simpa using h

def Schema.records : Schema RecordClass :=
  fun cls => cls.properties.pmap Property.lift cls.isSome_default

theorem RecordClass.nodup_keys (cls : RecordClass) : (cls.properties.map (·.key)).Nodup := by
  cases cls <;> decide

theorem Schema.keys_records (cls : RecordClass) :
    (Schema.records cls).map (·.key) = cls.properties.map (·.key) := by
  unfold Schema.records
  rw [List.map_pmap]
  exact List.pmap_eq_map cls.isSome_default

theorem Schema.nodup_records (cls : RecordClass) : ((Schema.records cls).map (·.key)).Nodup := by
  rw [keys_records]
  exact cls.nodup_keys

/-! ### The same values -/

theorem filterMap_of_mapM {ε : Type} {ps : List Property}
    {r : Property → Except ε (Option Value)} :
    ((ps.mapM r).toOption.bind fun fields =>
      if (ps.zip fields).filter (·.2.isNone) ≠ [] then none else some (fields.filterMap id)) =
    ps.mapM fun p => (r p).toOption.join := by
  induction ps with
  | nil => rfl
  | cons p ps ih =>
    rw [List.mapM_cons, List.mapM_cons, ← ih]
    cases r p with
    | error e => rfl
    | ok v? =>
      cases v? with
      | none => cases ps.mapM r <;> simp [Except.toOption]
      | some v =>
        cases ps.mapM r with
        | error e => rfl
        | ok fields =>
          by_cases h : (ps.zip fields).filter (·.2.isNone) = [] <;> simp [Except.toOption, h]

namespace Shape

/-- The classes whose records stand directly in values of the shape. -/
def classes : Shape → List RecordClass
  | list item => item.classes
  | optional shape => shape.classes
  | record cls => [cls]
  | _ => []

theorem acceptsNull_lift (shape : Shape) : shape.lift.acceptsNull = shape.acceptsNull := by
  cases shape with
  | choice nullable => cases nullable <;> rfl
  | _ => rfl

end Shape

theorem RecordClass.rank_lt (cls : RecordClass) :
    ∀ p ∈ cls.properties, ∀ inner ∈ p.shape.classes, inner.rank < cls.rank := by
  cases cls <;>
    simp [properties, Property.required, Property.optional, Property.keyed, Property.nullable,
      Shape.classes, rank]

/-- A decoder of the catalogs and that of their family read the same values. -/
def Schema.Reads (codec : Codec) (shape : Shape) (decode : Json → Except CodecError Value) : Prop :=
  ∀ j, (decode j).toOption = (records.valueOf? codec shape.lift j).map ValueOf.toValue

variable {codec : Codec} {cls : RecordClass}

theorem Shape.reads_decodeWith {record : RecordClass → Json → Except CodecError Value}
    {shape : Shape} (h : ∀ cls ∈ shape.classes, Schema.Reads codec (.record cls) (record cls)) :
    Schema.Reads codec shape (shape.decodeWith record) := by
  induction shape with
  | list item ih =>
    intro j
    cases j with
    | list items =>
      have hitems : (items.mapM (item.decodeWith record)).toOption =
          (items.mapM (Schema.records.valueOf? codec item.lift)).map (·.map ValueOf.toValue) := by
        rw [Result.toOption_mapM, ← Optional.mapM_map]
        exact congrArg (items.mapM ·) (funext (ih h))
      rw [decodeWith, lift, Schema.valueOf?]
      cases hdecode : items.mapM (item.decodeWith record) with
      | error e =>
        rw [hdecode] at hitems
        cases hvalue : items.mapM (Schema.records.valueOf? codec item.lift) with
        | none => rfl
        | some vs => simp [hvalue, Except.toOption] at hitems
      | ok vs =>
        rw [hdecode] at hitems
        obtain ⟨us, hvalue, rfl⟩ := Option.map_eq_some_iff.mp hitems.symm
        simp [hvalue, Except.toOption, ValueOf.toValue]
    | _ => simp [decodeWith, lift, Schema.valueOf?, ShapeOf.plain?, Except.toOption]
  | optional shape ih =>
    intro j
    cases j with
    | null => simp [decodeWith, lift, Schema.valueOf?, Except.toOption, ValueOf.toValue]
    | _ => simpa [decodeWith, lift, Schema.valueOf?] using ih h _
  | record cls =>
    intro j
    have hrecord := h cls (List.mem_singleton_self cls) j
    cases j <;> exact hrecord
  | _ =>
    intro j
    cases j <;>
      simp [decodeWith, lift, Schema.valueOf?, ShapeOf.plain?, Except.toOption, ValueOf.toValue]

namespace Codec

theorem reads_decodeProperty {decode : Shape → Json → Except CodecError Value} {p : Property}
    (hp : p.isRead = false → p.default?.isSome = true)
    (hdecode : Schema.Reads codec p.shape (decode p.shape)) (members : Members) :
    (codec.decodeProperty decode cls members p).toOption.join =
      (Schema.records.field? codec members (p.lift hp)).map ValueOf.toValue := by
  have hdefault : p.default? = (p.lift hp).default?.map ValueOf.toValue := by
    cases h : p.default? <;> simp [Property.lift, h, ValueOf.toValue]
  have hsome : ∀ j, (some <$> decode p.shape j).toOption.join =
      (Schema.records.valueOf? codec (p.lift hp).shape j).map ValueOf.toValue := by
    intro j
    rw [Property.lift, ← hdecode j]
    cases decode p.shape j <;> rfl
  have hshape : (p.lift hp).shape.acceptsNull = p.shape.acceptsNull := p.shape.acceptsNull_lift
  have hfallback : ∀ e : CodecError,
      (if codec.allowMissing then Except.ok p.default? else .error e).toOption.join =
        (if codec.allowMissing then (p.lift hp).default? else none).map ValueOf.toValue := by
    intro e
    rw [hdefault]
    cases codec.allowMissing <;> rfl
  have hisRead : (p.lift hp).isRead = p.isRead := rfl
  have hkey : (p.lift hp).key = p.key := rfl
  unfold decodeProperty Schema.field? PropertyOf.given?
  rw [hisRead, hkey, hshape]
  cases p.isRead with
  | false => exact hdefault
  | true =>
    simp only [Bool.not_true, Bool.false_eq_true, if_false, if_true]
    cases Ordered.get? members p.key with
    | none => exact hfallback _
    | some j =>
      cases j with
      | null =>
        cases p.shape.acceptsNull with
        | false => exact hfallback _
        | true => exact hsome .null
      | _ => exact hsome _

theorem knows_records (cls : RecordClass) (key : Text) : Schema.records.knows cls key = true ↔
    key ∈ (cls.properties.filter (·.isRead)).map (·.key) := by
  rw [Schema.knows_iff]
  simp only [Schema.records, List.mem_pmap, List.mem_map, List.mem_filter]
  constructor
  · rintro ⟨_, ⟨p, hp, rfl⟩, hread, hkey⟩
    exact ⟨p, ⟨hp, hread⟩, hkey⟩
  · rintro ⟨p, ⟨hp, hread⟩, hkey⟩
    exact ⟨_, ⟨p, hp, rfl⟩, hread, hkey⟩

theorem unknownKeys_eq_nil_iff (cls : RecordClass) (members : Members) :
    unknownKeys cls members = [] ↔ members.all (Schema.records.knows cls ·.1) = true := by
  unfold unknownKeys
  rw [← List.length_eq_zero_iff, List.length_mergeSort, List.length_eq_zero_iff,
    List.filter_eq_nil_iff]
  simp [knows_records, and_assoc]

theorem reads_decodeRecord {decode : Shape → Json → Except CodecError Value}
    (hdecode : ∀ p ∈ cls.properties, Schema.Reads codec p.shape (decode p.shape)) :
    Schema.Reads codec (.record cls) (codec.decodeRecord decode cls) := by
  intro j
  cases j with
  | object members =>
    have hfields : ((Schema.records cls).mapM (Schema.records.field? codec members)).map
        (·.map ValueOf.toValue) =
        cls.properties.mapM fun p => (codec.decodeProperty decode cls members p).toOption.join := by
      rw [← Optional.mapM_map]
      apply Optional.mapM_pmap
      intro p hp hdefault
      exact (reads_decodeProperty hdefault (hdecode p hp) members).symm
    have hunknown : unknownKeys cls members ≠ [] ∧ (!codec.ignoreUnknown) = true ↔
        ¬(codec.ignoreUnknown || members.all (Schema.records.knows cls ·.1)) = true := by
      rw [ne_eq, unknownKeys_eq_nil_iff]
      cases codec.ignoreUnknown <;> simp
    rw [← filterMap_of_mapM] at hfields
    rw [Shape.lift, Schema.valueOf?_record]
    generalize (Schema.records cls).mapM (Schema.records.field? codec members) = found at hfields ⊢
    unfold decodeRecord
    cases hdecoded : cls.properties.mapM (codec.decodeProperty decode cls members) with
    | error e =>
      rw [hdecoded] at hfields
      obtain rfl := Option.map_eq_none_iff.mp hfields
      simp only [hdecoded, Result.bind_error]
      split <;> rfl
    | ok fields =>
      rw [hdecoded] at hfields
      simp only [hdecoded, Result.bind_ok, hunknown]
      by_cases hknown : (codec.ignoreUnknown || members.all (Schema.records.knows cls ·.1)) = true
      · by_cases hmissing : (cls.properties.zip fields).filter (·.2.isNone) = []
        · obtain ⟨vs, rfl, hvs⟩ : ∃ vs, found = some vs ∧ vs.map ValueOf.toValue =
              fields.filterMap id := by
            simpa [Except.toOption, hmissing] using hfields
          simp [hknown, hmissing, hvs, ValueOf.toValue, Except.toOption]
        · obtain rfl : found = none := by
            simpa [Except.toOption, hmissing] using hfields
          simp [hknown, hmissing, Except.toOption]
      · simp [hknown, Except.toOption]
  | _ => simp [decodeRecord, Shape.lift, Schema.valueOf?, ShapeOf.plain?, Except.toOption]

theorem reads_decodeClass {rank : Nat} (h : cls.rank ≤ rank) :
    Schema.Reads codec (.record cls) (codec.decodeClass rank cls) := by
  induction rank generalizing cls with
  | zero =>
    apply reads_decodeRecord
    intro p hp
    apply Shape.reads_decodeWith
    intro inner hinner
    have hlt := cls.rank_lt p hp inner hinner
    omega
  | succ rank ih =>
    apply reads_decodeRecord
    intro p hp
    apply Shape.reads_decodeWith
    intro inner hinner
    have hlt := cls.rank_lt p hp inner hinner
    exact ih (by omega)

theorem reads_decodeShape (codec : Codec) (shape : Shape) :
    Schema.Reads codec shape (codec.decodeShape shape) := by
  apply Shape.reads_decodeWith
  intro cls _
  exact reads_decodeClass le_rfl

theorem toOption_decode (codec : Codec) (t : Text) (shape : Shape) :
    (codec.decode t shape).toOption =
      (Schema.records.decode? codec t shape.lift).map ValueOf.toValue := by
  unfold decode Schema.decode?
  cases Json.read t with
  | error e => cases e <;> rfl
  | ok j =>
    have herror : ∀ r : Except CodecError Value,
        (r.mapError Refusal.codec).toOption = r.toOption := by
      rintro (e | v) <;> rfl
    exact (herror _).trans (reads_decodeShape codec shape j)

end Codec

end CatalogCache
