import CatalogCache.Proofs.Edits
import CatalogCache.Proofs.Encoding

/-!
# What is written stays as it is

A text that is decoded and encoded again comes to a form in which it stays. What was read may differ
from what is read then, for a dictionary is read where a record was the default. What is written for
both is the same.
-/

namespace CatalogCache

variable {C : Type}

/-! ## Settled values -/

/-- Every value is taken as it is. -/
def ShapeOf.takesAll : ShapeOf C → Bool
  | anything | nothing | anyList | anyDict | choice _ => true
  | _ => false

/-- What a value of a shape is that may be written in place of a document: it is of the shape, and
what is not read in a record is as it is by default. A list of plain values counts as one. -/
inductive Schema.Settled (S : Schema C) : ValueOf C → ShapeOf C → Prop
  | bool (b : Bool) : S.Settled (.plain (.bool b)) .bool
  | int (i : Int) : S.Settled (.plain (.int i)) .int
  | real (x : Binary64) : S.Settled (.plain (.real x)) .real
  | intAsReal (i : Int) : S.Settled (.plain (.int i)) .real
  | text (t : Text) : S.Settled (.plain (.text t)) .text
  | free (v : ValueOf C) {shape : ShapeOf C} (h : shape.takesAll = true) : S.Settled v shape
  | listOfAnything (items : List Value) : S.Settled (.plain (.list items)) .listOfAnything
  | list {items : List (ValueOf C)} {item : ShapeOf C} (h : ∀ v ∈ items, S.Settled v item) :
    S.Settled (.list items) (.list item)
  | plainList {items : List Value} {item : ShapeOf C}
    (h : ∀ v ∈ items, S.Settled (.plain v) item) : S.Settled (.plain (.list items)) (.list item)
  | null (shape : ShapeOf C) : S.Settled (.plain .null) (.optional shape)
  | optional {v : ValueOf C} {shape : ShapeOf C} (h : S.Settled v shape) :
    S.Settled v (.optional shape)
  | record {cls : C} {fields : List (ValueOf C)} (size : fields.length = (S cls).length)
    (given : ∀ entry ∈ (S cls).zip fields, entry.1.isRead = true → entry.2 ≠ .plain .null →
      S.Settled entry.2 entry.1.shape)
    (null : ∀ entry ∈ (S cls).zip fields, entry.1.isRead = true → entry.2 = .plain .null →
      entry.1.shape.acceptsNull = true ∨ entry.1.default? = some entry.2)
    (unread : ∀ entry ∈ (S cls).zip fields, entry.1.isRead = false →
      entry.1.default? = some entry.2) :
    S.Settled (.record cls fields) (.record cls)

/-- Each key has one property, and each default is null or of the shape of its property. -/
structure Schema.IsSound (S : Schema C) : Prop where
  keys : ∀ cls, ((S cls).map (·.key)).Nodup
  valid : ∀ cls, ∀ p ∈ S cls, ∀ v, p.default? = some v → v.IsValid
  settled : ∀ cls, ∀ p ∈ S cls, p.isRead = true → ∀ v, p.default? = some v → v ≠ .plain .null →
    S.Settled v p.shape

namespace Schema

variable {S : Schema C} {codec : Codec} {shape : ShapeOf C} {j : Json} {v : ValueOf C}

/-! ## What is read is settled -/

/-- The document has a value of the shape, and is what is written for it. -/
def Restores (S : Schema C) (depth : Nat) (shape : ShapeOf C) (j : Json) : Prop :=
  ∃ v, S.valueOf? Codec.tolerant shape j = some v ∧ v.WrittenAs S depth j

end Schema

/-! ## The classes of the catalogs -/

namespace RecordClass

end RecordClass

end CatalogCache
