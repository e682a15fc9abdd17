import CatalogCache.Codec

/-!
# Decoding

From a document to a value of a shape. Nothing is converted: an integer in place of a real stays
an integer, and a truth value is never a number. What a value of a shape is says `Inhabits`.
-/

namespace CatalogCache

namespace Shape

def decodeWith (record : RecordClass → Json → Except CodecError Value) :
    Shape → Json → Except CodecError Value
  | .bool, .bool b => .ok (.bool b)
  | .bool, j => .error (.wrongType "bool" j.typeName)
  | .int, .int i => .ok (.int i)
  | .int, j => .error (.wrongType "int" j.typeName)
  | .real, .real x => .ok (.real x)
  | .real, .int i => .ok (.int i)
  | .real, j => .error (.wrongType "float" j.typeName)
  | .text, .text t => .ok (.text t)
  | .text, j => .error (.wrongType "str" j.typeName)
  | .listOfAnything, .list items => .ok (.list (Value.ofJsonItems items))
  | .listOfAnything, j => .error (.notList j.typeName)
  | .list item, .list items => .list <$> items.mapM (decodeWith record item)
  | .list _, j => .error (.notList j.typeName)
  | .optional _, .null => .ok .null
  | .optional shape, j => decodeWith record shape j
  | .record cls, j => record cls j
  | .anything, j | .nothing, j | .anyList, j | .anyDict, j | .choice _, j => .ok (Value.ofJson j)

end Shape

namespace Codec

/-- The value of one property, or none if there is neither a member nor a default. Null for a
property that does not accept it reads like an absent member. -/
def decodeProperty (codec : Codec) (decode : Shape → Json → Except CodecError Value)
    (cls : RecordClass) (members : Members) (p : Property) : Except CodecError (Option Value) :=
  if !p.isRead then .ok p.default?
  else match Ordered.get? members p.key with
    | some .null =>
      if p.shape.acceptsNull then some <$> decode p.shape .null
      else if codec.allowMissing then .ok p.default?
      else .error (.nullProperty p.key cls)
    | some j => some <$> decode p.shape j
    | none => if codec.allowMissing then .ok p.default? else .error (.missingProperty p.key cls)

def unknownKeys (cls : RecordClass) (members : Members) : List Text :=
  let known := (cls.properties.filter (·.isRead)).map (·.key)
  ((members.map (·.1)).filter (!known.contains ·)).mergeSort fun a b => !(b < a)

def decodeRecord (codec : Codec) (decode : Shape → Json → Except CodecError Value)
    (cls : RecordClass) : Json → Except CodecError Value
  | .object members => do
    let fields ← cls.properties.mapM (codec.decodeProperty decode cls members)
    let unknown := unknownKeys cls members
    if unknown ≠ [] ∧ !codec.ignoreUnknown then throw (.unknownProperties cls unknown)
    let missing := (cls.properties.zip fields).filter (·.2.isNone)
    if missing ≠ [] then throw (.incomplete cls (missing.map (·.1.name)))
    return .record cls (fields.filterMap id)
  | j => .error (.notObject cls j.typeName)

/-- Decodes records whose classes have at most the given rank. A class of rank zero has no records
in it. -/
def decodeClass (codec : Codec) : Nat → RecordClass → Json → Except CodecError Value
  | 0 => codec.decodeRecord (Shape.decodeWith fun cls j => .error (.notObject cls j.typeName))
  | rank + 1 => codec.decodeRecord (Shape.decodeWith (codec.decodeClass rank))

def decodeShape (codec : Codec) : Shape → Json → Except CodecError Value :=
  Shape.decodeWith fun cls => codec.decodeClass cls.rank cls

/-- Why a text gives no value. An integer that is too long is not the codec's own error. -/
inductive Refusal
  | codec (e : CodecError)
  | longInteger (digits : Nat)
deriving DecidableEq

def decode (codec : Codec) (t : Text) (shape : Shape) : Except Refusal Value :=
  match Json.read t with
  | .error (.syntaxError e) => .error (.codec (.syntaxError e))
  | .error (.depth _) => .error (.codec .depth)
  | .error (.longInteger digits) => .error (.longInteger digits)
  | .ok j => (codec.decodeShape shape j).mapError .codec

end Codec

/-- What the values of a shape are. Choices and untyped containers take every value, and a field of
a record may also keep the default of its property. -/
inductive Inhabits : Value → Shape → Prop
  | bool (b : Bool) : Inhabits (.bool b) .bool
  | int (i : Int) : Inhabits (.int i) .int
  | real (x : Binary64) : Inhabits (.real x) .real
  | intAsReal (i : Int) : Inhabits (.int i) .real
  | text (t : Text) : Inhabits (.text t) .text
  | anything (v : Value) : Inhabits v .anything
  | nothing (v : Value) : Inhabits v .nothing
  | anyList (v : Value) : Inhabits v .anyList
  | anyDict (v : Value) : Inhabits v .anyDict
  | listOfAnything (items : List Value) : Inhabits (.list items) .listOfAnything
  | list {items : List Value} {item : Shape} (h : ∀ v ∈ items, Inhabits v item) :
    Inhabits (.list items) (.list item)
  | null (shape : Shape) : Inhabits .null (.optional shape)
  | optional {v : Value} {shape : Shape} (h : Inhabits v shape) : Inhabits v (.optional shape)
  | choice (v : Value) (nullable : Bool) : Inhabits v (.choice nullable)
  | record {cls : RecordClass} {fields : List Value}
    (size : fields.length = cls.properties.length)
    (h : ∀ entry ∈ cls.properties.zip fields,
      entry.1.default? ≠ some entry.2 → Inhabits entry.2 entry.1.shape) :
    Inhabits (.record cls fields) (.record cls)

end CatalogCache
