import CatalogCache.Failure

/-!
# Properties of values

Records have properties. A class has the defaults of its records, and a catalog has a name. No
other value has any.
-/

namespace CatalogCache.Value

/-- The value of a property of a class itself: its default, unless that is a list of its own. -/
def classProperty? (cls : RecordClass) (name : Text) : Option Value :=
  match (cls.properties.find? (·.name = name)).bind (·.default?) with
  | some (.list _) | none => none
  | some v => some v

def lacks (v : Value) (name : Text) : Failure :=
  match v with
  | recordClass cls => .noClassProperty cls name
  | v => .noProperty v.fullTypeName name

def property (v : Value) (name : Text) : Except Failure Value :=
  match v with
  | record cls fields =>
    match ((cls.properties.map (·.name)).zip fields).find? (·.1 = name) with
    | some entry => .ok entry.2
    | none => .error (v.lacks name)
  | catalog c => if name = "name" then .ok (text c.name) else .error (v.lacks name)
  | recordClass cls =>
    match classProperty? cls name with
    | some v => .ok v
    | none => .error (v.lacks name)
  | _ => .error (v.lacks name)

end CatalogCache.Value
