import CatalogCache.Catalog
import CatalogCache.Json
import CatalogCache.RecordClass

/-!
# Values

What flows through a client. Most of it is records and lists of records, but nothing keeps a
remote from answering with something else, so every kind of value has its place here.
-/

namespace CatalogCache

inductive Value
  | null
  | bool (b : Bool)
  | int (i : Int)
  | real (x : Binary64)
  | text (t : Text)
  | bytes (b : List UInt8)
  | duration (d : Duration)
  | catalog (c : Catalog)
  | recordClass (c : RecordClass)
  | bare
  | list (items : List Value)
  | tuple (items : List Value)
  | set (items : List Value)
  | dict (entries : List (Value × Value))
  /-- A record with the values of its properties, in their order. -/
  | record (cls : RecordClass) (fields : List Value)

namespace Value

def typeName : Value → Text
  | null => "NoneType"
  | bool _ => "bool"
  | int _ => "int"
  | real _ => "float"
  | text _ => "str"
  | bytes _ => "bytes"
  | duration _ => "timedelta"
  | catalog _ => "ResourceKind"
  | recordClass _ => "type"
  | bare => "object"
  | list _ => "list"
  | tuple _ => "tuple"
  | set _ => "set"
  | dict _ => "dict"
  | record cls _ => cls.name

/-- The word for the kind with the family of kinds in front, where it belongs to one. -/
def fullTypeName : Value → Text
  | duration _ => "datetime.timedelta"
  | v => v.typeName

def isText : Value → Bool
  | text _ => true
  | _ => false

/-- Absent, zero and empty values are false. All others are true. -/
def isTrue : Value → Bool
  | null => false
  | bool b => b
  | int i => i != 0
  | real x => !x.isZero
  | text t => t != []
  | bytes b => b != []
  | duration d => d.micros != 0
  | list items | tuple items | set items => !items.isEmpty
  | dict entries => !entries.isEmpty
  | catalog _ | recordClass _ | bare | record .. => true

/-- The value itself if it is true, else the empty text. -/
def orEmpty (v : Value) : Value := if v.isTrue then v else text []

/-! ## Documents as values -/

mutual

def ofJson : Json → Value
  | .null => null
  | .bool b => bool b
  | .int i => int i
  | .real x => real x
  | .text t => text t
  | .list items => list (ofJsonItems items)
  | .object members => dict (ofJsonMembers members)

def ofJsonItems : List Json → List Value
  | [] => []
  | item :: rest => ofJson item :: ofJsonItems rest

def ofJsonMembers : List (Text × Json) → List (Value × Value)
  | [] => []
  | (name, value) :: rest => (text name, ofJson value) :: ofJsonMembers rest

end

/-! ## Equality

Numbers are compared by what they stand for, across kinds, and so are truth values. A number that
is none equals nothing, and neither does a value without any content.
-/

/-- What a value counts for if it is an integer or a truth value. -/
def asInt? : Value → Option Int
  | bool b => some (if b then 1 else 0)
  | int i => some i
  | real x => x.toInt?
  | _ => none

mutual

def equal : Value → Value → Bool
  | null, null => true
  | text s, text t => s = t
  | bytes s, bytes t => s = t
  | duration s, duration t => s = t
  | catalog s, catalog t => s = t
  | recordClass s, recordClass t => s = t
  | list s, list t | tuple s, tuple t | set s, set t => equalItems s t
  | dict s, dict t => equalEntries s t
  | record c s, record d t => c = d && equalItems s t
  | real x, real y => x != .nan && x = y || x.isZero && y.isZero
  | v, w => match v.asInt?, w.asInt? with
    | some i, some j => i = j
    | _, _ => false

def equalItems : List Value → List Value → Bool
  | [], [] => true
  | v :: s, w :: t => equal v w && equalItems s t
  | _, _ => false

def equalEntries : List (Value × Value) → List (Value × Value) → Bool
  | [], [] => true
  | (k, v) :: s, (l, w) :: t => equal k l && equal v w && equalEntries s t
  | _, _ => false

end

/-- Entries with a value set: at the place of the key if it is there, else at the end. -/
def insertEntry (entries : List (Value × Value)) (key value : Value) : List (Value × Value) :=
  match entries with
  | [] => [(key, value)]
  | entry :: rest =>
    if entry.1.equal key then (entry.1, value) :: rest
    else entry :: insertEntry rest key value

/-- The dictionary of a list of entries. The last value of a key counts, at the place of the
first. -/
def dictOf (entries : List (Value × Value)) : Value :=
  dict (entries.foldl (fun dict entry => insertEntry dict entry.1 entry.2) [])

end Value

end CatalogCache
