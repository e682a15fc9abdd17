import CatalogCache.Failure

/-!
# Payloads

How records are built from the documents that a site answers with.
-/

namespace CatalogCache.Payload

/-! ## Members -/

/-- A number, or a text that shows one. Everything else is no number, also a truth value. -/
def toInt : Json → Except Failure (Option Int)
  | .int i => .ok (some i)
  | .text t =>
    if t.strip ≠ [] ∧ t.strip.all CodePoint.isDigit then
      let digits := (t.stripNumeral.takeWhile (·.decimal?.isSome)).filterMap (·.decimal?)
      if Integer.maxDigits < digits.length then .error (.longInteger digits.length)
      else if digits.length = t.stripNumeral.length then .ok (some (Integer.ofDigits digits))
      else .error (.notNumber t)
    else .ok none
  | _ => .ok none

/-- What a member shows, unless it is null. -/
def text : Json → Option Text
  | .null => none
  | j => some j.display

/-- How a member becomes a property. -/
inductive Reading
  /-- As it is, or the empty text if it is not true. -/
  | orEmpty
  | number
  | text
  /-- Whether it is true. -/
  | flag
  /-- What it shows, null too; the empty text if it is absent. -/
  | label
  /-- The category of a status. -/
  | category
deriving DecidableEq

/-- The members that the properties of a record are read from, in the order of its properties. -/
def readings : RecordClass → List (Text × Reading)
  | .issueType =>
    [("self", .orEmpty), ("id", .number), ("name", .orEmpty), ("subtask", .flag),
      ("description", .text), ("iconUrl", .text)]
  | .statusCategory =>
    [("self", .text), ("id", .number), ("key", .orEmpty), ("name", .orEmpty),
      ("colorName", .text)]
  | .issueStatus =>
    [("self", .orEmpty), ("id", .number), ("name", .orEmpty), ("description", .text),
      ("iconUrl", .text), ("statusCategory", .category)]
  | .priority =>
    [("self", .orEmpty), ("id", .number), ("name", .orEmpty), ("statusColor", .text),
      ("description", .text), ("iconUrl", .text)]
  | .resolution =>
    [("self", .orEmpty), ("id", .number), ("name", .orEmpty), ("description", .text)]
  | .issueLinkType =>
    [("self", .text), ("id", .label), ("name", .orEmpty), ("inward", .orEmpty),
      ("outward", .orEmpty)]
  | .field =>
    [("id", .label), ("name", .orEmpty), ("custom", .flag), ("orderable", .flag),
      ("navigable", .flag), ("searchable", .flag)]
  | .serverInfo =>
    [("baseUrl", .orEmpty), ("version", .orEmpty), ("buildNumber", .number),
      ("serverTitle", .text), ("deploymentType", .text)]
  | _ => []

def optionalText : Option Text → Value
  | some t => .text t
  | none => .null

def optionalInt : Option Int → Value
  | some i => .int i
  | none => .null

/-! ## Records -/

/-- The value of a property. `nested` builds the category of a status. -/
def Reading.value (nested : Json → Except Failure Value) (reading : Reading)
    (member : Option Json) : Except Failure Value :=
  let j := member.getD .null
  match reading with
  | orEmpty => .ok (Value.ofJson j).orEmpty
  | number => optionalInt <$> toInt j
  | text => .ok (optionalText (Payload.text j))
  | flag => .ok (.bool j.isTrue)
  | label => .ok (.text ((member.map Json.display).getD []))
  | category => nested j

def record (nested : Json → Except Failure Value) (cls : RecordClass) (members : Members) :
    Except Failure Value :=
  .record cls <$> (readings cls).mapM fun (key, reading) =>
    reading.value nested (Ordered.get? members key)

def statusCategory : Json → Except Failure Value
  | .object members => record (fun _ => .ok .null) .statusCategory members
  | _ => .ok .null

def build (cls : RecordClass) (j : Json) : Except Failure Value :=
  if cls = .statusCategory then statusCategory j
  else match j with
    | .object members => record statusCategory cls members
    | j => .error (.noProperty j.typeName "get")

end CatalogCache.Payload
