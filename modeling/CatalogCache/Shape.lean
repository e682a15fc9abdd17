import CatalogCache.Value

/-!
# Shapes and schemas

A shape says what kind of value a property or a whole document holds. A schema is the list of the
properties of a record class.
-/

namespace CatalogCache

inductive Shape
  | bool
  | int
  | real
  | text
  | anything
  /-- Meant for null, but every value is taken as it is. -/
  | nothing
  /-- Meant for a list with items of any kind, but every value is taken as it is. -/
  | anyList
  /-- Meant for an object, but every value is taken as it is. -/
  | anyDict
  /-- A list whose items are taken as they are. -/
  | listOfAnything
  | list (item : Shape)
  | optional (shape : Shape)
  /-- One of several shapes. Every value is taken as it is. -/
  | choice (nullable : Bool)
  | record (cls : RecordClass)
deriving DecidableEq

namespace Shape

/-- Null is a value of the shape, and not the sign that there is none. -/
def acceptsNull : Shape → Bool
  | anything | nothing | optional _ | choice true => true
  | _ => false

end Shape

structure Property where
  name : Text
  key : Text
  shape : Shape
  /-- Its value where none is given. -/
  default? : Option Value
  /-- It is read from documents, and not only written. -/
  isRead : Bool

namespace Property

def required (name : Text) (shape : Shape) : Property := ⟨name, name, shape, none, true⟩

def optional (name : Text) (shape : Shape) (value : Value) : Property :=
  ⟨name, name, shape, some value, true⟩

def keyed (p : Property) (key : Text) : Property := { p with key := key }

/-- A property that may be null, and is if it is not given. -/
def nullable (name : Text) (shape : Shape) : Property := optional name (.optional shape) .null

end Property

namespace RecordClass

open Property

/-- The properties of a class, in order. -/
def properties : RecordClass → List Property
  | issueType =>
    [required "self_uri" .text, required "id" (.optional .int), required "name" .text,
      optional "is_subtask" .bool (.bool false), nullable "description" .text,
      nullable "icon_uri" .text]
  | statusCategory =>
    [required "self_uri" (.optional .text), required "id" (.optional .int), required "key" .text,
      required "name" .text, nullable "color_name" .text]
  | issueStatus =>
    [required "self_uri" .text, required "id" (.optional .int), required "name" .text,
      nullable "description" .text, nullable "icon_url" .text,
      nullable "status_category" (.record statusCategory)]
  | priority =>
    [required "self_uri" .text, required "id" (.optional .int), required "name" .text,
      nullable "status_color" .text, nullable "description" .text, nullable "icon_url" .text]
  | resolution =>
    [required "self_uri" .text, required "id" (.optional .int), required "name" .text,
      nullable "description" .text]
  | issueLinkType =>
    [required "self_uri" (.optional .text), required "id" .text, required "name" .text,
      required "inward" .text, required "outward" .text]
  | field =>
    [required "id" .text, required "name" .text, optional "custom" .bool (.bool false),
      optional "orderable" .bool (.bool false), optional "navigable" .bool (.bool false),
      optional "searchable" .bool (.bool false)]
  | serverInfo =>
    [required "base_url" .text, required "version" .text, nullable "build_number" .int,
      nullable "server_title" .text, nullable "deployment_type" .text]
  | storedIssueType =>
    [(nullable "self_uri" .text).keyed "self", nullable "id" .int, nullable "name" .text,
      (optional "is_subtask" .bool (.bool false)).keyed "isSubtask", nullable "description" .text,
      (nullable "icon_uri" .text).keyed "iconUri"]
  | storedStatusCategory =>
    [(nullable "self_uri" .text).keyed "self", nullable "id" .int, nullable "key" .text,
      nullable "name" .text, (nullable "color_name" .text).keyed "colorName"]
  | storedStatus =>
    [(nullable "self_uri" .text).keyed "self", nullable "id" .int, nullable "name" .text,
      nullable "description" .text, (nullable "icon_url" .text).keyed "iconUrl",
      (nullable "status_category" (.record storedStatusCategory)).keyed "statusCategory"]
  | storedPriority =>
    [(nullable "self_uri" .text).keyed "self", nullable "id" .int, nullable "name" .text,
      (nullable "status_color" .text).keyed "statusColor", nullable "description" .text,
      (nullable "icon_url" .text).keyed "iconUrl"]
  | storedResolution =>
    [(nullable "self_uri" .text).keyed "self", nullable "id" .int, nullable "name" .text,
      nullable "description" .text]
  | sample =>
    [required "name" .text, optional "flag" .bool (.bool false), optional "count" .int (.int 0),
      optional "ratio" .real (.real (.zero false)),
      (optional "label" .text (.text "none")).keyed "displayLabel",
      optional "tags" (.list .text) (.list []), optional "matrix" (.list (.list .int)) (.list []),
      optional "children" (.list (.record storedStatusCategory)) (.list []),
      nullable "owner" (.record storedPriority), optional "either" (.choice true) .null,
      optional "pair" (.choice false) (.int 0), nullable "opt" .real,
      optional "anything" .anything .null, optional "nothing" .nothing .null,
      optional "raw" .anyList (.list []), ⟨"computed", "computed", .int, some (.int 7), false⟩]

/-- How deep the classes of its properties nest. -/
def rank : RecordClass → Nat
  | issueStatus | storedStatus | sample => 1
  | _ => 0

end RecordClass

end CatalogCache
