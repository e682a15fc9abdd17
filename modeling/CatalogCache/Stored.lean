import CatalogCache.Value.Property

/-!
# Stored records

Each catalog is stored as records of a class of its own. A stored record has the properties of the
record that clients answer with, in the same order, but any of them may be null.
-/

namespace CatalogCache

def Catalog.stored : Catalog → RecordClass
  | .issueTypes => .storedIssueType
  | .statuses => .storedStatus
  | .priorities => .storedPriority
  | .resolutions => .storedResolution

/-- The class of the records that a catalog is answered with. -/
def Catalog.entryClass : Catalog → RecordClass
  | .issueTypes => .issueType
  | .statuses => .issueStatus
  | .priorities => .priority
  | .resolutions => .resolution

/-- The class of the records that a stored record stands for. -/
def RecordClass.answered : RecordClass → RecordClass
  | .storedIssueType => .issueType
  | .storedStatusCategory => .statusCategory
  | .storedStatus => .issueStatus
  | .storedPriority => .priority
  | .storedResolution => .resolution
  | other => other

namespace Stored

/-- The stored record of a class, with the properties of a value. -/
def pack (cls : RecordClass) (v : Value) : Except Failure Value :=
  .record cls <$> cls.properties.mapM fun p => v.property p.name

/-- The stored record of a status. Its category is looked up first, and packed last. -/
def packStatus (v : Value) : Except Failure Value := do
  let category ← v.property "status_category"
  let fields ← (RecordClass.storedStatus.properties.dropLast).mapM fun p => v.property p.name
  let packed ← if category.isTrue then pack .storedStatusCategory category else .ok .null
  return .record .storedStatus (fields ++ [packed])

/-- The stored form of a value that a client answered with. -/
def ofAnswered (cls : RecordClass) (v : Value) : Except Failure Value :=
  if cls = .storedStatus then packStatus v else pack cls v

/-- A property of an answered record. One that has to be a text is empty where nothing is stored. -/
def unpackField (p : Property) (v : Value) : Value :=
  if p.default? = none ∧ p.shape = .text then v.orEmpty else v

/-- The answered form of a stored record without the records in it. -/
def unpackFlat : Value → Value
  | .record cls fields =>
    .record cls.answered
      ((cls.answered.properties.zip fields).map fun entry => unpackField entry.1 entry.2)
  | v => v

/-- The answered form of a stored record. -/
def toAnswered : Value → Value
  | .record .storedStatus fields =>
    unpackFlat (.record .storedStatus (fields.map fun
      | .record cls fields => unpackFlat (.record cls fields)
      | v => v))
  | v => unpackFlat v

end Stored

end CatalogCache
