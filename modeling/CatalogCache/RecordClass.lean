import CatalogCache.Text

/-!
# Record classes

The records that clients answer with, the records that the cache stores, and a sample record that
has a property of every shape.
-/

namespace CatalogCache

inductive RecordClass
  | issueType
  | statusCategory
  | issueStatus
  | priority
  | resolution
  | issueLinkType
  | field
  | serverInfo
  | storedIssueType
  | storedStatusCategory
  | storedStatus
  | storedPriority
  | storedResolution
  | sample
deriving DecidableEq

namespace RecordClass

def all : List RecordClass :=
  [issueType, statusCategory, issueStatus, priority, resolution, issueLinkType, field, serverInfo,
    storedIssueType, storedStatusCategory, storedStatus, storedPriority, storedResolution, sample]

def name : RecordClass → Text
  | issueType => "IssueType"
  | statusCategory => "StatusCategory"
  | issueStatus => "IssueStatus"
  | priority => "Priority"
  | resolution => "Resolution"
  | issueLinkType => "IssueLinkType"
  | field => "Field"
  | serverInfo => "ServerInfo"
  | storedIssueType => "CachedIssueType"
  | storedStatusCategory => "CachedStatusCategory"
  | storedStatus => "CachedStatus"
  | storedPriority => "CachedPriority"
  | storedResolution => "CachedResolution"
  | sample => "Sample"

/-- A class as it shows inside a message, with the place where it belongs. -/
def literal (c : RecordClass) : Text :=
  let place : Text := match c with
    | issueType | statusCategory | issueStatus | priority | resolution | issueLinkType | field
    | serverInfo => "metadata_client_interface.metadata."
    | storedIssueType | storedStatusCategory | storedStatus | storedPriority | storedResolution =>
      "metadata_cache.models."
    | sample => "__main__."
  List.flatten ["<class '", place, c.name, "'>"]

def ofName? (t : Text) : Option RecordClass := all.find? (·.name = t)

end RecordClass

end CatalogCache
