import CatalogCache.Duration

/-!
# Catalogs

The four read-only lists of a tracker that are kept on disk.
-/

namespace CatalogCache

inductive Catalog
  | issueTypes
  | statuses
  | priorities
  | resolutions
deriving DecidableEq

namespace Catalog

/-- All catalogs, in the order in which settings and reports go through them. -/
def all : List Catalog := [issueTypes, statuses, priorities, resolutions]

def name : Catalog → Text
  | issueTypes => "ISSUE_TYPES"
  | statuses => "STATUSES"
  | priorities => "PRIORITIES"
  | resolutions => "RESOLUTIONS"

/-- The name of its file in the directory of an account. -/
def fileName : Catalog → Text
  | issueTypes => "issue-types.json"
  | statuses => "statuses.json"
  | priorities => "priorities.json"
  | resolutions => "resolutions.json"

/-- What messages call it. -/
def label : Catalog → Text
  | issueTypes => "issue types"
  | statuses => "statuses"
  | priorities => "priorities"
  | resolutions => "resolutions"

/-- What messages call one of its entries. -/
def entryLabel : Catalog → Text
  | issueTypes => "issue type"
  | statuses => "status"
  | priorities => "priority"
  | resolutions => "resolution"

/-- The environment variable that sets how many hours it stays fresh. -/
def lifetimeVariable (c : Catalog) : Text := "JIRA_CACHE_TTL_" ++ c.name

/-- Issue types change with the projects, the others only with the workflows. -/
def defaultLifetime : Catalog → Duration
  | issueTypes => Duration.days 1
  | _ => Duration.days 30

def ofName? (t : Text) : Option Catalog := all.find? (·.name = t)

def ofFileName? (t : Text) : Option Catalog := all.find? (·.fileName = t)

end Catalog

abbrev PerCatalog (α : Type) := Catalog → α

end CatalogCache
