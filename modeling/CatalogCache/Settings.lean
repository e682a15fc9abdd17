import CatalogCache.Client

/-!
# Settings

Where the cache lives, whose it is and how long each catalog stays fresh, as the environment says.
Blank variables count as unset.
-/

namespace CatalogCache

/-- The variables that are set, with their values. -/
abbrev Environment := Ordered Text

namespace Environment

/-- The value of a variable without blanks around it, or the empty text. -/
def value (env : Environment) (name : Text) : Text := ((Ordered.get? env name).getD []).strip

end Environment

structure Settings where
  root : FilePath
  account : Text
  lifetimes : PerCatalog Duration

namespace Settings

def rootVariable : Text := "JIRA_CACHE_DIR"
def accountVariable : Text := "JIRA_ACCOUNT"
def defaultAccount : Text := "default"

/-- Where caches are kept if nothing else is said. -/
def defaultRoot (homes : Homes) (env : Environment) : Except Failure FilePath :=
  let place := env.value "XDG_CACHE_HOME"
  let base := if place = [] then (FilePath.ofText homes.own).child ".cache"
    else FilePath.ofText place
  (base.child "jira-metadata").expandHome homes

def readRoot (homes : Homes) (env : Environment) : Except Failure FilePath :=
  let place := env.value rootVariable
  if place = [] then defaultRoot homes env else (FilePath.ofText place).expandHome homes

/-- A lifetime in hours, as the variable `name` gives it. -/
def readHours (name raw : Text) : Except Failure Duration :=
  match Binary64.read? raw with
  | none => .error (.hours name raw)
  | some hours =>
    if hours.isNegative then .error (.negativeHours name raw)
    else (Duration.ofHours hours).mapError .duration

def readLifetime (env : Environment) (c : Catalog) : Except Failure Duration :=
  let raw := env.value c.lifetimeVariable
  if raw = [] then .ok c.defaultLifetime else readHours c.lifetimeVariable raw

/-- Reads the environment: first the root, then the lifetimes in the order of the catalogs. -/
def read (homes : Homes) (env : Environment) : Except Failure Settings := do
  let root ← readRoot homes env
  let account := env.value accountVariable
  let issueTypes ← readLifetime env .issueTypes
  let statuses ← readLifetime env .statuses
  let priorities ← readLifetime env .priorities
  let resolutions ← readLifetime env .resolutions
  return {
    root := root
    account := if account = [] then defaultAccount else account
    lifetimes := fun
      | .issueTypes => issueTypes
      | .statuses => statuses
      | .priorities => priorities
      | .resolutions => resolutions }

/-- The cached client of an account over another client. -/
def cached (homes : Homes) (s : Settings) (account : Value) (inner : Client) :
    Except Failure Client := do
  let store ← Store.at? homes s.root
  return .cached (← Cached.of account store s.lifetimes) inner

end Settings

end CatalogCache
