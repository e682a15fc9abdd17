import CatalogCache.CacheFile
import CatalogCache.Homes

/-!
# The store

Under its root each account has a directory, and in it each catalog has a file.
-/

namespace CatalogCache

structure Store where
  root : FilePath
deriving DecidableEq

namespace Store

/-- The store at a path, which may start with a tilde. -/
def at? (homes : Homes) (root : FilePath) : Except Failure Store := do
  return ⟨← root.expandHome homes⟩

/-! ## Account names -/

def isNameStart (c : CodePoint) : Bool := c.isAsciiLetter || c.isAsciiDigit

/-- Dots, underscores and hyphens may stand anywhere but in front. -/
def isNamePart (c : CodePoint) : Bool := isNameStart c || c = 0x2e || c = 0x5f || c = 0x2d

/-- One name of a path, without separators and not hidden. -/
def isAccountName : Text → Bool
  | [] => false
  | c :: rest => isNameStart c && rest.all isNamePart

/-- The account as a name. Every value that is not true counts as an empty text. -/
def accountName (account : Value) : Except Failure Text :=
  if account.isTrue then
    match account with
    | .text t => if isAccountName t then .ok t else .error (.invalidAccount account)
    | .bytes _ => .error .bytesForText
    | other => .error (.notText other.fullTypeName)
  else .error (.invalidAccount account)

/-! ## Places -/

def accountDirectory (s : Store) (account : Value) : Action FilePath := do
  let name ← Action.ofExcept (accountName account)
  let directory := s.root.child name
  let w ← get
  match w.faults .makeDirectory with
  | some fault =>
    set { w with disk := w.disk.ensureLevels w.faults directory fault.kept w.now }
    throw (.cacheWrite directory (.directory fault.error))
  | none =>
    let (disk, r) := w.disk.ensureDirectories w.faults directory w.now
    set { w with disk := disk }
    match r with
    | .ok () => return directory
    | .error (.system e) => throw (.cacheWrite directory (.directory e))
    | .error e => throw (.file e)

def pathFor (s : Store) (account : Value) (c : Catalog) : Action FilePath := do
  return (← s.accountDirectory account).child c.fileName

def file (s : Store) (account : Value) (c : Catalog) : Action CacheFile := do
  return ⟨← s.pathFor account c, .list (.record c.stored), Codec.tolerant⟩

end Store

end CatalogCache
