import CatalogCache.Disk.Save
import CatalogCache.Request

/-!
# The world

What a client acts on: a disk, a clock, remotes and a server. What happens is kept in a trace, in
order, and a remote may answer by what it was asked before.
-/

namespace CatalogCache

/-! ## The trace -/

inductive Level
  | debug
  | warning
deriving DecidableEq

def Level.name : Level → Text
  | debug => "DEBUG"
  | warning => "WARNING"

inductive Topic
  | cacheFile
  | cachedClient
  | site
deriving DecidableEq

def Topic.name : Topic → Text
  | cacheFile => "metadata_cache.entry"
  | cachedClient => "metadata_cache.cached_client"
  | site => "jira_client_impl.jira_impl"

structure LogLine where
  level : Level
  topic : Topic
  message : Text
deriving DecidableEq

inductive Event
  | log (line : LogLine)
  /-- A request that reached a remote. -/
  | asked (remote : Text) (r : Request)
  /-- A request that went out to a server. -/
  | sent (uri params : Value)
  /-- A file that has got a new content. -/
  | saved (path : FilePath)

/-! ## Remotes and servers -/

/-- A remote answers a request by the requests that reached it before. -/
abbrev Remote := List Request → Request → Reply

structure HttpReply where
  status : Int
  body : Text
  url : Text

/-- A server answers a request by the addresses that were asked for before. -/
abbrev Server := List Value → Value → Except Failure HttpReply

structure World where
  disk : Disk
  now : Instant
  faults : Faults
  remotes : Text → Remote
  server : Server
  trace : List Event

namespace World

def record (w : World) (e : Event) : World := { w with trace := w.trace ++ [e] }

def askedOf (w : World) (remote : Text) : List Request :=
  w.trace.filterMap fun
    | .asked name r => if name = remote then some r else none
    | _ => none

def sent (w : World) : List Value :=
  w.trace.filterMap fun
    | .sent uri _ => some uri
    | _ => none

def log (w : World) : List LogLine :=
  w.trace.filterMap fun
    | .log line => some line
    | _ => none

end World

/-! ## Actions -/

/-- A change of the world that gives a result or fails. A failure keeps the changes before it. -/
abbrev Action := ExceptT Failure (StateM World)

namespace Action

def record (e : Event) : Action Unit := modify (·.record e)

def log (level : Level) (topic : Topic) (message : List Text) : Action Unit :=
  record (.log ⟨level, topic, message.flatten⟩)

def ofExcept {α : Type} : Except Failure α → Action α
  | .ok a => pure a
  | .error e => throw e

def ofFile {α : Type} (r : Except FileError α) : Action α := ofExcept (r.mapError .file)

/-- The action with its failure, if it has one, as its result. -/
def attempt {α : Type} (a : Action α) : Action (Except Failure α) :=
  ExceptT.mk do
    let r ← a.run
    return .ok r

def ask (remote : Text) (r : Request) : Action Answer := do
  let w ← get
  record (.asked remote r)
  ofExcept (w.remotes remote (w.askedOf remote) r)

def send (uri params : Value) : Action HttpReply := do
  let w ← get
  record (.sent uri params)
  ofExcept (w.server w.sent uri)

end Action

end CatalogCache
