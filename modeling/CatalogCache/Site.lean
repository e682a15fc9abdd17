import CatalogCache.Payload
import CatalogCache.Stored
import CatalogCache.World

/-!
# Jira sites

The remote behind the cache: a Jira site, asked over its REST interface.
-/

namespace CatalogCache

structure Site where
  /-- Without slashes at the end. -/
  baseUrl : Text
  email : Text
  token : Text
deriving DecidableEq

namespace Site

def of (baseUrl email token : Text) : Site :=
  ⟨Text.dropEndWhile (· = FilePath.slash) baseUrl, email, token⟩

def apiPath : Text := "/rest/api/2"

def url (s : Site) (path : Text) : Text := List.flatten [s.baseUrl, apiPath, path]

/-! ## Replies -/

/-- The statuses of errors. All others count as success, informational ones too. -/
def isError (status : Int) : Bool := 400 ≤ status && status < 600

/-- What the body of an error says: the document in it, or else the body itself. -/
def detail (body : Text) : Text :=
  match Json.read body with
  | .ok j => j.display
  | .error _ => body

def document (body : Text) : Except Failure Json :=
  (Json.read body).mapError fun
    | .syntaxError e => .malformed e
    | .depth inList => .depth inList
    | .longInteger digits => .longInteger digits

def accept (reply : HttpReply) : Except Failure Json :=
  if reply.status = 404 then .error (.notFound reply.url)
  else if isError reply.status then .error (.badStatus reply.status (detail reply.body))
  else document reply.body

/-! ## Requests -/

def fetch (uri params : Value) : Action Json := do
  Action.log .debug .site ["GET ", uri.display]
  let reply ← Action.send uri params
  Action.ofExcept (accept reply)

/-- The list inside a document, which some resources wrap in an object under a key. -/
def unwrap (key? : Option Text) (j : Json) : Json :=
  match key?, j with
  | some key, .object members => (Ordered.get? members key).getD (.list [])
  | _, j => j

def isObject : Json → Bool
  | .object _ => true
  | _ => false

/-- The records of a list. What is no object is skipped. -/
def records (path : Text) (build : Json → Except Failure Value) (key? : Option Text) (j : Json) :
    Except Failure Value :=
  match unwrap key? j with
  | .list items => .list <$> (items.filter isObject).mapM build
  | other => .error (.notList path other.typeName)

def fetchList (s : Site) (path : Text) (build : Json → Except Failure Value)
    (key? : Option Text) : Action Value := do
  let j ← fetch (.text (s.url path)) .null
  Action.ofExcept (records path build key? j)

def catalogPath : Catalog → Text
  | .issueTypes => "/issuetype"
  | .statuses => "/status"
  | .priorities => "/priority"
  | .resolutions => "/resolution"

def answer (s : Site) : Request → Action Value
  | .collection c => s.fetchList (catalogPath c) (Payload.build c.entryClass) none
  | .item c uri => do
    let j ← fetch uri .null
    Action.ofExcept (Payload.build c.entryClass j)
  | .linkTypes =>
    s.fetchList "/issueLinkType" (Payload.build .issueLinkType) (some "issueLinkTypes")
  | .fields => s.fetchList "/field" (Payload.build .field) none
  | .serverInfo => do
    let j ← fetch (.text (s.url "/serverInfo")) .null
    Action.ofExcept (Payload.build .serverInfo j)

end Site

end CatalogCache
