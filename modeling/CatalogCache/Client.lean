import CatalogCache.Site
import CatalogCache.Store

/-!
# Clients

A client answers requests. It is a remote, a Jira site, or a layer over another client: one that
only forwards, or one that serves the catalogs from the store while they are fresh.
-/

namespace CatalogCache

/-- What a cached client is told: whose catalogs to serve, where they are, and how long they stay
fresh. -/
structure Cached where
  account : Value
  store : Store
  lifetimes : PerCatalog Duration

namespace Cached

/-- No lifetime may be negative. -/
def of (account : Value) (store : Store) (lifetimes : PerCatalog Duration) :
    Except Failure Cached :=
  match Catalog.all.find? fun c => (lifetimes c).isNegative with
  | some c => .error (.negativeLifetime c (lifetimes c))
  | none => .ok ⟨account, store, lifetimes⟩

def who (s : Cached) : Text := List.flatten ["account '", s.account.display, "'"]

def file? (s : Cached) (c : Catalog) : Action (Option CacheFile) := do
  match ← Action.attempt (s.store.file s.account c) with
  | .ok f => return some f
  | .error (.cacheWrite path cause) =>
    Action.log .warning .cachedClient
      ["Metadata cache unavailable for ", s.who, ": ", cause.message path]
    return none
  | .error e => throw e

/-- The stored records of a catalog, if they are fresh and can be read. -/
def fresh? (s : Cached) (c : Catalog) (f? : Option CacheFile) : Action (Option (List Value)) := do
  match f? with
  | none => return none
  | some f =>
    if ← f.isFresh (s.lifetimes c) then
      match ← Action.attempt f.read with
      | .ok (.list items) => return some items
      | .ok _ => return none
      | .error (.cacheRead path cause) =>
        Action.log .warning .cachedClient
          ["Discarding unreadable ", c.label, " cache for ", s.who, ": ", cause.message path]
        return none
      | .error e => throw e
    else return none

/-- Stores what was fetched. If it cannot be stored, the log says so. -/
def keep (s : Cached) (c : Catalog) (f : CacheFile) (values : List Value) : Action Unit := do
  let packed ← Action.ofExcept (values.mapM (Stored.ofAnswered c.stored))
  match ← Action.attempt (f.write (.list packed)) with
  | .ok () => return ()
  | .error (.cacheWrite path cause) =>
    Action.log .warning .cachedClient
      ["Could not cache ", c.label, " for ", s.who, ": ", cause.message path]
  | .error e => throw e

/-- All entries of a catalog. They are fetched only if they are not stored, or not fresh. -/
def collection (s : Cached) (c : Catalog) (fetch : Action Answer) : Action Answer := do
  let f? ← s.file? c
  match ← s.fresh? c f? with
  | some items =>
    Action.log .debug .cachedClient ["Cache hit for ", c.label, " (", s.who, ")"]
    return .value (.list (items.map Stored.toAnswered))
  | none =>
    Action.log .debug .cachedClient ["Cache miss for ", c.label, " (", s.who, "), fetching"]
    let values ← Action.ofExcept (← fetch).collect
    match f? with
    | some f => s.keep c f values
    | none => pure ()
    return .value (.list values)

/-- A stored record has the address. -/
def hasAddress (uri : Value) (item : Value) : Bool :=
  match item.property "self_uri" with
  | .ok v => v.equal uri
  | .error _ => false

/-- One entry of a catalog: the first one at the address if the catalog is stored and fresh. -/
def item (s : Cached) (c : Catalog) (uri : Value) (fetch : Action Answer) : Action Answer := do
  match ((← s.fresh? c (← s.file? c)).getD []).find? (hasAddress uri) with
  | some item =>
    Action.log .debug .cachedClient ["Cache hit for ", c.label, " ", uri.display]
    return .value (Stored.toAnswered item)
  | none => fetch

/-- Answers a request, with a way to ask the client below. -/
def answer (s : Cached) (below : Request → Action Answer) : Request → Action Answer
  | .collection c => s.collection c (below (.collection c))
  | .item c uri => s.item c uri (below (.item c uri))
  | other => below other

end Cached

inductive Client
  | remote (name : Text)
  | site (s : Site)
  | forwarding (inner : Client)
  | cached (s : Cached) (inner : Client)

namespace Client

def answer : Client → Request → Action Answer
  | remote name, r => Action.ask name r
  | site s, r => .value <$> s.answer r
  | forwarding inner, r => inner.answer r
  | cached s inner, r => s.answer inner.answer r

end Client

end CatalogCache
