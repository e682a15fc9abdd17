import CatalogCache.Stored
import CatalogCache.Text.Lines
import CatalogCache.World

/-!
# Cache files

A slot for one value, kept in one file. Nothing is held in memory: every read and write goes to the
file, and its modification time says how fresh it is.
-/

namespace CatalogCache

structure CacheFile where
  path : FilePath
  shape : Shape
  codec : Codec

namespace CacheFile

def describe (f : CacheFile) : Text :=
  List.flatten ["<CacheEntry path=", f.path.toText.quoted, ">"]

/-! ## Freshness -/

/-- A modification time may run ahead of the clock by so much. -/
def tolerance : Duration := ⟨2 * Duration.microsPerSecond⟩

/-- Fresh is what is younger than its lifetime. What is not written yet is not fresh, but small
differences of clocks count as no age. -/
def isYoung (age lifetime : Duration) : Bool :=
  -tolerance.micros ≤ age.micros && max age.micros 0 < lifetime.micros

/-- How long ago the file seems to have been written, if it is there. -/
def ageIn (f : CacheFile) (w : World) : Except Failure (Option Duration) :=
  match w.faults.guard .status (w.disk.status f.path) with
  | .ok n => (some <$> Duration.since? w.now n.modified).mapError .duration
  | .error (.system e) => if e.errno = .noEntry then .ok none else .error (.file (.system e))
  | .error e => .error (.file e)

def age (f : CacheFile) : Action (Option Duration) := do
  Action.ofExcept (f.ageIn (← get))

/-- Whether the file is younger than a lifetime. A file without a status is not. -/
def isFresh (f : CacheFile) (lifetime : Duration) : Action Bool := do
  match f.ageIn (← get) with
  | .error (.file (.system e)) =>
    Action.log .debug .cacheFile
      ["Cannot stat ", f.path.toText, ", treating as stale: ", e.message]
    return false
  | .error e => throw e
  | .ok none => return false
  | .ok (some age) =>
    if age.micros < -tolerance.micros then
      Action.log .debug .cacheFile
        [f.path.toText, " was modified in the future, treating as stale"]
    return isYoung age lifetime

/-! ## Reading -/

def decode (f : CacheFile) (bytes : List UInt8) : Except Failure Value :=
  match Utf8.decode bytes with
  | .error e => .error (.cacheRead f.path (.undecodable e))
  | .ok t => match f.codec.decode t.unifyLines f.shape with
    | .ok v => .ok v
    | .error (.codec e) => .error (.cacheRead f.path (.codec e))
    | .error (.longInteger digits) => .error (.longInteger digits)

def readIn (f : CacheFile) (w : World) : Except Failure Value :=
  match w.faults.guard .read (w.disk.read f.path) with
  | .ok bytes => f.decode bytes
  | .error (.system e) => .error (.cacheRead f.path (.file e))
  | .error e => .error (.file e)

def read (f : CacheFile) : Action Value := do
  Action.log .debug .cacheFile ["Reading cache ", f.path.toText]
  Action.ofExcept (f.readIn (← get))

/-! ## Writing -/

def encode (f : CacheFile) (v : Value) : Except Failure Text :=
  (f.codec.encode v).mapError fun
    | .codec e => .cacheWrite f.path (.codec e)
    | .depth => .valueDepth
    | .indent => .indent

/-- Puts a text into the file, as a whole or not at all. -/
def replace (f : CacheFile) (t : Text) : Action Unit := do
  let w ← get
  let (disk, r) := Save.run ⟨f.path, t, w.faults, w.now⟩ w.disk
  set { w with disk := disk }
  match r with
  | .ok () => return ()
  | .error (.system e) => throw (.cacheWrite f.path (.file e))
  | .error e => throw (.file e)

/-- Puts a value into the file and gives it back. -/
def put (f : CacheFile) (v : Value) : Action Value := do
  Action.log .debug .cacheFile ["Writing cache ", f.path.toText]
  f.replace (← Action.ofExcept (f.encode v))
  Action.record (.saved f.path)
  return v

/-- Puts a value into the file, for that alone. -/
def write (f : CacheFile) (v : Value) : Action Unit := discard (f.put v)

end CacheFile

end CatalogCache
