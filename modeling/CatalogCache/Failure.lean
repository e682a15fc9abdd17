import CatalogCache.Codec.Encode
import CatalogCache.Codec.Decode
import CatalogCache.Disk.FileError
import CatalogCache.Value.Display

/-!
# Failures

Everything that can end an operation, by its cause. A failure of a remote is passed on as it is.
-/

namespace CatalogCache

inductive ReadCause
  | file (e : SystemError)
  | undecodable (e : Undecodable)
  | codec (e : CodecError)
deriving DecidableEq

inductive WriteCause
  /-- The directory of the account cannot be made. -/
  | directory (e : SystemError)
  | codec (e : CodecError)
  | file (e : SystemError)
deriving DecidableEq

inductive Failure
  | codec (e : CodecError)
  /-- A number in a text has too many digits. -/
  | longInteger (digits : Nat)
  /-- A document nests too deeply, where nobody expects it. -/
  | depth (inList : Bool)
  /-- A value nests too deeply to be written. -/
  | valueDepth
  /-- A codec indents by more blanks than can be counted. -/
  | indent
  | malformed (e : Json.SyntaxError)
  | noProperty (type name : Text)
  /-- A class itself stands where one of its records is wanted. -/
  | noClassProperty (cls : RecordClass) (name : Text)
  | notIterable (type : Text)
  | notCallable (type : Text)
  | notText (type : Text)
  | bytesForText
  | notNumber (t : Text)
  | file (e : FileError)
  | cacheRead (path : FilePath) (cause : ReadCause)
  | cacheWrite (path : FilePath) (cause : WriteCause)
  | invalidAccount (account : Value)
  | noSuchEntry (catalog : Option Catalog) (name : Value)
  | notFound (url : Text)
  | badStatus (status : Int) (detail : Text)
  | notList (path type : Text)
  | missingCredentials (names : List Text)
  | endOfInput
  | homeless
  | hours (setting raw : Text)
  | negativeHours (setting raw : Text)
  | duration (e : DurationError)
  | negativeLifetime (catalog : Catalog) (lifetime : Duration)
  | noSuchCatalog (name : Value)
  /-- No catalog is stored under the name of a file, or the value is no name at all. -/
  | notACatalog (v : Value)
  /-- Raised by a remote or on the way to it. -/
  | foreign (kind message : Text)

namespace ReadCause

def message (path : FilePath) : ReadCause → Text
  | file e => List.flatten ["Cannot read cache file ", path.toText, ": ", e.message]
  | undecodable e => List.flatten ["Cannot read cache file ", path.toText, ": ", e.message]
  | codec e => List.flatten ["Corrupt cache file ", path.toText, ": ", e.message]

end ReadCause

namespace WriteCause

def message (path : FilePath) : WriteCause → Text
  | directory e => List.flatten ["Cannot create cache directory ", path.toText, ": ", e.message]
  | codec e => List.flatten ["Cannot encode value for ", path.toText, ": ", e.message]
  | file e => List.flatten ["Cannot write cache file ", path.toText, ": ", e.message]

end WriteCause

namespace Failure

/-- A text that is no number is shown up to this length, quotes and escapes included. -/
def shownLength : Nat := 200

def message : Failure → Text
  | codec e => e.message
  | longInteger digits =>
    List.flatten ["Exceeds the limit (4300 digits) for integer string conversion: value has ",
      Text.ofNat digits, " digits; use sys.set_int_max_str_digits() to increase the limit"]
  | depth inList =>
    let container : Text := if inList then "array" else "object"
    List.flatten ["maximum recursion depth exceeded while decoding a JSON ", container,
      " from a unicode string"]
  | valueDepth => "maximum recursion depth exceeded"
  | indent => "cannot fit 'int' into an index-sized integer"
  | malformed e => e.message
  | noProperty type name =>
    List.flatten ["'", type, "' object has no attribute '", name, "'"]
  | noClassProperty cls name =>
    List.flatten ["type object '", cls.name, "' has no attribute '", name, "'"]
  | notIterable type => List.flatten ["'", type, "' object is not iterable"]
  | notCallable type => List.flatten ["'", type, "' object is not callable"]
  | notText type => List.flatten ["expected string or bytes-like object, got '", type, "'"]
  | bytesForText => "cannot use a string pattern on a bytes-like object"
  | notNumber t => List.flatten ["invalid literal for int() with base 10: ",
    t.quoted.take shownLength]
  | file e => e.message
  | cacheRead path cause => cause.message path
  | cacheWrite path cause => cause.message path
  | invalidAccount account =>
    List.flatten ["Invalid account name for cache directory: ", account.literal]
  | noSuchEntry catalog name =>
    let kind : Text := (catalog.map Catalog.entryLabel).getD "metadata"
    List.flatten ["No such ", kind, ": ", name.display]
  | notFound url => List.flatten ["Resource not found: ", url]
  | badStatus status detail =>
    List.flatten ["Jira API error ", Text.ofInt status, ": ", detail]
  | notList path type => List.flatten ["Expected a JSON array from ", path, ", got ", type]
  | missingCredentials names =>
    List.flatten ["Missing required environment variables: ", Text.join ", " names,
      ". Set them or call get_client(interactive=True)."]
  | endOfInput => "EOF when reading a line"
  | homeless => "Could not determine home directory."
  | hours setting raw =>
    List.flatten [setting, " must be a number of hours, got ", raw.quoted]
  | negativeHours setting raw =>
    List.flatten [setting, " must not be negative, got ", raw.quoted]
  | duration e => e.message
  | negativeLifetime catalog lifetime =>
    List.flatten ["TTL for ", catalog.label, " must not be negative: ", lifetime.text]
  | noSuchCatalog name => name.literal
  | notACatalog v => List.flatten [v.literal, " is not a valid ResourceKind"]
  | foreign _ message => message

end Failure

inductive Family
  | cache
  | cacheRead
  | cacheWrite
  | codec
  | invalidAccount
  /-- A lookup in a catalog, or in any of them. -/
  | noSuchEntry (catalog : Option Catalog)
  | notFound
  /-- What a Jira site does not have. -/
  | siteNotFound
  | site
deriving DecidableEq

namespace Family

def parent? : Family → Option Family
  | cacheRead | cacheWrite => some cache
  | noSuchEntry (some _) => some (noSuchEntry none)
  | siteNotFound => some notFound
  | _ => none

end Family

/-- The family of a failure, where it has one. What is raised by a remote has none here. -/
def Failure.family? : Failure → Option Family
  | codec _ => some .codec
  | cacheRead .. => some .cacheRead
  | cacheWrite .. => some .cacheWrite
  | invalidAccount _ => some .invalidAccount
  | noSuchEntry c _ => some (.noSuchEntry c)
  | notFound _ => some .siteNotFound
  | badStatus .. | notList .. => some .site
  | _ => none

end CatalogCache
