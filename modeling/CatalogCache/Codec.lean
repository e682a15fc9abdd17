import CatalogCache.Json.Printer
import CatalogCache.Json.Reader
import CatalogCache.Shape

/-!
# The codec

Its settings, and what can go wrong between values and documents.
-/

namespace CatalogCache

structure Codec where
  /-- Blanks per level when writing. None asks for one line. -/
  indent : Option Int
  /-- Members that no property reads are skipped. -/
  ignoreUnknown : Bool
  /-- Members that are absent fall back to the default of their property. -/
  allowMissing : Bool
deriving DecidableEq

/-- Indents by two and tolerates both. -/
def Codec.tolerant : Codec := ⟨some 2, true, true⟩

inductive Unwritable
  | type (name : Text)
  | longInteger
deriving DecidableEq

def Unwritable.message : Unwritable → Text
  | type name => List.flatten ["Object of type ", name, " is not JSON serializable"]
  | longInteger =>
    List.flatten ["Exceeds the limit (4300 digits) for integer string conversion; ",
      "use sys.set_int_max_str_digits() to increase the limit"]

inductive CodecError
  | syntaxError (e : Json.SyntaxError)
  | depth
  | notList (got : Text)
  | notObject (cls : RecordClass) (got : Text)
  | wrongType (expected got : Text)
  | nullProperty (key : Text) (cls : RecordClass)
  | missingProperty (key : Text) (cls : RecordClass)
  | unknownProperties (cls : RecordClass) (keys : List Text)
  /-- Properties without a default that got no value. -/
  | incomplete (cls : RecordClass) (names : List Text)
  | unwritable (root : Text) (reason : Unwritable)
deriving DecidableEq

namespace CodecError

def enumerate : List Text → Text
  | [a, b] => List.flatten ["'", a, "' and '", b, "'"]
  | names =>
    let quoted : List Text := names.map fun name => List.flatten ["'", name, "'"]
    match quoted with
    | [] | [_] => quoted.flatten
    | _ => List.flatten [Text.join ", " quoted.dropLast, ", and ", quoted.getLastD []]

def missingArguments (cls : RecordClass) (names : List Text) : Text :=
  let noun : Text := if names.length = 1 then " required positional argument: "
    else " required positional arguments: "
  List.flatten [cls.name, ".__init__() missing ", Text.ofNat names.length, noun, enumerate names]

def message : CodecError → Text
  | syntaxError e => List.flatten ["Invalid JSON: ", e.message]
  | depth => "JSON document is nested too deeply"
  | notList got => List.flatten ["Expected a JSON array, got ", got]
  | notObject cls got => List.flatten ["Expected a JSON object for ", cls.name, ", got ", got]
  | wrongType expected got => List.flatten ["Expected ", expected, ", got ", got]
  | nullProperty key cls =>
    List.flatten ["Property '", key, "' of ", cls.name, " must not be null"]
  | missingProperty key cls => List.flatten ["Missing property '", key, "' for ", cls.name]
  | unknownProperties cls keys =>
    List.flatten ["Unknown properties for ", cls.name, ": ", Text.join ", " keys]
  | incomplete cls names =>
    List.flatten ["Cannot build ", cls.name, ": ", missingArguments cls names]
  | unwritable root reason => List.flatten ["Cannot encode ", root, ": ", reason.message]

end CodecError

end CatalogCache
