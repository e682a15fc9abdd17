import CatalogCache.Number.Real
import CatalogCache.Ordered
import CatalogCache.Text.Quoted

/-!
# JSON documents

A document keeps integers apart from reals, and the members of an object in the order in which
their names came up first.
-/

namespace CatalogCache

inductive Json
  | null
  | bool (b : Bool)
  | int (i : Int)
  | real (x : Binary64)
  | text (t : Text)
  | list (items : List Json)
  | object (members : List (Text × Json))

abbrev Members := Ordered Json

namespace Json

def typeName : Json → Text
  | null => "NoneType"
  | bool _ => "bool"
  | int _ => "int"
  | real _ => "float"
  | text _ => "str"
  | list _ => "list"
  | object _ => "dict"

/-- Absent, zero and empty values are false. All others are true, also the text "false". -/
def isTrue : Json → Bool
  | null => false
  | bool b => b
  | int i => i != 0
  | real x => !x.isZero
  | text t => t != []
  | list items => !items.isEmpty
  | object members => !members.isEmpty

/-! ## Display

How a value shows inside a message: a text as it is, everything else as a literal.
-/

mutual

def literal : Json → Text
  | null => "None"
  | bool true => "True"
  | bool false => "False"
  | int i => Text.ofInt i
  | real x => x.text
  | text t => t.quoted
  | list items => List.flatten ["[", Text.join ", " (literals items), "]"]
  | object members => List.flatten ["\x7b", Text.join ", " (memberLiterals members), "\x7d"]

def literals : List Json → List Text
  | [] => []
  | item :: rest => item.literal :: literals rest

def memberLiterals : List (Text × Json) → List Text
  | [] => []
  | (name, value) :: rest =>
    List.flatten [name.quoted, ": ", value.literal] :: memberLiterals rest

end

def display : Json → Text
  | text t => t
  | other => other.literal

end Json

end CatalogCache
