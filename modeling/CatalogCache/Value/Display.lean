import CatalogCache.Shape

/-!
# Display of values

How a value shows inside a message: a text as it is, everything else as a literal. Integers that
are too long for text make a value unprintable.
-/

namespace CatalogCache.Value

mutual

/-- Somewhere inside there is an integer that is too long for text. -/
def hasLongInteger : Value → Bool
  | int i => (Integer.text? i).isNone
  | list items | tuple items | set items => anyLongInteger items
  | record _ fields => anyLongInteger fields
  | dict entries => anyLongEntry entries
  | _ => false

def anyLongInteger : List Value → Bool
  | [] => false
  | v :: rest => v.hasLongInteger || anyLongInteger rest

def anyLongEntry : List (Value × Value) → Bool
  | [] => false
  | (k, v) :: rest => k.hasLongInteger || v.hasLongInteger || anyLongEntry rest

end

mutual

def literal : Value → Text
  | null => "None"
  | bool true => "True"
  | bool false => "False"
  | int i => Text.ofInt i
  | real x => x.text
  | text t => t.quoted
  | bytes b => Text.quotedBytes b
  | duration d => d.quoted
  | catalog c => List.flatten ["<ResourceKind.", c.name, ": ", c.fileName.quoted, ">"]
  | recordClass c => c.literal
  | bare => "<object object>"
  | list items => List.flatten ["[", Text.join ", " (literals items), "]"]
  | tuple [item] => List.flatten ["(", item.literal, ",)"]
  | tuple items => List.flatten ["(", Text.join ", " (literals items), ")"]
  | set [] => "set()"
  | set items => List.flatten ["\x7b", Text.join ", " (literals items), "\x7d"]
  | dict entries => List.flatten ["\x7b", Text.join ", " (entryLiterals entries), "\x7d"]
  | record cls fields =>
    List.flatten [cls.name, "(",
      Text.join ", " (fieldLiterals (cls.properties.map (·.name)) fields), ")"]

def literals : List Value → List Text
  | [] => []
  | v :: rest => v.literal :: literals rest

def entryLiterals : List (Value × Value) → List Text
  | [] => []
  | (k, v) :: rest => List.flatten [k.literal, ": ", v.literal] :: entryLiterals rest

def fieldLiterals (names : List Text) : List Value → List Text
  | [] => []
  | v :: rest =>
    List.flatten [names.headD [], "=", v.literal] :: fieldLiterals (names.drop 1) rest

end

def display : Value → Text
  | text t => t
  | duration d => d.text
  | catalog c => "ResourceKind." ++ c.name
  | other => other.literal

end CatalogCache.Value
