import CatalogCache.Json
import CatalogCache.Text.Lines

/-!
# Writing JSON

Only quotes, backslashes and controls are escaped; every other code point stands for itself.
Empty containers stay on one line in every layout.
-/

namespace CatalogCache.Json

/-- How a document is laid out. -/
inductive Layout
  /-- One line, with a blank after each comma and colon. -/
  | oneLine
  /-- Every item on a line of its own, `step` blanks deeper than its container. -/
  | lines (step : Nat)
deriving DecidableEq

/-- No indentation asks for one line; one below zero counts as zero. -/
def Layout.ofIndent : Option Int → Layout
  | none => oneLine
  | some n => lines n.toNat

/-- The break in front of an item `level` containers deep. -/
def Layout.break : Layout → Nat → Text
  | oneLine, _ => []
  | lines step, level => Text.lineFeed :: List.replicate (step * level) 0x20

def Layout.separator : Layout → Nat → Text
  | oneLine, _ => ", "
  | lines step, level => 0x2c :: Layout.break (lines step) level

def escapePoint (c : CodePoint) : Text :=
  if c = 0x22 then "\\\""
  else if c = 0x5c then "\\\\"
  else if c = 0xa then "\\n"
  else if c = 0xd then "\\r"
  else if c = 0x9 then "\\t"
  else if c = 0xc then "\\f"
  else if c = 0x8 then "\\b"
  else if c.val < 0x20 then List.flatten ["\\u", Text.hex 4 c.val]
  else [c]

def quote (t : Text) : Text := 0x22 :: t.flatMap escapePoint ++ [0x22]

mutual

def render (layout : Layout) (level : Nat) : Json → Text
  | null => "null"
  | bool true => "true"
  | bool false => "false"
  | int i => Text.ofInt i
  | real x => x.textWith Binary64.jsonNames
  | text t => quote t
  | list [] => "[]"
  | list items =>
    List.flatten ["[", layout.break (level + 1),
      Text.join (layout.separator (level + 1)) (renderItems layout (level + 1) items),
      layout.break level, "]"]
  | object [] => "\x7b\x7d"
  | object members =>
    List.flatten ["\x7b", layout.break (level + 1),
      Text.join (layout.separator (level + 1)) (renderMembers layout (level + 1) members),
      layout.break level, "\x7d"]

def renderItems (layout : Layout) (level : Nat) : List Json → List Text
  | [] => []
  | item :: rest => render layout level item :: renderItems layout level rest

def renderMembers (layout : Layout) (level : Nat) : List (Text × Json) → List Text
  | [] => []
  | (name, value) :: rest =>
    List.flatten [quote name, ": ", render layout level value] :: renderMembers layout level rest

end

def print (layout : Layout) (j : Json) : Text := render layout 0 j

end CatalogCache.Json
