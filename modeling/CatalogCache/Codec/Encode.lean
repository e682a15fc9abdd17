import CatalogCache.Codec
import CatalogCache.Value.Display

/-!
# Encoding

From a value to a document. Records become objects with the keys of their schema, tuples become
lists, and keys of dictionaries become text. Whether every part can be written is only looked at
once the whole value has its outline, so a part that an equal key replaces does no harm.
-/

namespace CatalogCache

inductive OutlineError
  | depth
  | longKey
deriving DecidableEq

abbrev Draft := Except Unwritable Json

namespace Draft

def items : List Draft → Except Unwritable (List Json)
  | [] => .ok []
  | draft :: rest => do
    let j ← draft
    let more ← items rest
    return j :: more

def members : List (Text × Draft) → Except Unwritable Members
  | [] => .ok []
  | (key, draft) :: rest => do
    let j ← draft
    let more ← members rest
    return (key, j) :: more

end Draft

namespace Value

/-- So many steps may be taken into a value. -/
def maxSteps : Nat := Json.maxDepth

/-- The steps into a container that is converted. It takes a single one to read it. -/
def conversionSteps : Nat := 2

/-- The deepest nesting of a value that is written. -/
def maxNesting : Nat := maxSteps / conversionSteps

theorem maxNesting_le : maxNesting ≤ Json.maxDepth := Nat.div_le_self _ _

/-- Takes so many steps, if as many are left. -/
def descend (cost steps : Nat) : Except OutlineError Nat :=
  if steps < cost then .error .depth else .ok (steps - cost)

mutual

/-- Goes through a key as it is shown, up to what keeps it from that. A set is shown by way of a
list, and a record by way of two functions, each of which is a step of its own. -/
def inspect (steps : Nat) : Value → Except OutlineError Unit
  | int i => if (Integer.text? i).isSome then .ok () else .error .longKey
  | list items | tuple items => do inspectItems (← descend 1 steps) items
  | set items => do inspectItems (← descend 2 steps) items
  | record _ fields => do inspectItems (← descend 3 steps) fields
  | dict entries => do inspectEntries (← descend 1 steps) entries
  | _ => .ok ()

def inspectItems (steps : Nat) : List Value → Except OutlineError Unit
  | [] => .ok ()
  | item :: rest => do
    inspect steps item
    inspectItems steps rest

def inspectEntries (steps : Nat) : List (Value × Value) → Except OutlineError Unit
  | [] => .ok ()
  | (key, item) :: rest => do
    inspect steps key
    inspect steps item
    inspectEntries steps rest

end

def keyText (steps : Nat) (key : Value) : Except OutlineError Text := do
  inspect steps key
  return key.display

mutual

def outline (depth : Nat) : Value → Except OutlineError Draft
  | null => .ok (.ok .null)
  | bool b => .ok (.ok (.bool b))
  | int i => .ok (if (Integer.text? i).isSome then .ok (.int i) else .error .longInteger)
  | real x => .ok (.ok (.real x))
  | text t => .ok (.ok (.text t))
  | list items | tuple items =>
    if depth = 0 then .error .depth
    else do
      let drafts ← outlineItems (depth - 1) items
      return (Draft.items drafts).map .list
  | dict entries =>
    if depth = 0 then .error .depth
    else do
      let drafts ← outlineEntries (depth - 1) entries
      return (Draft.members (Ordered.ofList drafts)).map .object
  | record cls fields =>
    if depth = 0 then .error .depth
    else do
      let drafts ← outlineItems (depth - 1) fields
      return (Draft.members ((cls.properties.map (·.key)).zip drafts)).map .object
  | other => .ok (.error (.type other.typeName))

def outlineItems (depth : Nat) : List Value → Except OutlineError (List Draft)
  | [] => .ok []
  | item :: rest => do
    let draft ← outline depth item
    let more ← outlineItems depth rest
    return draft :: more

def outlineEntries (depth : Nat) : List (Value × Value) → Except OutlineError (List (Text × Draft))
  | [] => .ok []
  | (key, item) :: rest => do
    let key ← keyText (conversionSteps * depth) key
    let draft ← outline depth item
    let more ← outlineEntries depth rest
    return (key, draft) :: more

end

end Value

inductive EncodeError
  | codec (e : CodecError)
  | depth
  | indent
deriving DecidableEq

/-- Blanks are counted in words of 64 bits. -/
def Codec.canIndent (codec : Codec) : Bool :=
  codec.indent.all fun n => -0x8000000000000000 ≤ n ∧ n < 0x8000000000000000

/-- Writes a value as a document that ends in a line feed. The blanks of a level are made before
anything else is written, but not for a text, which needs none. -/
def Codec.encode (codec : Codec) (v : Value) : Except EncodeError Text :=
  match v.outline Value.maxNesting with
  | .error .depth => .error .depth
  | .error .longKey => .error (.codec (.unwritable v.typeName .longInteger))
  | .ok draft =>
    if codec.canIndent || v.isText then
      match draft with
      | .error reason => .error (.codec (.unwritable v.typeName reason))
      | .ok j => .ok (Json.print (Json.Layout.ofIndent codec.indent) j ++ [Text.lineFeed])
    else .error .indent

end CatalogCache
