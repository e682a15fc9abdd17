import CatalogCache.Client
import CatalogCache.Text.Lower

/-!
# Lookup by name

Entries of a catalog are found by their names as a user types them: without regard to case, and to
blanks around them. The first match counts.
-/

namespace CatalogCache

namespace Value

def asciiLowerByte (b : UInt8) : UInt8 := if 0x41 ≤ b ∧ b ≤ 0x5a then b + 0x20 else b

def isBlankByte (b : UInt8) : Bool := b = 0x20 || (0x9 ≤ b && b ≤ 0xd)

/-- The value without blanks around it. Only texts and bytes have blanks. -/
def strip : Value → Except Failure Value
  | text t => .ok (text t.strip)
  | bytes b => .ok (bytes ((b.dropWhile isBlankByte).reverse.dropWhile isBlankByte).reverse)
  | v => .error (v.lacks "strip")

def lower : Value → Except Failure Value
  | text t => .ok (text t.lower)
  | bytes b => .ok (bytes (b.map asciiLowerByte))
  | v => .error (v.lacks "lower")

end Value

namespace Lookup

def query (name : Value) : Except Failure Value := name.strip >>= Value.lower

/-- What the name of an entry is compared by. An entry without a name has the empty text. -/
def key (entry : Value) : Except Failure Value := do
  (← entry.property "name").orEmpty.lower

/-- The first value with a key, and its index from `start` on. -/
def first? (wanted : Value) (start : Nat) : List Value → Except Failure (Option (Nat × Value))
  | [] => .ok none
  | entry :: rest => do
    if (← key entry).equal wanted then return some (start, entry)
    else first? wanted (start + 1) rest

/-- The entry of a catalog that has a name, and its index. -/
def find (c : Catalog) (entries : Answer) (name : Value) : Except Failure (Nat × Value) := do
  let wanted ← query name
  let items ← entries.items?
  match ← first? wanted 0 items.values with
  | some found => return found
  | none => throw (items.ending.getD (.noSuchEntry (some c) name))

end Lookup

def Client.find (client : Client) (c : Catalog) (name : Value) : Action Value := do
  let entries ← client.answer (.collection c)
  return (← Action.ofExcept (Lookup.find c entries name)).2

end CatalogCache
