import CatalogCache.Failure

/-!
# Requests and answers

The eleven operations that every client offers, and what comes back.
-/

namespace CatalogCache

inductive Request
  | collection (c : Catalog)
  /-- One entry of a catalog, by the address that it has on the server. -/
  | item (c : Catalog) (uri : Value)
  | linkTypes
  | fields
  | serverInfo

inductive Answer
  | value (v : Value)
  /-- Values one by one, and then maybe a failure. -/
  | stream (items : List Value) (ending : Option Failure)

/-- The values that come out of an answer, up to the failure that ends them. -/
structure Items where
  values : List Value
  ending : Option Failure

namespace Answer

/-- The items of an answer. A text has its code points as items, and a dictionary its keys. -/
def items? : Answer → Except Failure Items
  | stream items ending => .ok ⟨items, ending⟩
  | value (.list items) | value (.tuple items) | value (.set items) => .ok ⟨items, none⟩
  | value (.dict entries) => .ok ⟨entries.map (·.1), none⟩
  | value (.text t) => .ok ⟨t.map fun c => .text [c], none⟩
  | value (.bytes b) => .ok ⟨b.map fun byte => .int byte.toNat, none⟩
  | value v => .error (.notIterable v.fullTypeName)

/-- All the values of an answer, if no failure ends them. -/
def collect (a : Answer) : Except Failure (List Value) := do
  let items ← a.items?
  match items.ending with
  | some e => throw e
  | none => return items.values

end Answer

abbrev Reply := Except Failure Answer

end CatalogCache
