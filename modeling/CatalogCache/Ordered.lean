import CatalogCache.Text

/-!
# Ordered maps

Maps from names to values that keep their entries in the order in which the names came up first.
-/

namespace CatalogCache

/-- Entries in order. Names do not repeat. -/
abbrev Ordered (α : Type) := List (Text × α)

namespace Ordered

variable {α : Type}

def get? (entries : Ordered α) (name : Text) : Option α :=
  (entries.find? (·.1 = name)).map (·.2)

def contains (entries : Ordered α) (name : Text) : Bool := entries.any (·.1 = name)

/-- The entries with a value set: at the place of the name if it is there, else at the end. -/
def insert (entries : Ordered α) (name : Text) (value : α) : Ordered α :=
  match entries with
  | [] => [(name, value)]
  | entry :: rest =>
    if entry.1 = name then (name, value) :: rest else entry :: insert rest name value

/-- The map of a list of entries. The last value of a name counts, at the place of the first. -/
def ofList (entries : List (Text × α)) : Ordered α :=
  entries.foldl (fun map entry => insert map entry.1 entry.2) []

theorem get?_insert (entries : Ordered α) (name other : Text) (value : α) :
    (insert entries name value).get? other =
      if other = name then some value else entries.get? other := by
  induction entries with
  | nil => by_cases h : other = name <;> simp [insert, get?, h, Ne.symm]
  | cons entry rest ih =>
    simp only [insert, get?] at ih ⊢
    by_cases he : entry.1 = name
    · by_cases ho : other = name
      · simp [he, ho]
      · have : ¬name = other := fun e => ho e.symm
        simp [he, ho, this]
    · by_cases heo : entry.1 = other
      · have : ¬other = name := fun e => he (heo.trans e)
        simp [heo, this]
      · simpa [he, heo] using ih

end Ordered

end CatalogCache
