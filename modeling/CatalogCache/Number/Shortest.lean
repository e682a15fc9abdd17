import CatalogCache.Number.Binary64

/-!
# Shortest digits

The fewest decimal digits that read back as the same number. Of two such candidates the nearer
one is taken, and halfway the even one. Seventeen digits are always enough; the exact value stands
behind them so that the search has an end without that fact.
-/

namespace CatalogCache

/-- `digits * 10 ^ exponent`. -/
structure Decimal where
  digits : Nat
  exponent : Int
deriving DecidableEq

namespace Binary64

def floorLog10 (num den : Nat) : Int :=
  if den ≤ num then (Nat.toDigits 10 (num / den)).length - 1
  else -((Nat.toDigits 10 ((den - 1) / num)).length : Int)

/-- `num / den` divided by `10 ^ exponent`, as a quotient of naturals. -/
def scaleDownTen (num den : Nat) (exponent : Int) : Nat × Nat :=
  if 0 ≤ exponent then (num, den * Nat.pow 10 exponent.toNat)
  else (num * Nat.pow 10 (-exponent).toNat, den)

def readsBack (mantissa : Nat) (exponent : Int) (d : Decimal) : Bool :=
  ofDecimal false d.digits d.exponent = finite false mantissa exponent

/-- The better of the two neighbours of a value on the grid of step `10 ^ exponent`, among those
that read back. -/
def onGrid (mantissa : Nat) (exponent step : Int) : Option Decimal :=
  let (num, den) := ratio mantissa exponent
  let (scaled, unit) := scaleDownTen num den step
  let below : Decimal := ⟨scaled / unit, step⟩
  let above : Decimal := ⟨scaled / unit + 1, step⟩
  let nearest : Decimal := ⟨roundQuotient scaled unit, step⟩
  let other := if nearest = below then above else below
  if readsBack mantissa exponent nearest then some nearest
  else if readsBack mantissa exponent other then some other
  else none

def exactDecimal (mantissa : Nat) (exponent : Int) : Decimal :=
  if 0 ≤ exponent then ⟨mantissa * Nat.pow 2 exponent.toNat, 0⟩
  else ⟨mantissa * Nat.pow 5 (-exponent).toNat, exponent⟩

def shortest (mantissa : Nat) (exponent : Int) : Decimal :=
  let (num, den) := ratio mantissa exponent
  let top := floorLog10 num den
  let grids := (List.range 17).findSome? fun (more : Nat) =>
    onGrid mantissa exponent (top - more)
  grids.getD (exactDecimal mantissa exponent)

end Binary64

end CatalogCache
