import CatalogCache.Text

/-!
# Integers in text

Integers have any size, but a text of more than `maxDigits` digits is neither read nor written.
-/

namespace CatalogCache.Integer

/-- The longest digit string that is converted. A sign does not count. -/
def maxDigits : Nat := 4300

/-- The number written with these digits, the first one on top. -/
def ofDigits (digits : List Nat) : Nat := digits.foldl (fun n d => n * 10 + d) 0

def signed (negative : Bool) (n : Nat) : Int := if negative then -(n : Int) else n

def text? (i : Int) : Option Text :=
  if (Text.ofNat i.natAbs).length ≤ maxDigits then some (Text.ofInt i) else none

/-- The digits and signs of ASCII, by value. -/
def asciiDigit? (c : CodePoint) : Option Nat :=
  if c.isAsciiDigit then some (c.val - 0x30) else none

end CatalogCache.Integer
