import CatalogCache.Text

/-!
# White space

The white space of Unicode, with the four information separators. A zero-width space and a byte
order mark are not blank.
-/

namespace CatalogCache

/-- First and last of each run of blank code points. -/
def CodePoint.blankRuns : List (Nat × Nat) :=
  [(0x9, 0xd), (0x1c, 0x20), (0x85, 0x85), (0xa0, 0xa0), (0x1680, 0x1680), (0x2000, 0x200a),
   (0x2028, 0x2029), (0x202f, 0x202f), (0x205f, 0x205f), (0x3000, 0x3000)]

def CodePoint.isBlank (c : CodePoint) : Bool :=
  blankRuns.any fun run => run.1 ≤ c.val && c.val ≤ run.2

/-- Blanks that may stand around a number. The information separators may not. -/
def CodePoint.isNumeralBlank (c : CodePoint) : Bool :=
  c.isBlank && !(0x1c ≤ c.val && c.val ≤ 0x1f)

namespace Text

def strip (t : Text) : Text := dropEndWhile CodePoint.isBlank (t.dropWhile CodePoint.isBlank)

def stripNumeral (t : Text) : Text :=
  dropEndWhile CodePoint.isNumeralBlank (t.dropWhile CodePoint.isNumeralBlank)

end Text

end CatalogCache
