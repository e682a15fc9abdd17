import CatalogCache.Text

/-! # Lines and positions -/

namespace CatalogCache

namespace Text

def lineFeed : CodePoint := 0xa
def carriageReturn : CodePoint := 0xd

/-- The line ends of a text, unified. A line feed right after a carriage return belongs to it. -/
def unifyLinesFrom (afterReturn : Bool) : Text → Text
  | [] => []
  | c :: rest =>
    if c = carriageReturn then lineFeed :: unifyLinesFrom true rest
    else if c = lineFeed ∧ afterReturn then unifyLinesFrom false rest
    else c :: unifyLinesFrom false rest

/-- Every line end becomes a line feed, whichever of the three conventions it followed. -/
def unifyLines (t : Text) : Text := unifyLinesFrom false t

end Text

/-- A place in a text. Lines and columns count from one, offsets from zero. -/
structure Position where
  line : Nat
  column : Nat
  offset : Nat
deriving DecidableEq

def Position.after (before : Text) : Position where
  line := before.count Text.lineFeed + 1
  column := (before.reverse.takeWhile (· != Text.lineFeed)).length + 1
  offset := before.length

def Position.message (p : Position) : Text :=
  List.flatten ["line ", Text.ofNat p.line, " column ", Text.ofNat p.column,
    " (char ", Text.ofNat p.offset, ")"]

end CatalogCache
