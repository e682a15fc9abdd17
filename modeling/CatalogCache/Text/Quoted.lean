import CatalogCache.Text.Printable

/-!
# Quoted text in messages

A name or value inside a message is quoted so that blanks and invisible code points show.
-/

namespace CatalogCache.Text

def singleQuote : CodePoint := 0x27
def doubleQuote : CodePoint := 0x22
def backslash : CodePoint := 0x5c

/-- Double quotes are taken only where they save escaping a single one. -/
def quoteMark (t : Text) : CodePoint :=
  if t.contains singleQuote && !t.contains doubleQuote then doubleQuote else singleQuote

def escaped (mark c : CodePoint) : Text :=
  if c = mark ∨ c = backslash then [backslash, c]
  else if c = 0x9 then "\\t"
  else if c = 0xa then "\\n"
  else if c = 0xd then "\\r"
  else if c.isPrintable then [c]
  else if c.val ≤ 0xff then "\\x" ++ hex 2 c.val
  else if c.val ≤ 0xffff then "\\u" ++ hex 4 c.val
  else "\\U" ++ hex 8 c.val

def quoted (t : Text) : Text :=
  let mark := quoteMark t
  mark :: t.flatMap (escaped mark) ++ [mark]

/-- Bytes in quotes after a `b`. Every byte that is not visible ASCII is escaped. -/
def quotedBytes (bytes : List UInt8) : Text :=
  let t : Text := bytes.map fun b => CodePoint.ofNat b.toNat
  let mark := quoteMark t
  let escape (c : CodePoint) : Text := if c.val < 0x7f then escaped mark c else "\\x" ++ hex 2 c.val
  0x62 :: mark :: t.flatMap escape ++ [mark]

end CatalogCache.Text
