import CatalogCache.Number.Shortest
import CatalogCache.Text.Blank
import CatalogCache.Text.Digit

/-!
# Reals in text

Writing takes the shortest digits. From `1e16` on, and below `1e-4`, the exponent is written, with
a sign and at least two digits; otherwise the number has a point and at least one digit on each
side of it. Reading takes a sign, digits of any script, single underscores between digits, and the
names of infinity and of the number that is none.
-/

namespace CatalogCache.Binary64

/-! ## Writing -/

/-- What is written where there are no digits. -/
structure Names where
  nan : Text
  infinity : Text

def plainNames : Names := ⟨"nan", "inf"⟩

def jsonNames : Names := ⟨"NaN", "Infinity"⟩

/-- Digits with a point after the first one, and the exponent of the first one. -/
def scientific (digits : Text) (exponent : Int) : Text :=
  let tail : List Text := match digits.drop 1 with
    | [] => []
    | more => [".", more]
  let sign : Text := if exponent < 0 then "-" else "+"
  List.flatten [digits.take 1, tail.flatten, "e", sign,
    Text.padZeros 2 (Text.ofNat exponent.natAbs)]

/-- Digits with a point, and zeros where the digits do not reach it. -/
def positional (digits : Text) (exponent : Int) : Text :=
  if exponent < 0 then List.flatten ["0.", List.replicate (-exponent - 1).toNat 0x30, digits]
  else
    let places := exponent.toNat + 1
    let fraction : Text := match digits.drop places with
      | [] => "0"
      | more => more
    List.flatten [digits.take places, List.replicate (places - digits.length) 0x30, ".", fraction]

def digitsText (d : Decimal) : Text :=
  let all := Text.ofNat d.digits
  let exponent : Int := d.exponent + all.length - 1
  let digits := Text.dropEndWhile (· = 0x30) all
  if -4 ≤ exponent ∧ exponent < 16 then positional digits exponent
  else scientific digits exponent

def signText (negative : Bool) : Text := if negative then "-" else []

def textWith (names : Names) : Binary64 → Text
  | nan => names.nan
  | infinite negative => signText negative ++ names.infinity
  | finite negative mantissa exponent =>
    let digits : Text := if mantissa = 0 then "0.0" else digitsText (shortest mantissa exponent)
    signText negative ++ digits

def text (x : Binary64) : Text := textWith plainNames x

/-! ## Reading -/

/-- An unsigned numeral in pieces. -/
structure Numeral where
  whole : List Nat
  fraction : List Nat
  exponent : Int

def Numeral.value (n : Numeral) (negative : Bool) : Binary64 :=
  ofDecimal negative (Integer.ofDigits (n.whole ++ n.fraction)) (n.exponent - n.fraction.length)

/-- ASCII digits at the front, and the text after them. -/
def takeDigits (t : Text) : List Nat × Text :=
  ((t.takeWhile CodePoint.isAsciiDigit).filterMap Integer.asciiDigit?,
    t.dropWhile CodePoint.isAsciiDigit)

def takeSign : Text → Bool × Text
  | 0x2d :: rest => (true, rest)
  | 0x2b :: rest => (false, rest)
  | t => (false, t)

def readExponent : Text → Option Int
  | [] => some 0
  | c :: rest =>
    if c = 0x65 ∨ c = 0x45 then
      let (negative, rest) := takeSign rest
      match takeDigits rest with
      | ([], _) => none
      | (digits, []) => some (Integer.signed negative (Integer.ofDigits digits))
      | _ => none
    else none

/-- An unsigned numeral: digits, with or without a point before, among or after them. -/
def readNumeral (t : Text) : Option Numeral :=
  let (whole, rest) := takeDigits t
  let (fraction, rest) := match rest with
    | 0x2e :: rest => takeDigits rest
    | _ => ([], rest)
  if whole = [] ∧ fraction = [] then none
  else (readExponent rest).map fun exponent => ⟨whole, fraction, exponent⟩

/-- Digits of every script become ASCII digits. -/
def asciiDigits (t : Text) : Text :=
  t.map fun c => match c.decimal? with
    | some d => CodePoint.ofNat (0x30 + d)
    | none => c

/-- The text without its underscores. One may stand only between two digits. -/
def dropUnderscores (afterDigit : Bool) : Text → Option Text
  | [] => some []
  | c :: rest =>
    if c = 0x5f then
      if afterDigit && (rest.head?.any CodePoint.isAsciiDigit) then dropUnderscores false rest
      else none
    else (c :: ·) <$> dropUnderscores c.isAsciiDigit rest

def asciiLower (t : Text) : Text :=
  t.map fun c => if 0x41 ≤ c.val ∧ c.val ≤ 0x5a then CodePoint.ofNat (c.val + 0x20) else c

/-- Reads a number, whatever blanks stand around it. -/
def read? (t : Text) : Option Binary64 := do
  let plain ← dropUnderscores false (asciiDigits t.stripNumeral)
  let (negative, plain) := takeSign plain
  let name := asciiLower plain
  if name = "inf" ∨ name = "infinity" then some (infinite negative)
  else if name = "nan" then some nan
  else (readNumeral plain).map (·.value negative)

end CatalogCache.Binary64
