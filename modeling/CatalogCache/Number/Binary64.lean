import CatalogCache.Number.Integer

/-!
# Binary floating point

Numbers of the binary64 format, and the one rounding rule that all reading and arithmetic goes
through: to the nearest, and from halfway to the even mantissa.
-/

namespace CatalogCache

/-- A binary64 number. A finite one is `mantissa * 2 ^ exponent`, with the mantissa below `2 ^ 53`
and at least `2 ^ 52` unless the exponent is the least one. -/
inductive Binary64
  | nan
  | infinite (negative : Bool)
  | finite (negative : Bool) (mantissa : Nat) (exponent : Int)
deriving DecidableEq

namespace Binary64

def minExponent : Int := -1074
def maxExponent : Int := 971

def zero (negative : Bool) : Binary64 := finite negative 0 minExponent

/-! ## Rounding -/

/-- `num / den` to the nearest integer. Halfway goes to the even one. -/
def roundQuotient (num den : Nat) : Nat :=
  let quotient := num / den
  let rest := num % den
  if 2 * rest < den ∨ 2 * rest = den ∧ quotient % 2 = 0 then quotient else quotient + 1

/-- `num / den` divided by `2 ^ exponent`, as a quotient of naturals. -/
def scaleDown (num den : Nat) (exponent : Int) : Nat × Nat :=
  if 0 ≤ exponent then (num, den * Nat.pow 2 exponent.toNat)
  else (num * Nat.pow 2 (-exponent).toNat, den)

/-- The exponent of the greatest power of two up to `num / den`. -/
def floorLog2 (num den : Nat) : Int :=
  let guess : Int := num.log2 - den.log2
  let (scaled, unit) := scaleDown num den guess
  if unit ≤ scaled then guess else guess - 1

def ofRatio (negative : Bool) (num den : Nat) : Binary64 :=
  if num = 0 then zero negative
  else
    let exponent := max (floorLog2 num den - 52) minExponent
    let (scaled, unit) := scaleDown num den exponent
    let mantissa := roundQuotient scaled unit
    let (mantissa, exponent) :=
      if mantissa = Nat.pow 2 53 then (Nat.pow 2 52, exponent + 1) else (mantissa, exponent)
    if maxExponent < exponent then infinite negative else finite negative mantissa exponent

/-- The number nearest to `digits * 10 ^ exponent`. What is far outside the range of the format is
not computed. -/
def ofDecimal (negative : Bool) (digits : Nat) (exponent : Int) : Binary64 :=
  if digits = 0 then zero negative
  else
    let magnitude := exponent + (Nat.toDigits 10 digits).length
    if 400 < magnitude then infinite negative
    else if magnitude < -400 then zero negative
    else if 0 ≤ exponent then ofRatio negative (digits * Nat.pow 10 exponent.toNat) 1
    else ofRatio negative digits (Nat.pow 10 (-exponent).toNat)

/-! ## Values -/

/-- The absolute value of a finite number, as a quotient. Zero is over one, whatever its
exponent. -/
def ratio (mantissa : Nat) (exponent : Int) : Nat × Nat :=
  if mantissa = 0 then (0, 1)
  else if 0 ≤ exponent then (mantissa * Nat.pow 2 exponent.toNat, 1)
  else (mantissa, Nat.pow 2 (-exponent).toNat)

/-- The absolute value of a number as a quotient. What is no finite number counts as zero. -/
def quotient : Binary64 → Nat × Nat
  | finite _ mantissa exponent => ratio mantissa exponent
  | _ => (0, 1)

def isZero : Binary64 → Bool
  | finite _ mantissa _ => mantissa = 0
  | _ => false

/-- Below zero. Minus zero is not. -/
def isNegative : Binary64 → Bool
  | nan => false
  | infinite negative => negative
  | finite negative mantissa _ => negative && mantissa != 0

/-- The integer that the number is, if it is one. -/
def toInt? : Binary64 → Option Int
  | finite negative mantissa exponent =>
    let (num, den) := ratio mantissa exponent
    if num % den = 0 then some (Integer.signed negative (num / den)) else none
  | _ => none

/-! ## Arithmetic -/

/-- The finite number nearest to a quotient. -/
def nearest (negative : Bool) (num den : Nat) : Binary64 :=
  match ofRatio negative num den with
  | infinite negative => finite negative (Nat.pow 2 53 - 1) maxExponent
  | x => x

/-- The difference, rounded. A difference of zero is minus zero only if minus zero loses zero. -/
def sub : Binary64 → Binary64 → Binary64
  | nan, _ | _, nan => nan
  | infinite a, infinite b => if a = b then nan else infinite a
  | infinite a, finite .. => infinite a
  | finite .., infinite b => infinite !b
  | finite a m e, finite b n f =>
    let x := ratio m e
    let y := ratio n f
    let difference := Integer.signed a (x.1 * y.2) - Integer.signed b (y.1 * x.2)
    let negative := difference < 0 || difference = 0 && a && !b
    ofRatio negative difference.natAbs (x.2 * y.2)

end Binary64

end CatalogCache
