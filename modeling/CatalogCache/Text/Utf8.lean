import CatalogCache.Text

/-!
# UTF-8

Strict in both directions: a lone surrogate has no bytes, and bytes that no text has are refused
at the first place where they go wrong.
-/

namespace CatalogCache

/-- The first run of surrogates in a text that was to be written. -/
structure Unencodable where
  first : CodePoint
  position : Nat
  count : Nat
deriving DecidableEq

namespace Unencodable

def message (e : Unencodable) : Text :=
  if e.count = 1 then
    List.flatten ["'utf-8' codec can't encode character '\\u", Text.hex 4 e.first.val,
      "' in position ", Text.ofNat e.position, ": surrogates not allowed"]
  else
    List.flatten ["'utf-8' codec can't encode characters in position ", Text.ofNat e.position, "-",
      Text.ofNat (e.position + e.count - 1), ": surrogates not allowed"]

end Unencodable

/-- Why bytes are no UTF-8. -/
inductive Undecodable
  /-- No sequence starts with this byte. -/
  | start (byte : UInt8) (position : Nat)
  /-- The sequence that begins at `position` with `lead` is broken after `length` good bytes. -/
  | continuation (lead : UInt8) (position length : Nat)
  /-- The data ends inside the sequence that begins at `position`, `length` bytes before the end. -/
  | ending (lead : UInt8) (position length : Nat)
deriving DecidableEq

namespace Undecodable

def report (lead : UInt8) (position length : Nat) (reason : Text) : Text :=
  if length = 1 then
    List.flatten ["'utf-8' codec can't decode byte 0x", Text.hex 2 lead.toNat, " in position ",
      Text.ofNat position, ": ", reason]
  else
    List.flatten ["'utf-8' codec can't decode bytes in position ", Text.ofNat position, "-",
      Text.ofNat (position + length - 1), ": ", reason]

def message : Undecodable → Text
  | start byte position => report byte position 1 "invalid start byte"
  | continuation lead position length => report lead position length "invalid continuation byte"
  | ending lead position length => report lead position length "unexpected end of data"

end Undecodable

namespace Utf8

/-! ## Writing -/

def encodePoint (c : CodePoint) : List UInt8 :=
  let n := c.val
  if n < 0x80 then [n.toUInt8]
  else if n < 0x800 then [(0xc0 + n / 0x40).toUInt8, (0x80 + n % 0x40).toUInt8]
  else if n < 0x10000 then
    [(0xe0 + n / 0x1000).toUInt8, (0x80 + n / 0x40 % 0x40).toUInt8, (0x80 + n % 0x40).toUInt8]
  else
    [(0xf0 + n / 0x40000).toUInt8, (0x80 + n / 0x1000 % 0x40).toUInt8,
      (0x80 + n / 0x40 % 0x40).toUInt8, (0x80 + n % 0x40).toUInt8]

/-- Bytes of a text that starts at `position` of the whole. -/
def encodeFrom (position : Nat) : Text → Except Unencodable (List UInt8)
  | [] => .ok []
  | c :: rest =>
    if c.isSurrogate then
      .error ⟨c, position, ((c :: rest).takeWhile CodePoint.isSurrogate).length⟩
    else (encodePoint c ++ ·) <$> encodeFrom (position + 1) rest

def encode (t : Text) : Except Unencodable (List UInt8) := encodeFrom 0 t

/-! ## Reading -/

/-- A sequence that is not complete yet. -/
structure Pending where
  lead : UInt8
  /-- Where the lead byte stands. -/
  position : Nat
  seen : Nat
  owed : Nat
  bits : Nat
  /-- The least and the greatest byte that may come next. -/
  low : UInt8
  high : UInt8

/-- What a lead byte starts. The bounds on the second byte rule out overlong sequences, surrogates
and numbers that are no code points. -/
def leadByte (b : UInt8) (position : Nat) : Option Pending :=
  if b < 0xc2 then none
  else if b < 0xe0 then some ⟨b, position, 1, 1, b.toNat - 0xc0, 0x80, 0xbf⟩
  else if b = 0xe0 then some ⟨b, position, 1, 2, 0, 0xa0, 0xbf⟩
  else if b = 0xed then some ⟨b, position, 1, 2, 0xd, 0x80, 0x9f⟩
  else if b < 0xf0 then some ⟨b, position, 1, 2, b.toNat - 0xe0, 0x80, 0xbf⟩
  else if b = 0xf0 then some ⟨b, position, 1, 3, 0, 0x90, 0xbf⟩
  else if b < 0xf4 then some ⟨b, position, 1, 3, b.toNat - 0xf0, 0x80, 0xbf⟩
  else if b = 0xf4 then some ⟨b, position, 1, 3, 4, 0x80, 0x8f⟩
  else none

def Pending.push (p : Pending) (b : UInt8) : Pending :=
  { p with
    seen := p.seen + 1, owed := p.owed - 1, bits := p.bits * 0x40 + (b.toNat - 0x80),
    low := 0x80, high := 0xbf }

def decodeFrom (position : Nat) : Option Pending → List UInt8 → Except Undecodable Text
  | none, [] => .ok []
  | some p, [] => .error (.ending p.lead p.position p.seen)
  | none, b :: rest =>
    if b < 0x80 then (CodePoint.ofNat b.toNat :: ·) <$> decodeFrom (position + 1) none rest
    else match leadByte b position with
      | none => .error (.start b position)
      | some p => decodeFrom (position + 1) (some p) rest
  | some p, b :: rest =>
    if p.low ≤ b ∧ b ≤ p.high then
      if p.owed = 1 then
        (CodePoint.ofNat (p.push b).bits :: ·) <$> decodeFrom (position + 1) none rest
      else decodeFrom (position + 1) (some (p.push b)) rest
    else .error (.continuation p.lead p.position p.seen)

def decode (bytes : List UInt8) : Except Undecodable Text := decodeFrom 0 none bytes

end Utf8

end CatalogCache
