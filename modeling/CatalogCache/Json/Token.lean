import CatalogCache.Json

/-!
# Tokens of a JSON document

`Token.scan` takes one token off the front of a text that starts with no blank. What is no token
is told apart by how it fails, because a fault inside a string only counts where a string may stand.
-/

namespace CatalogCache.Json

inductive Problem
  | byteOrderMark
  | value
  | name
  | colon
  | comma
  | extra
  | unterminated
  | control
  | escape
  | unicodeEscape
deriving DecidableEq

def Problem.message : Problem → Text
  | byteOrderMark => "Unexpected UTF-8 BOM (decode using utf-8-sig)"
  | value => "Expecting value"
  | name => "Expecting property name enclosed in double quotes"
  | colon => "Expecting ':' delimiter"
  | comma => "Expecting ',' delimiter"
  | extra => "Extra data"
  | unterminated => "Unterminated string starting at"
  | control => "Invalid control character at"
  | escape => "Invalid \\escape"
  | unicodeEscape => "Invalid \\uXXXX escape"

/-- A problem and the text from where it is seen. -/
structure Fault where
  problem : Problem
  here : Text

inductive Token
  | openList
  | closeList
  | openObject
  | closeObject
  | comma
  | colon
  | text (t : Text)
  | scalar (j : Json)
  /-- An integer with more digits than are converted. -/
  | longInteger (digits : Nat)
  | brokenText (fault : Fault)
  | junk

/-! ## Strings -/

def hexValue? (c : CodePoint) : Option Nat :=
  let n := c.val
  if 0x30 ≤ n ∧ n ≤ 0x39 then some (n - 0x30)
  else if 0x41 ≤ n ∧ n ≤ 0x46 then some (n - 0x41 + 10)
  else if 0x61 ≤ n ∧ n ≤ 0x66 then some (n - 0x61 + 10)
  else none

def hexQuad? (a b c d : CodePoint) : Option Nat := do
  let a ← hexValue? a
  let b ← hexValue? b
  let c ← hexValue? c
  let d ← hexValue? d
  some (((a * 16 + b) * 16 + c) * 16 + d)

def shortEscape? (c : CodePoint) : Option CodePoint :=
  if c = 0x22 ∨ c = 0x5c ∨ c = 0x2f then some c
  else if c = 0x62 then some 0x8
  else if c = 0x66 then some 0xc
  else if c = 0x6e then some 0xa
  else if c = 0x72 then some 0xd
  else if c = 0x74 then some 0x9
  else none

def isHighSurrogate (n : Nat) : Bool := 0xd800 ≤ n && n ≤ 0xdbff
def isLowSurrogate (n : Nat) : Bool := 0xdc00 ≤ n && n ≤ 0xdfff

def joinSurrogates (high low : Nat) : CodePoint :=
  CodePoint.ofNat (0x10000 + (high - 0xd800) * 0x400 + (low - 0xdc00))

/-- What a scan brought, with one more code point in front. -/
def prepend (c : CodePoint) : Except Fault (Text × Text) → Except Fault (Text × Text)
  | .error e => .error e
  | .ok r => .ok (c :: r.1, r.2)

/-- What a scan brought, after a high surrogate that found no partner. -/
def flush (high : Option Nat) (r : Except Fault (Text × Text)) : Except Fault (Text × Text) :=
  match high with
  | none => r
  | some n => prepend (CodePoint.ofNat n) r

/-- The inside of a string up to its closing quote, and the text after that. `start` is the text
from the opening quote on, and `high` a high surrogate that was escaped just before: with a low one
it makes one code point. A numeric escape at the very end of a document is refused. -/
def scanText (start : Text) (high : Option Nat) : Text → Except Fault (Text × Text)
  | [] => .error ⟨.unterminated, start⟩
  | c :: rest =>
    if c = 0x22 then flush high (.ok ([], rest))
    else if c = 0x5c then
      match rest with
      | [] => .error ⟨.unterminated, start⟩
      | e :: tail =>
        if e = 0x75 then
          match tail with
          | h₁ :: h₂ :: h₃ :: h₄ :: after =>
            match hexQuad? h₁ h₂ h₃ h₄, after.isEmpty with
            | some n, false =>
              match high, isLowSurrogate n with
              | some m, true => prepend (joinSurrogates m n) (scanText start none after)
              | _, _ =>
                if isHighSurrogate n then flush high (scanText start (some n) after)
                else flush high (prepend (CodePoint.ofNat n) (scanText start none after))
            | _, _ => .error ⟨.unicodeEscape, e :: tail⟩
          | _ => .error ⟨.unicodeEscape, e :: tail⟩
        else
          match shortEscape? e with
          | none => .error ⟨.escape, c :: e :: tail⟩
          | some d => flush high (prepend d (scanText start none tail))
    else if c.val < 0x20 then .error ⟨.control, c :: rest⟩
    else flush high (prepend c (scanText start none rest))

/-! ## What a scan leaves -/

theorem prepend_ok {c : CodePoint} {r : Except Fault (Text × Text)} {p : Text × Text}
    (h : prepend c r = .ok p) : ∃ q, r = .ok q ∧ q.2 = p.2 := by
  cases r with
  | error e => simp [prepend] at h
  | ok q =>
    simp only [prepend, Except.ok.injEq] at h
    exact ⟨q, rfl, by rw [← h]⟩

theorem flush_ok {high : Option Nat} {r : Except Fault (Text × Text)} {p : Text × Text}
    (h : flush high r = .ok p) : ∃ q, r = .ok q ∧ q.2 = p.2 := by
  cases high with
  | none => exact ⟨p, h, rfl⟩
  | some n => exact prepend_ok h

theorem scanText_suffix {start : Text} {high : Option Nat} {t : Text} {p : Text × Text}
    (h : scanText start high t = .ok p) : p.2 <:+ t := by
  fun_induction scanText start high t generalizing p with
  | case1 | case3 | case7 | case8 | case9 | case11 => simp at h
  | case2 =>
    obtain ⟨q, hq, he⟩ := flush_ok h
    cases hq
    rw [← he]
    exact List.suffix_cons _ _
  | case4 _ _ _ _ _ _ _ _ _ _ _ ih =>
    obtain ⟨q, hq, he⟩ := prepend_ok h
    exact he ▸ (ih hq).trans (List.suffix_append [_, _, _, _, _, _] _)
  | case5 _ _ _ _ _ _ _ _ _ _ _ _ ih =>
    obtain ⟨q, hq, he⟩ := flush_ok h
    exact he ▸ (ih hq).trans (List.suffix_append [_, _, _, _, _, _] _)
  | case6 _ _ _ _ _ _ _ _ _ _ _ _ ih =>
    obtain ⟨q, hq, he⟩ := flush_ok h
    obtain ⟨r, hr, hf⟩ := prepend_ok hq
    exact he ▸ hf ▸ (ih hr).trans (List.suffix_append [_, _, _, _, _, _] _)
  | case10 _ _ _ _ _ _ _ ih =>
    obtain ⟨q, hq, he⟩ := flush_ok h
    obtain ⟨r, hr, hf⟩ := prepend_ok hq
    exact he ▸ hf ▸ (ih hr).trans (List.suffix_append [_, _] _)
  | case12 _ _ _ _ _ _ ih =>
    obtain ⟨q, hq, he⟩ := flush_ok h
    obtain ⟨r, hr, hf⟩ := prepend_ok hq
    exact he ▸ hf ▸ (ih hr).trans (List.suffix_cons _ _)

/-! ## Numbers and names -/

/-- The text after a word, if it starts with it. -/
def after? : Text → Text → Option Text
  | [], t => some t
  | _ :: _, [] => none
  | w :: word, c :: t => if w = c then after? word t else none

theorem after?_suffix {word t rest : Text} (h : after? word t = some rest) : rest <:+ t := by
  fun_induction after? word t with
  | case1 => simp_all
  | case2 => simp at h
  | case3 w word t ih => exact (ih h).trans (List.suffix_cons _ _)
  | case4 => simp at h

def scanFraction (t : Text) : Option (List Nat × Text) :=
  match t with
  | 0x2e :: rest =>
    match Binary64.takeDigits rest with
    | ([], _) => none
    | found => some found
  | _ => none

def scanExponent (t : Text) : Option (Int × Text) :=
  match t with
  | [] => none
  | c :: rest =>
    if c = 0x65 ∨ c = 0x45 then
      let (negative, rest) := Binary64.takeSign rest
      match Binary64.takeDigits rest with
      | ([], _) => none
      | (digits, rest) => some (Integer.signed negative (Integer.ofDigits digits), rest)
    else none

/-- The digits before the point: a zero alone, or digits that start with another one. -/
def scanWhole (t : Text) : List Nat × Text :=
  match t with
  | 0x30 :: rest => ([0], rest)
  | _ => Binary64.takeDigits t

def integerToken (negative : Bool) (digits : List Nat) : Token :=
  if digits.length ≤ Integer.maxDigits then
    .scalar (.int (Integer.signed negative (Integer.ofDigits digits)))
  else .longInteger digits.length

/-- A number without its sign. A point or an exponent without digits does not belong to it. -/
def scanUnsigned (negative : Bool) (t : Text) : Option (Token × Text) :=
  match scanWhole t with
  | ([], _) => none
  | (whole, rest) =>
    match scanFraction rest with
    | some (fraction, rest) =>
      let (exponent, rest) := (scanExponent rest).getD (0, rest)
      some (.scalar (.real (Binary64.Numeral.value ⟨whole, fraction, exponent⟩ negative)), rest)
    | none =>
      match scanExponent rest with
      | some (exponent, rest) =>
        some (.scalar (.real (Binary64.Numeral.value ⟨whole, [], exponent⟩ negative)), rest)
      | none => some (integerToken negative whole, rest)

def scanNumber : Text → Option (Token × Text)
  | 0x2d :: rest => scanUnsigned true rest
  | t => scanUnsigned false t

/-- The names of values, in the order in which they are tried. -/
def names : List (Text × Json) :=
  [("null", .null), ("true", .bool true), ("false", .bool false), ("NaN", .real .nan),
    ("Infinity", .real (.infinite false)), ("-Infinity", .real (.infinite true))]

def scanName (t : Text) : Option (Token × Text) :=
  names.findSome? fun entry => (after? entry.1 t).map fun rest => (.scalar entry.2, rest)

def Token.scan (c : CodePoint) (rest : Text) : Token × Text :=
  if c = 0x5b then (.openList, rest)
  else if c = 0x5d then (.closeList, rest)
  else if c = 0x7b then (.openObject, rest)
  else if c = 0x7d then (.closeObject, rest)
  else if c = 0x2c then (.comma, rest)
  else if c = 0x3a then (.colon, rest)
  else if c = 0x22 then
    match scanText (c :: rest) none rest with
    | .ok (t, rest) => (.text t, rest)
    | .error fault => (.brokenText fault, [])
  else ((scanName (c :: rest)).or (scanNumber (c :: rest))).getD (.junk, [])

/-! ## Every token is at least one code point long -/

theorem takeDigits_suffix (t : Text) : (Binary64.takeDigits t).2 <:+ t := List.dropWhile_suffix _

theorem takeDigits_suffix_tail {t : Text} (h : (Binary64.takeDigits t).1 ≠ []) :
    (Binary64.takeDigits t).2 <:+ t.tail := by
  cases t with
  | nil => simp [Binary64.takeDigits] at h
  | cons c t =>
    by_cases hc : c.isAsciiDigit
    · simp only [Binary64.takeDigits, List.dropWhile_cons, hc, if_true, List.tail_cons]
      exact List.dropWhile_suffix _
    · simp [Binary64.takeDigits, hc] at h

theorem takeSign_suffix (t : Text) : (Binary64.takeSign t).2 <:+ t := by
  unfold Binary64.takeSign
  split <;> simp

theorem scanWhole_suffix {t : Text} (h : (scanWhole t).1 ≠ []) : (scanWhole t).2 <:+ t.tail := by
  unfold scanWhole at h ⊢
  split
  · simp
  · simp_all [takeDigits_suffix_tail]

theorem scanFraction_suffix {t rest : Text} {digits : List Nat}
    (h : scanFraction t = some (digits, rest)) : rest <:+ t := by
  unfold scanFraction at h
  split at h
  · next tail =>
    have hd := takeDigits_suffix tail
    split at h
    · simp at h
    · simp only [Option.some.injEq] at h
      rw [h] at hd
      exact hd.trans (List.suffix_cons _ _)
  · simp at h

theorem scanExponent_suffix {t rest : Text} {exponent : Int}
    (h : scanExponent t = some (exponent, rest)) : rest <:+ t := by
  unfold scanExponent at h
  split at h
  · simp at h
  · next c tail =>
    split at h
    · have hs := takeSign_suffix tail
      have hd := takeDigits_suffix (Binary64.takeSign tail).2
      simp only at h
      split at h
      · simp at h
      · next digits after _ hm =>
        simp only [Option.some.injEq, Prod.mk.injEq] at h
        simp only [hm, h.2] at hd
        exact (hd.trans hs).trans (List.suffix_cons _ _)
    · simp at h

theorem scanUnsigned_suffix {negative : Bool} {t rest : Text} {token : Token}
    (h : scanUnsigned negative t = some (token, rest)) : rest <:+ t.tail := by
  unfold scanUnsigned at h
  split at h
  · simp at h
  · next whole after hne hw =>
    have hafter : after <:+ t.tail := by
      have := scanWhole_suffix (by rw [hw]; exact hne : (scanWhole t).1 ≠ [])
      rwa [hw] at this
    split at h
    · next fraction afterFraction hf =>
      have hfraction := (scanFraction_suffix hf).trans hafter
      simp only [Option.some.injEq, Prod.mk.injEq] at h
      rcases he : scanExponent afterFraction with _ | ⟨e, r⟩
      · simp only [he, Option.getD_none] at h
        exact h.2 ▸ hfraction
      · simp only [he, Option.getD_some] at h
        exact h.2 ▸ (scanExponent_suffix he).trans hfraction
    · split at h
      · next exponent afterExponent he =>
        simp only [Option.some.injEq, Prod.mk.injEq] at h
        exact h.2 ▸ (scanExponent_suffix he).trans hafter
      · simp only [Option.some.injEq, Prod.mk.injEq] at h
        exact h.2 ▸ hafter

theorem scanNumber_suffix {t rest : Text} {token : Token}
    (h : scanNumber t = some (token, rest)) : rest <:+ t.tail := by
  unfold scanNumber at h
  split at h
  · exact (scanUnsigned_suffix h).trans (List.tail_suffix _)
  · exact scanUnsigned_suffix h

theorem scanName_suffix {c : CodePoint} {t rest : Text} {token : Token}
    (h : scanName (c :: t) = some (token, rest)) : rest <:+ t := by
  obtain ⟨entry, hmem, hentry⟩ := List.exists_of_findSome?_eq_some h
  obtain ⟨r, hr, he⟩ := Option.map_eq_some_iff.1 hentry
  obtain ⟨-, rfl⟩ := Prod.mk.inj he
  have hword : ∃ w word, entry.1 = w :: word := by
    simp only [names, List.mem_cons, List.not_mem_nil, or_false] at hmem
    rcases hmem with rfl | rfl | rfl | rfl | rfl | rfl <;> exact ⟨_, _, rfl⟩
  obtain ⟨w, word, hw⟩ := hword
  rw [hw, after?] at hr
  split at hr
  · exact after?_suffix hr
  · simp at hr

theorem Token.scan_suffix (c : CodePoint) (rest : Text) : (Token.scan c rest).2 <:+ rest := by
  unfold Token.scan
  repeat' split
  all_goals try simp
  · next h => exact scanText_suffix h
  · cases hname : scanName (c :: rest) with
    | some found => simpa using scanName_suffix hname
    | none =>
      cases hnumber : scanNumber (c :: rest) with
      | some found => simpa using scanNumber_suffix hnumber
      | none => simp

end CatalogCache.Json
