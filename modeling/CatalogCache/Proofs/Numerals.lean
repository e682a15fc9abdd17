import CatalogCache.Json.Token
import Mathlib

/-!
# Numerals

The decimal text of an integer is one token of a document, and the token is the integer. Any
digits are one token, unless there is a zero in front of others.
-/

namespace CatalogCache

/-! ## Decimal text -/

def CodePoint.digit (d : Nat) : CodePoint := CodePoint.ofNat (0x30 + d)

namespace CodePoint

theorem ofChar_digitChar : ∀ d < 10, ofChar d.digitChar = digit d := by decide

theorem isAsciiDigit_digit : ∀ d < 10, (digit d).isAsciiDigit = true := by decide

theorem asciiDigit?_digit : ∀ d < 10, Integer.asciiDigit? (digit d) = some d := by decide

theorem digit_ne_zero : ∀ d < 10, d ≠ 0 → digit d ≠ 0x30 := by decide

end CodePoint

namespace Text

theorem ofNat_of_lt {n : Nat} (h : n < 10) : ofNat n = [CodePoint.digit n] := by
  rw [ofNat, Nat.toDigits_of_lt_base h, List.map_singleton, CodePoint.ofChar_digitChar n h]

theorem ofNat_of_le {n : Nat} (h : 10 ≤ n) :
    ofNat n = ofNat (n / 10) ++ [CodePoint.digit (n % 10)] := by
  rw [ofNat, Nat.toDigits_of_base_le (by decide) h, List.map_append, List.map_singleton,
    CodePoint.ofChar_digitChar _ (Nat.mod_lt _ (by decide))]
  rfl

theorem ofNat_ne_nil (n : Nat) : ofNat n ≠ [] := by
  simp [ofNat, Nat.toDigits_ne_nil]

theorem isAsciiDigit_ofNat (n : Nat) : ∀ c ∈ ofNat n, c.isAsciiDigit = true := by
  induction n using Nat.strongRecOn with
  | _ n ih =>
    intro c hc
    by_cases h : n < 10
    · rw [ofNat_of_lt h, List.mem_singleton] at hc
      rw [hc]
      exact CodePoint.isAsciiDigit_digit n h
    · rw [ofNat_of_le (by omega), List.mem_append, List.mem_singleton] at hc
      rcases hc with hc | rfl
      · exact ih (n / 10) (by omega) c hc
      · exact CodePoint.isAsciiDigit_digit _ (Nat.mod_lt _ (by decide))

theorem head?_ofNat {n : Nat} (h : n ≠ 0) : (ofNat n).head? ≠ some 0x30 := by
  induction n using Nat.strongRecOn with
  | _ n ih =>
    by_cases hn : n < 10
    · rw [ofNat_of_lt hn]
      simpa using CodePoint.digit_ne_zero n hn h
    · rw [ofNat_of_le (by omega), List.head?_append_of_ne_nil _ (ofNat_ne_nil _)]
      exact ih (n / 10) (by omega) (by omega)

end Text

theorem Integer.ofDigits_append (ds : List Nat) (d : Nat) :
    Integer.ofDigits (ds ++ [d]) = Integer.ofDigits ds * 10 + d := by
  simp [Integer.ofDigits]

theorem Integer.ofDigits_zeros (k : Nat) (digits : List Nat) :
    ofDigits (List.replicate k 0 ++ digits) = ofDigits digits := by
  induction k with
  | zero => rfl
  | succ k ih => simpa [ofDigits, List.replicate_succ] using ih

theorem Integer.ofDigits_append_zeros (digits : List Nat) (k : Nat) :
    ofDigits (digits ++ List.replicate k 0) = ofDigits digits * 10 ^ k := by
  induction k with
  | zero => rw [List.replicate_zero, List.append_nil, pow_zero, mul_one]
  | succ k ih =>
    rw [List.replicate_succ', ← List.append_assoc, ofDigits_append, ih, pow_succ, mul_assoc,
      Nat.add_zero]

def Text.digitValues (t : Text) : List Nat := t.filterMap Integer.asciiDigit?

namespace Text

theorem ofDigits_digitValues_ofNat (n : Nat) : Integer.ofDigits (ofNat n).digitValues = n := by
  induction n using Nat.strongRecOn with
  | _ n ih =>
    by_cases h : n < 10
    · rw [ofNat_of_lt h, digitValues, List.filterMap_cons, CodePoint.asciiDigit?_digit n h]
      simp [Integer.ofDigits]
    · have hd := CodePoint.asciiDigit?_digit (n % 10) (Nat.mod_lt _ (by decide))
      rw [ofNat_of_le (by omega), digitValues, List.filterMap_append, List.filterMap_cons, hd,
        List.filterMap_nil, Integer.ofDigits_append, ← digitValues, ih (n / 10) (by omega)]
      omega

theorem length_digitValues {t : Text} (h : ∀ c ∈ t, c.isAsciiDigit = true) :
    t.digitValues.length = t.length := by
  induction t with
  | nil => rfl
  | cons c t ih =>
    rw [List.forall_mem_cons] at h
    simp only [digitValues] at ih ⊢
    rw [List.filterMap_cons, Integer.asciiDigit?, if_pos h.1]
    simp [ih h.2]

theorem digitValues_ne_nil {t : Text} (hne : t ≠ []) (h : ∀ c ∈ t, c.isAsciiDigit = true) :
    t.digitValues ≠ [] := by
  rw [← List.length_pos_iff, length_digitValues h, List.length_pos_iff]
  exact hne

theorem digitValues_append (t u : Text) :
    (t ++ u).digitValues = t.digitValues ++ u.digitValues :=
  List.filterMap_append ..

theorem digitValues_zeros (k : Nat) :
    digitValues (List.replicate k 0x30) = List.replicate k 0 :=
  List.filterMap_replicate_of_some (by decide)

theorem number_padZeros (width n : Nat) :
    Integer.ofDigits (padZeros width (ofNat n)).digitValues = n := by
  rw [padZeros, digitValues_append, digitValues_zeros, Integer.ofDigits_zeros]
  exact ofDigits_digitValues_ofNat n

/-- Digits, and no zero in front of others. -/
structure IsNumeral (t : Text) : Prop where
  nonempty : t ≠ []
  digits : ∀ c ∈ t, c.isAsciiDigit = true
  zero : t.head? = some 0x30 → t = [0x30]

theorem isNumeral_ofNat (n : Nat) : (ofNat n).IsNumeral where
  nonempty := ofNat_ne_nil n
  digits := isAsciiDigit_ofNat n
  zero := fun h => by
    by_cases hn : n = 0
    · rw [hn]; rfl
    · exact absurd h (head?_ofNat hn)

end Text

namespace Json

open Binary64 (takeDigits)

/-! ## Scanning -/

/-- Nothing at the front of a text goes on with digits. -/
def EndsDigits (t : Text) : Prop := ∀ c ∈ t.head?, c.isAsciiDigit = false

/-- Nothing at the front of a text goes on with a numeral. -/
def EndsNumeral (t : Text) : Prop :=
  ∀ c ∈ t.head?, c.isAsciiDigit = false ∧ c ≠ 0x2e ∧ c ≠ 0x65 ∧ c ≠ 0x45

theorem EndsNumeral.endsDigits {t : Text} (h : EndsNumeral t) : EndsDigits t :=
  fun c hc => (h c hc).1

theorem takeDigits_append {t rest : Text} (ht : ∀ c ∈ t, c.isAsciiDigit = true)
    (hrest : EndsDigits rest) : takeDigits (t ++ rest) = (t.digitValues, rest) := by
  have hstop : rest.takeWhile CodePoint.isAsciiDigit = [] ∧
      rest.dropWhile CodePoint.isAsciiDigit = rest := by
    cases rest with
    | nil => exact ⟨rfl, rfl⟩
    | cons c rest =>
      have hc := hrest c rfl
      exact ⟨List.takeWhile_cons_of_neg (by simp [hc]), List.dropWhile_cons_of_neg (by simp [hc])⟩
  rw [takeDigits, List.takeWhile_append_of_pos ht, List.dropWhile_append_of_pos ht, hstop.1,
    hstop.2, List.append_nil, Text.digitValues]

theorem scanFraction_of_ends {rest : Text} (h : EndsNumeral rest) : scanFraction rest = none := by
  unfold scanFraction
  split
  · exact absurd rfl (h _ rfl).2.1
  · rfl

theorem scanExponent_of_ends {rest : Text} (h : EndsNumeral rest) : scanExponent rest = none := by
  cases rest with
  | nil => rfl
  | cons c rest =>
    have hc := (h c rfl).2.2
    simp [scanExponent, hc]

theorem scanWhole_numeral {t rest : Text} (ht : t.IsNumeral) (h : EndsDigits rest) :
    scanWhole (t ++ rest) = (t.digitValues, rest) := by
  unfold scanWhole
  split
  · next tail heq =>
    have hhead := congrArg List.head? heq
    rw [List.head?_append_of_ne_nil _ ht.nonempty] at hhead
    obtain rfl := ht.zero hhead
    rw [List.singleton_append] at heq
    rw [(List.cons.inj heq).2]
    rfl
  · exact takeDigits_append ht.digits h

theorem scanUnsigned_numeral (negative : Bool) {t : Text} (ht : t.IsNumeral) (rest : Text)
    (h : EndsNumeral rest) :
    scanUnsigned negative (t ++ rest) = some (integerToken negative t.digitValues, rest) := by
  have hne := Text.digitValues_ne_nil ht.nonempty ht.digits
  unfold scanUnsigned
  rw [scanWhole_numeral ht h.endsDigits]
  split
  · next heq => exact absurd (Prod.mk.inj heq).1 hne
  · next heq =>
    obtain ⟨rfl, rfl⟩ := Prod.mk.inj heq
    rw [scanFraction_of_ends h, scanExponent_of_ends h]

theorem scanUnsigned_ofNat (negative : Bool) {n : Nat} {rest : Text}
    (hn : (Text.ofNat n).length ≤ Integer.maxDigits) (h : EndsNumeral rest) :
    scanUnsigned negative (Text.ofNat n ++ rest) =
      some (.scalar (.int (Integer.signed negative n)), rest) := by
  have hlength := Text.length_digitValues (Text.isAsciiDigit_ofNat n)
  rw [scanUnsigned_numeral negative (Text.isNumeral_ofNat n) _ h]
  simp only [integerToken, hlength, hn, if_true, Text.ofDigits_digitValues_ofNat]

theorem scanNumber_of_digit {c : CodePoint} (hc : c.isAsciiDigit = true) (t : Text) :
    scanNumber (c :: t) = scanUnsigned false (c :: t) := by
  unfold scanNumber
  split
  next heq =>
    rw [(List.cons.inj heq).1] at hc
    exact absurd hc (by decide)
  next => rfl

theorem scanNumber_numeral {t : Text} (ht : t.IsNumeral) (rest : Text) :
    scanNumber (t ++ rest) = scanUnsigned false (t ++ rest) := by
  obtain ⟨c, s, rfl⟩ := List.exists_cons_of_ne_nil ht.nonempty
  exact scanNumber_of_digit (ht.digits c List.mem_cons_self) _

theorem scanNumber_ofInt {i : Int} {rest : Text} (hi : (Integer.text? i).isSome)
    (h : EndsNumeral rest) :
    scanNumber (Text.ofInt i ++ rest) = some (.scalar (.int i), rest) := by
  have hlength : (Text.ofNat i.natAbs).length ≤ Integer.maxDigits := by
    unfold Integer.text? at hi
    split at hi
    · assumption
    · simp at hi
  cases i with
  | ofNat n =>
    exact (scanNumber_numeral (Text.isNumeral_ofNat n) _).trans
      (scanUnsigned_ofNat (n := n) false hlength h)
  | negSucc n => exact scanUnsigned_ofNat true hlength h

theorem scanName_of_digit {t : Text} {c : CodePoint} (ht : c ∈ t.head?)
    (hc : c.isAsciiDigit = true) : scanName t = none ∧ scanName (0x2d :: t) = none := by
  obtain ⟨rest, rfl⟩ : ∃ rest, t = c :: rest := by
    cases t with
    | nil => simp at ht
    | cons d rest => exact ⟨rest, by simpa using ht⟩
  have hne : ∀ d : CodePoint, d.isAsciiDigit = false → ¬d = c := by
    rintro d hd rfl
    simp [hc] at hd
  have hn := hne 0x6e (by decide)
  have ht := hne 0x74 (by decide)
  have hf := hne 0x66 (by decide)
  have hN := hne 0x4e (by decide)
  have hI := hne 0x49 (by decide)
  have hminus := hne 0x2d (by decide)
  have hnames : names = [([0x6e, 0x75, 0x6c, 0x6c], .null), ([0x74, 0x72, 0x75, 0x65], .bool true),
      ([0x66, 0x61, 0x6c, 0x73, 0x65], .bool false), ([0x4e, 0x61, 0x4e], .real .nan),
      ([0x49, 0x6e, 0x66, 0x69, 0x6e, 0x69, 0x74, 0x79], .real (.infinite false)),
      ([0x2d, 0x49, 0x6e, 0x66, 0x69, 0x6e, 0x69, 0x74, 0x79], .real (.infinite true))] := rfl
  constructor
  · simp [scanName, hnames, after?, hn, ht, hf, hN, hI, hminus]
  · simp [scanName, hnames, after?, hI]

end Json

end CatalogCache
