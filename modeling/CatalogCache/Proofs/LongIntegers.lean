import CatalogCache.Proofs.JsonRoundTrip
import CatalogCache.Proofs.Results

/-!
# Integers that are too long

A reader that stops at an integer has met more digits in a row than an integer may have.
-/

namespace CatalogCache.Json

/-- So many digits in a row. -/
def HasRun (n : Nat) (t : Text) : Prop :=
  ∃ digits : Text, digits <:+: t ∧ digits.length = n ∧ ∀ c ∈ digits, c.isAsciiDigit = true

theorem HasRun.mono {n : Nat} {t u : Text} (h : HasRun n t) (htu : t <:+: u) : HasRun n u := by
  obtain ⟨digits, hinfix, hdigits⟩ := h
  exact ⟨digits, hinfix.trans htu, hdigits⟩

/-! ## Tokens -/

theorem isAsciiDigit_of_mem_takeWhile {t : Text} {c : CodePoint}
    (h : c ∈ t.takeWhile CodePoint.isAsciiDigit) : c.isAsciiDigit = true :=
  List.all_eq_true.mp List.all_takeWhile c h

theorem length_takeDigits (t : Text) :
    (Binary64.takeDigits t).1.length = (t.takeWhile CodePoint.isAsciiDigit).length := by
  rw [Binary64.takeDigits, List.filterMap_length_eq_length]
  intro c hc
  simp [Integer.asciiDigit?, isAsciiDigit_of_mem_takeWhile hc]

theorem scanWhole_run {t : Text} (hlong : Integer.maxDigits < (scanWhole t).1.length) :
    HasRun (scanWhole t).1.length t := by
  unfold scanWhole at hlong ⊢
  split
  · simp [Integer.maxDigits] at hlong
  · exact ⟨t.takeWhile CodePoint.isAsciiDigit, (List.takeWhile_prefix _).isInfix,
      (length_takeDigits t).symm, fun c hc => isAsciiDigit_of_mem_takeWhile hc⟩

theorem scanUnsigned_longInteger {negative : Bool} {t rest : Text} {n : Nat}
    (h : scanUnsigned negative t = some (.longInteger n, rest)) :
    Integer.maxDigits < n ∧ HasRun n t := by
  unfold scanUnsigned at h
  split at h
  · cases h
  · next whole after _ hwhole =>
    split at h
    · cases h
    · split at h
      · cases h
      · have htoken := (Prod.mk.inj (Option.some.inj h)).1
        unfold integerToken at htoken
        split at htoken
        · cases htoken
        · next hlong =>
          cases htoken
          have hrun := scanWhole_run (t := t)
          rw [hwhole] at hrun
          exact ⟨Nat.lt_of_not_le hlong, hrun (Nat.lt_of_not_le hlong)⟩

theorem scanNumber_longInteger {t rest : Text} {n : Nat}
    (h : scanNumber t = some (.longInteger n, rest)) : Integer.maxDigits < n ∧ HasRun n t := by
  unfold scanNumber at h
  split at h
  · obtain ⟨hlong, hrun⟩ := scanUnsigned_longInteger h
    exact ⟨hlong, hrun.mono (List.suffix_cons _ _).isInfix⟩
  · exact scanUnsigned_longInteger h

theorem scanName_longInteger {t rest : Text} {n : Nat} :
    scanName t ≠ some (.longInteger n, rest) := by
  intro h
  obtain ⟨entry, -, hentry⟩ := List.exists_of_findSome?_eq_some h
  obtain ⟨r, -, he⟩ := Option.map_eq_some_iff.1 hentry
  cases he

theorem Token.scan_longInteger {c : CodePoint} {rest : Text} {n : Nat}
    (h : (Token.scan c rest).1 = .longInteger n) :
    Integer.maxDigits < n ∧ HasRun n (c :: rest) := by
  unfold Token.scan at h
  repeat' split at h
  all_goals try cases h
  cases hname : scanName (c :: rest) with
  | some found =>
    obtain ⟨token, after⟩ := found
    simp only [hname, Option.some_or, Option.getD_some] at h
    exact absurd (h ▸ hname) scanName_longInteger
  | none =>
    cases hnumber : scanNumber (c :: rest) with
    | some found =>
      obtain ⟨token, after⟩ := found
      simp only [hname, hnumber, Option.none_or, Option.getD_some] at h
      exact scanNumber_longInteger (h ▸ hnumber)
    | none => simp [hname, hnumber] at h

/-! ## Runs -/

theorem Reading.onValue_longInteger {maxDepth : Nat} {outer : List Frame} {token : Token}
    {here : Text} {n : Nat} (h : onValue maxDepth outer token here = .error (.longInteger n)) :
    token = .longInteger n := by
  unfold onValue at h
  split at h
  · split at h <;> cases h
  · split at h <;> cases h
  · cases h
  · cases h
  · cases h
    rfl
  · cases h
  · cases h

theorem Reading.onName_longInteger {members : Members} {outer : List Frame} {token : Token}
    {here : Text} {n : Nat} : onName members outer token here ≠ .error (.longInteger n) := by
  unfold onName
  split <;> exact nofun

theorem Reading.step_longInteger {maxDepth : Nat} {state : Reading} {token : Token} {here : Text}
    {n : Nat} (h : state.step maxDepth token here = .error (.longInteger n)) :
    token = .longInteger n := by
  unfold step at h
  split at h
  · exact onValue_longInteger h
  · cases h
  · exact onValue_longInteger h
  · cases h
  · exact absurd h onName_longInteger
  · exact absurd h onName_longInteger
  all_goals cases h

theorem Reading.finish_longInteger {state : Reading} {n : Nat} :
    state.finish ≠ .error (.longInteger n) := by
  cases state <;> exact nofun

theorem Reading.run_longInteger {maxDepth : Nat} {state : Reading} {t : Text} {n : Nat}
    (h : state.run maxDepth t = .error (.longInteger n)) :
    Integer.maxDigits < n ∧ HasRun n t := by
  fun_induction Reading.run maxDepth state t with
  | case1 => exact absurd h finish_longInteger
  | case2 state t c rest hrest stop hstep =>
    cases h
    obtain ⟨hlong, hrun⟩ := Token.scan_longInteger (step_longInteger hstep)
    exact ⟨hlong, hrun.mono (hrest ▸ (List.dropWhile_suffix _).isInfix)⟩
  | case3 state t c rest hrest next hstep ih =>
    obtain ⟨hlong, hrun⟩ := ih h
    have hscan := (Token.scan_suffix c rest).trans (List.suffix_cons c rest)
    exact ⟨hlong, hrun.mono (hscan.trans (hrest ▸ List.dropWhile_suffix _)).isInfix⟩

/-- **Long integers.** A text that is refused for an integer has as many digits in a row, and they
are too many. -/
theorem read_longInteger {t : Text} {n : Nat} (h : read t = .error (.longInteger n)) :
    Integer.maxDigits < n ∧ HasRun n t := by
  unfold read readWithin at h
  split at h
  · cases h
  · cases hrun : Reading.run maxDepth (.value []) t with
    | ok j => simp [hrun] at h
    | error stop =>
      rw [hrun] at h
      cases stop with
      | longInteger n' =>
        cases h
        exact Reading.run_longInteger hrun
      | fault | depth => cases h

theorem read_longNumeral {t : Text} (ht : t.IsNumeral) (hlong : Integer.maxDigits < t.length) :
    read t = .error (.longInteger t.length) := by
  obtain ⟨c, rest, rfl⟩ := List.exists_cons_of_ne_nil ht.nonempty
  have hdigit := ht.digits c List.mem_cons_self
  have hunsigned := scanUnsigned_numeral false ht [] nofun
  have hnumber := scanNumber_numeral ht []
  rw [hunsigned, integerToken, Text.length_digitValues ht.digits,
    if_neg (Nat.not_le_of_lt hlong), List.append_nil] at hnumber
  have hscan : Token.scan c rest = (.longInteger (c :: rest).length, []) := by
    rw [scan_of_plain _ (digit_facts hdigit).2, (scanName_of_digit (c := c) rfl hdigit).1, hnumber]
    rfl
  have hrun : (Reading.value []).run maxDepth (c :: rest) =
      .error (.longInteger (c :: rest).length) := by
    rw [Reading.run_of_dropWhile (List.dropWhile_cons_of_neg (by simp [(digit_facts hdigit).1])),
      hscan]
    rfl
  have hmark : (c :: rest).head? ≠ some 0xfeff := by
    rintro ⟨⟩
    exact absurd hdigit (by decide)
  rw [read, readWithin, if_neg hmark, hrun]
  rfl

end CatalogCache.Json
