import CatalogCache.Settings
import CatalogCache.Proofs.Decimals
import CatalogCache.Proofs.Hours
import CatalogCache.Proofs.Numerals
import CatalogCache.Proofs.Results

/-!
# Lifetimes from the environment

A variable that holds no number, or one below zero, is refused by its name. A number of hours that
no duration has is not refused: the conversion fails on it, and the failure names nothing.
-/

namespace CatalogCache

theorem Binary64.valid_of_read? {t : Text} {x : Binary64} (h : read? t = some x) : x.IsValid := by
  obtain ⟨plain, -, h⟩ := Option.bind_eq_some_iff.mp h
  dsimp only at h
  split_ifs at h
  · cases h
    trivial
  · cases h
    trivial
  · obtain ⟨n, -, rfl⟩ := Option.map_eq_some_iff.mp h
    exact ofDecimal_valid _ _ _

namespace Settings

variable {homes : Homes} {env : Environment} {c : Catalog} {e : Failure}

/-! ## One lifetime -/

/-- What the variable of a catalog holds. -/
def given (env : Environment) (c : Catalog) : Text := env.value c.lifetimeVariable

/-- The variable is blank, or holds a number of hours that a duration can have. -/
def IsTaken (env : Environment) (c : Catalog) : Prop :=
  given env c = [] ∨
    ∃ x, Binary64.read? (given env c) = some x ∧ x.isNegative = false ∧ ¬x.IsOverlong

/-- The variable holds no number, or one below zero. -/
def IsRefused (env : Environment) (c : Catalog) : Prop :=
  given env c ≠ [] ∧ ∀ x, Binary64.read? (given env c) = some x → x.isNegative = true

/-- The variable holds a number of hours that no duration can have. -/
def IsOverlong (env : Environment) (c : Catalog) : Prop :=
  ∃ x, Binary64.read? (given env c) = some x ∧ x.IsOverlong

/-- The failure is a complaint about what the variable of a catalog holds. -/
def Complains (env : Environment) (c : Catalog) (e : Failure) : Prop :=
  e = .hours c.lifetimeVariable (given env c) ∨ e = .negativeHours c.lifetimeVariable (given env c)

theorem readHours_none {name raw : Text} (h : Binary64.read? raw = none) :
    readHours name raw = .error (.hours name raw) := by
  rw [readHours, h]

theorem readHours_some {name raw : Text} {x : Binary64} (h : Binary64.read? raw = some x) :
    readHours name raw = if x.isNegative then .error (.negativeHours name raw)
      else (Duration.ofHours x).mapError .duration := by
  rw [readHours, h]

theorem readLifetime_spec (env : Environment) (c : Catalog) :
    (IsTaken env c ∧ ∃ d, readLifetime env c = .ok d ∧ d.isNegative = false ∧
      (given env c = [] → d = c.defaultLifetime)) ∨
    (IsRefused env c ∧ ∃ e, readLifetime env c = .error e ∧ Complains env c e) ∨
    (IsOverlong env c ∧ ∃ e, readLifetime env c = .error (.duration e)) := by
  by_cases hblank : given env c = []
  · refine .inl ⟨.inl hblank, c.defaultLifetime, if_pos hblank, ?_, fun _ => rfl⟩
    cases c <;> rfl
  have hread : readLifetime env c = readHours c.lifetimeVariable (given env c) := if_neg hblank
  rw [hread]
  cases hx : Binary64.read? (given env c) with
  | none =>
    refine .inr (.inl ⟨⟨hblank, fun x hsome => ?_⟩, _, readHours_none hx, .inl rfl⟩)
    cases hx.symm.trans hsome
  | some x =>
    rw [readHours_some hx]
    cases hnegative : x.isNegative with
    | true =>
      refine .inr (.inl ⟨⟨hblank, fun y hy => ?_⟩, _, rfl, .inr rfl⟩)
      rwa [← Option.some.inj (hx.symm.trans hy)]
    | false =>
      have hok := Duration.ofHours_ok_iff (Binary64.valid_of_read? hx) hnegative
      rw [if_neg Bool.false_ne_true]
      cases hhours : Duration.ofHours x with
      | ok d =>
        have hshort : ¬x.IsOverlong := hok.mp ⟨d, hhours⟩
        exact .inl ⟨.inr ⟨x, hx, hnegative, hshort⟩, d, rfl,
          Duration.ofHours_not_negative hnegative hhours, fun h => absurd h hblank⟩
      | error e =>
        have hlong : x.IsOverlong := by
          by_contra hshort
          obtain ⟨d, hd⟩ := hok.mpr hshort
          cases hhours.symm.trans hd
        exact .inr (.inr ⟨⟨x, hx, hlong⟩, e, rfl⟩)

theorem IsTaken.not_refused (h : IsTaken env c) : ¬IsRefused env c := by
  rintro ⟨hgiven, hnegative⟩
  rcases h with hblank | ⟨x, hx, hpositive, -⟩
  · exact hgiven hblank
  · cases hpositive.symm.trans (hnegative x hx)

theorem IsOverlong.not_taken (h : IsOverlong env c) : ¬IsTaken env c := by
  obtain ⟨x, hx, hlong⟩ := h
  rintro (hblank | ⟨y, hy, -, hshort⟩)
  · rw [hblank] at hx
    cases hx
  · rw [Option.some.inj (hx.symm.trans hy)] at hlong
    exact hshort hlong

theorem IsOverlong.not_refused (h : IsOverlong env c) : ¬IsRefused env c := by
  obtain ⟨x, hx, hlong⟩ := h
  rintro ⟨-, hnegative⟩
  cases hlong.not_negative.symm.trans (hnegative x hx)

theorem readLifetime_ok_iff : (∃ d, readLifetime env c = .ok d) ↔ IsTaken env c := by
  rcases readLifetime_spec env c with ⟨h, d, hd, -⟩ | ⟨h, e, he, -⟩ | ⟨h, e, he⟩
  · exact iff_of_true ⟨d, hd⟩ h
  · refine iff_of_false ?_ fun htaken => htaken.not_refused h
    rintro ⟨d, hd⟩
    cases hd.symm.trans he
  · refine iff_of_false ?_ h.not_taken
    rintro ⟨d, hd⟩
    cases hd.symm.trans he

theorem error_cases (he : readLifetime env c = .error e) :
    (IsRefused env c ∧ Complains env c e) ∨ (IsOverlong env c ∧ ∃ cause, e = .duration cause) := by
  rcases readLifetime_spec env c with ⟨-, d, hd, -⟩ | ⟨hrefused, e', he', h⟩ | ⟨hlong, e', he'⟩
  · cases hd.symm.trans he
  · obtain rfl := Except.error.inj (he'.symm.trans he)
    exact .inl ⟨hrefused, h⟩
  · exact .inr ⟨hlong, e', (Except.error.inj (he'.symm.trans he)).symm⟩

theorem readLifetime_overlong (h : IsOverlong env c) :
    ∃ e, readLifetime env c = .error (.duration e) := by
  rcases readLifetime_spec env c with ⟨htaken, -⟩ | ⟨hrefused, -⟩ | ⟨-, hfails⟩
  · exact absurd htaken h.not_taken
  · exact absurd hrefused h.not_refused
  · exact hfails

/-! ## All lifetimes -/

theorem lifetimes_read {root : FilePath} (hroot : readRoot homes env = .ok root) :
    (fun s => Catalog.all.map s.lifetimes) <$> read homes env =
      Catalog.all.mapM (readLifetime env) := by
  rw [read, hroot, Result.bind_ok]
  simp only [Catalog.all, List.mapM_cons, List.mapM_nil]
  cases readLifetime env .issueTypes with
  | error e => rfl
  | ok issueTypes =>
  cases readLifetime env .statuses with
  | error e => rfl
  | ok statuses =>
  cases readLifetime env .priorities with
  | error e => rfl
  | ok priorities =>
  cases readLifetime env .resolutions with
  | error e => rfl
  | ok resolutions => rfl

theorem read_eq_error_iff {root : FilePath} (hroot : readRoot homes env = .ok root) :
    read homes env = .error e ↔ ∃ before c after, Catalog.all = before ++ c :: after ∧
      (∀ b ∈ before, IsTaken env b) ∧ readLifetime env c = .error e := by
  have hread := lifetimes_read hroot
  simp only [← readLifetime_ok_iff, ← Result.mapM_eq_error_iff, ← hread]
  cases read homes env <;> simp

theorem lifetime_of_read {root : FilePath} (hroot : readRoot homes env = .ok root) {s : Settings}
    (hs : read homes env = .ok s) (c : Catalog) : readLifetime env c = .ok (s.lifetimes c) := by
  have hread := lifetimes_read hroot
  rw [hs, Result.map_ok, eq_comm, Result.mapM_eq_ok_iff, List.forall₂_map_right_iff,
    List.forall₂_same] at hread
  exact hread c (by cases c <;> decide)

/-! ## What messages name -/

/-- A failure whose message holds the name of a variable that is set. -/
def NamesVariable (env : Environment) (e : Failure) : Prop :=
  ∃ c, given env c ≠ [] ∧ c.lifetimeVariable <:+: e.message

theorem Complains.names (h : Complains env c e) : c.lifetimeVariable <:+: e.message := by
  rcases h with rfl | rfl
  · exact (List.prefix_append _ _).isInfix
  · exact (List.prefix_append _ _).isInfix

theorem Text.letter_not_mem_ofInt (i : Int) : (0x4a : CodePoint) ∉ Text.ofInt i := by
  have hdigits : ∀ n, (0x4a : CodePoint) ∉ Text.ofNat n := fun n h =>
    absurd (Text.isAsciiDigit_ofNat n _ h) (by decide)
  cases i with
  | ofNat n => exact hdigits n
  | negSucc n =>
    intro h
    rcases List.mem_append.mp h with hsign | hdigit
    · revert hsign
      decide
    · exact hdigits (n + 1) hdigit

theorem silent_duration (e : DurationError) (c : Catalog) :
    ¬c.lifetimeVariable <:+: (Failure.duration e).message := by
  intro hnames
  have hletter : (0x4a : CodePoint) ∈ c.lifetimeVariable := by cases c <;> decide
  have hshown : (0x4a : CodePoint) ∈ e.message := hnames.subset hletter
  cases e with
  | infinite | notANumber | overflow =>
    revert hshown
    decide
  | range days =>
    simp only [DurationError.message, List.mem_flatten, List.mem_cons, List.not_mem_nil, or_false,
      exists_eq_or_imp, exists_eq_left] at hshown
    rcases hshown with hfront | hdays | hend
    · revert hfront
      decide
    · exact Text.letter_not_mem_ofInt days hdays
    · revert hend
      decide

/-! ## Settings -/

/-- Settings that a cached client takes as they are. -/
structure Accepted (env : Environment) (s : Settings) : Prop where
  not_negative : ∀ c, (s.lifetimes c).isNegative = false
  default : ∀ c, given env c = [] → s.lifetimes c = c.defaultLifetime
  constructs : ∀ account store,
    Cached.of account store s.lifetimes = .ok ⟨account, store, s.lifetimes⟩

theorem accepted_of_read {root : FilePath} (hroot : readRoot homes env = .ok root) {s : Settings}
    (hs : read homes env = .ok s) : Accepted env s := by
  have hspec : ∀ c, (s.lifetimes c).isNegative = false ∧
      (given env c = [] → s.lifetimes c = c.defaultLifetime) := by
    intro c
    have hc := lifetime_of_read hroot hs c
    rcases readLifetime_spec env c with ⟨-, d, hd, hspec⟩ | ⟨-, e, he, -⟩ | ⟨-, e, he⟩
    · rw [Except.ok.inj (hc.symm.trans hd)]
      exact hspec
    · cases hc.symm.trans he
    · cases hc.symm.trans he
  refine ⟨fun c => (hspec c).1, fun c => (hspec c).2, fun account store => ?_⟩
  have hnone : Catalog.all.find? (fun c => (s.lifetimes c).isNegative) = none := by
    simp [hspec]
  rw [Cached.of, hnone]

theorem readRoot_of_unset (hroot : env.value rootVariable = [])
    (hcache : env.value "XDG_CACHE_HOME" = []) (hhome : (FilePath.ofText homes.own).root ≠ []) :
    ∃ root, readRoot homes env = .ok root := by
  refine ⟨((FilePath.ofText homes.own).child ".cache").child "jira-metadata", ?_⟩
  rw [readRoot, if_pos hroot, defaultRoot, if_pos hcache, FilePath.expandHome]
  split
  · next hrelative _ => exact absurd hrelative hhome
  · rfl

/-- **Lifetimes.** Where the root can be read, the settings are accepted, or else refused with the
name of a variable that is set, exactly if the first variable that is not taken is not overlong. A
refusal that names a variable is a complaint about what one of them holds. -/
theorem settled_iff {root : FilePath} (hroot : readRoot homes env = .ok root) :
    (((∃ s, read homes env = .ok s ∧ Accepted env s) ∨
      (∃ e, read homes env = .error e ∧ NamesVariable env e)) ↔
    ¬∃ before c after, Catalog.all = before ++ c :: after ∧ (∀ b ∈ before, IsTaken env b) ∧
      IsOverlong env c) ∧
    ∀ e, read homes env = .error e → NamesVariable env e →
      ∃ c, given env c ≠ [] ∧ Complains env c e := by
  refine ⟨⟨?_, fun hshort => ?_⟩, fun e hread hnames => ?_⟩
  · rintro houtcome ⟨before, c, after, hall, hbefore, hlong⟩
    obtain ⟨e, he⟩ := readLifetime_overlong hlong
    have hfails := (read_eq_error_iff hroot).mpr ⟨before, c, after, hall, hbefore, he⟩
    rcases houtcome with ⟨s, hs, -⟩ | ⟨e', he', c', -, hnames⟩
    · cases hs.symm.trans hfails
    · obtain rfl := Except.error.inj (he'.symm.trans hfails)
      exact silent_duration e c' hnames
  · cases hread : read homes env with
    | ok s => exact .inl ⟨s, rfl, accepted_of_read hroot hread⟩
    | error e =>
      obtain ⟨before, c, after, hall, hbefore, he⟩ := (read_eq_error_iff hroot).mp hread
      rcases error_cases he with ⟨hrefused, hcomplains⟩ | ⟨hlong, -⟩
      · exact .inr ⟨e, rfl, c, hrefused.1, hcomplains.names⟩
      · exact absurd ⟨before, c, after, hall, hbefore, hlong⟩ hshort
  · obtain ⟨before, c, after, -, -, he⟩ := (read_eq_error_iff hroot).mp hread
    rcases error_cases he with ⟨hrefused, hcomplains⟩ | ⟨-, cause, rfl⟩
    · exact ⟨c, hrefused.1, hcomplains⟩
    · obtain ⟨c', -, hnamed⟩ := hnames
      exact absurd hnamed (silent_duration cause c')

/-- An environment in which no lifetime is a number. -/
def sampleEnvironment : Environment := [("JIRA_CACHE_TTL_STATUSES", "nan")]

theorem nan_not_named :
    (∃ root, readRoot (Homes.system "/home/ana") sampleEnvironment = .ok root) ∧
    ¬((∃ s, read (Homes.system "/home/ana") sampleEnvironment = .ok s ∧
        Accepted sampleEnvironment s) ∨
      ∃ e, read (Homes.system "/home/ana") sampleEnvironment = .error e ∧
        NamesVariable sampleEnvironment e) := by
  have hfound : ∃ root, readRoot (Homes.system "/home/ana") sampleEnvironment = .ok root :=
    readRoot_of_unset (by decide) (by decide) (by decide)
  obtain ⟨root, hroot⟩ := hfound
  refine ⟨⟨root, hroot⟩, fun houtcome => (settled_iff hroot).1.mp houtcome ?_⟩
  refine ⟨[.issueTypes], .statuses, [.priorities, .resolutions], rfl, ?_, .nan, ?_, trivial⟩
  · exact List.forall_mem_singleton.mpr (.inl (by decide))
  · decide

end Settings

end CatalogCache
