import CatalogCache.Proofs.PlainNames
import CatalogCache.Proofs.Slots

/-!
# The places of an account

All that an account keeps stands in one directory below the root of the store. Two disks agree about
an account if they are the same there, whatever other accounts have made.
-/

namespace CatalogCache

/-! ## Roots -/

/-- Where the root of a store is: the parts of its path that lead to a directory, that directory,
and the plain names from there on, which may be missing. -/
structure Root where
  found : List Text
  base : Location
  missing : List Text

/-- The place of the directory of an account. -/
def Root.account (ρ : Root) (a : Text) : Location := ρ.base ++ (ρ.missing ++ [a])

/-- The root of the store is there, by its path and by its absolute path. There is no link in it,
and nothing but directories stands on the way. -/
structure Store.Rooted (s : Store) (ρ : Root) (d : Disk) : Prop where
  root : s.root.isAddressable = true
  home : d.hasGoodHome = true
  parts : s.root.parts = ρ.found ++ ρ.missing
  leads : Leads d true Walk.maxLinks (d.start s.root) ρ.found ρ.base
  straight : Leads d true Walk.maxLinks [] (d.absolute ⟨s.root.root, ρ.found⟩).parts ρ.base
  there : ∃ m, d.node? ρ.base = some (.directory m)
  plain : ∀ name ∈ ρ.missing, name.IsPlain
  linkless : ∀ k t, ρ.base ++ ρ.missing.take 1 <+: k → d.node? k ≠ some (.link t)
  clear : Disk.Goes.Clear d ρ.base ρ.missing

/-! ## Absolute paths -/

theorem FilePath.foldl_names {step : List Text → Text → List Text}
    (hstep : ∀ done part, part ≠ dotDot → step done part = done ++ [part]) {names : List Text}
    (hnames : ∀ name ∈ names, name ≠ dotDot) (done : List Text) :
    names.foldl step done = done ++ names := by
  induction names generalizing done with
  | nil => exact (List.append_nil _).symm
  | cons name names ih =>
    rw [List.forall_mem_cons] at hnames
    rw [List.foldl_cons, hstep done name hnames.1, ih hnames.2, List.append_assoc]
    rfl

theorem FilePath.collapse_append (root : Text) (parts : List Text) {names : List Text}
    (hnames : ∀ name ∈ names, name ≠ dotDot) :
    (⟨root, parts ++ names⟩ : FilePath).collapse.parts =
      (⟨root, parts⟩ : FilePath).collapse.parts ++ names := by
  unfold collapse
  dsimp only
  rw [List.foldl_append, foldl_names (fun done part hpart => if_pos hpart) hnames]
  rfl

theorem FilePath.collapse_names (root : Text) {names : List Text}
    (hnames : ∀ name ∈ names, name ≠ dotDot) :
    (⟨root, names⟩ : FilePath).collapse.parts = names :=
  collapse_append root [] hnames

namespace Disk

theorem absolute_append (d : Disk) (root : Text) (parts : List Text) {names : List Text}
    (hnames : ∀ name ∈ names, name ≠ FilePath.dotDot) :
    (d.absolute ⟨root, parts ++ names⟩).parts = (d.absolute ⟨root, parts⟩).parts ++ names := by
  unfold absolute
  have habsolute : (⟨root, parts ++ names⟩ : FilePath).isAbsolute =
      (⟨root, parts⟩ : FilePath).isAbsolute := rfl
  rw [habsolute]
  split
  · exact FilePath.collapse_append root parts hnames
  · dsimp only
    rw [← List.append_assoc]
    exact FilePath.collapse_append _ _ hnames

theorem start_absolute (d : Disk) (p : FilePath) : d.start (d.absolute p) = [] := by
  have habsolute : (d.absolute p).isAbsolute = true := by
    unfold absolute
    split
    · assumption
    · rfl
  rw [start, if_pos habsolute]

theorem absolute_home {d d' : Disk} (h : d'.home = d.home) (p : FilePath) :
    d'.absolute p = d.absolute p := by
  rw [absolute, absolute, h]

end Disk

/-! ## Paths of an account -/

namespace Store

variable {s : Store} {ρ : Root} {d d' : Disk} {a x : Text} {c : Catalog}

/-- The path by which a temporary file in the directory of an account is made. -/
def inside (s : Store) (a : Text) (d : Disk) (x : Text) : FilePath :=
  (d.absolute (s.root.child a)).child x

theorem tempPath_slot (s : Store) (a : Text) (c : Catalog) (d : Disk) (serial : Nat) :
    d.tempPath (s.slot a c) serial = s.inside a d (Disk.tempName c.fileName serial) := by
  have hparent : (s.slot a c).parent = s.root.child a := by
    simp [slot, FilePath.parent, FilePath.child]
  have hname : (s.slot a c).name = c.fileName := by
    simp [slot, FilePath.name, FilePath.child]
  rw [Disk.tempPath, hparent, hname, inside]

namespace Rooted

theorem linkless_way (h : s.Rooted ρ d) (rest : List Text) (k : Nat) (t : Text) :
    d.node? (ρ.base ++ (ρ.missing ++ rest).take (k + 1)) ≠ some (.link t) := by
  apply h.linkless
  rw [List.prefix_append_right_inj]
  cases ρ.missing <;> simp

theorem goes_child (h : s.Rooted ρ d) (ha : a.IsPlain) :
    d.Goes (s.root.child a) ρ.base (ρ.missing ++ [a]) where
  front := ⟨ρ.found, by rw [FilePath.child, h.parts, List.append_assoc], h.leads⟩
  there := h.there
  plain := by
    intro name hname
    rcases List.mem_append.mp hname with hname | hname
    · exact h.plain name hname
    · rwa [List.mem_singleton.mp hname]
  linkless := h.linkless_way [a]

theorem plain_pair (h : s.Rooted ρ d) (ha : a.IsPlain) (hx : x.IsPlain) :
    ∀ name ∈ ρ.missing ++ [a, x], name.IsPlain := by
  intro name hname
  simp only [List.mem_append, List.mem_cons, List.not_mem_nil, or_false] at hname
  rcases hname with hname | rfl | rfl
  · exact h.plain name hname
  · exact ha
  · exact hx

theorem goes_slot (h : s.Rooted ρ d) (ha : a.IsPlain) (c : Catalog) :
    d.Goes (s.slot a c) ρ.base (ρ.missing ++ [a, c.fileName]) where
  front := by
    refine ⟨ρ.found, ?_, h.leads⟩
    rw [slot, FilePath.child, FilePath.child, h.parts]
    simp
  there := h.there
  plain := h.plain_pair ha c.isPlain_fileName
  linkless := h.linkless_way [a, c.fileName]

theorem goes_inside (h : s.Rooted ρ d) (ha : a.IsPlain) (hx : x.IsPlain) :
    d.Goes (s.inside a d x) ρ.base (ρ.missing ++ [a, x]) where
  front := by
    refine ⟨(d.absolute ⟨s.root.root, ρ.found⟩).parts, ?_, ?_⟩
    · have hchild := fun name hname => ((h.goes_child ha).plain name hname).2
      have hparts : s.root.child a = ⟨s.root.root, ρ.found ++ (ρ.missing ++ [a])⟩ := by
        rw [FilePath.child, h.parts, List.append_assoc]
      rw [inside, FilePath.child, hparts, d.absolute_append _ _ hchild]
      simp
    · have hstart : d.start (s.inside a d x) = [] := d.start_absolute (s.root.child a)
      rw [hstart]
      exact h.straight
  there := h.there
  plain := h.plain_pair ha hx
  linkless := h.linkless_way [a, x]

theorem frame {places : Location → Prop} (h : s.Rooted ρ d) (hframe : Disk.Frame places d d')
    (hplaces : ∀ k < ρ.missing.length, ¬places (ρ.base ++ ρ.missing.take (k + 1))) :
    s.Rooted ρ d' where
  root := h.root
  home := by
    rw [Disk.hasGoodHome, hframe.home]
    exact h.home
  parts := h.parts
  leads := by
    have hstart : d'.start s.root = d.start s.root := by rw [Disk.start, Disk.start, hframe.home]
    exact hstart ▸ h.leads.stable hframe.stable
  straight := by
    rw [Disk.absolute_home hframe.home]
    exact h.straight.stable hframe.stable
  there := by
    obtain ⟨m, hm⟩ := h.there
    exact hframe.directory _ m hm
  plain := h.plain
  linkless := fun k t hk ht => h.linkless k t hk ((hframe.link k t).mp ht)
  clear := by
    intro k n hk hn
    cases n with
    | directory m => exact ⟨m, rfl⟩
    | file bytes m => exact h.clear k _ hk ((hframe.file _ (hplaces k hk) bytes m).mp hn)
    | link t =>
      have hlink := h.linkless_way [] k t
      rw [List.append_nil] at hlink
      exact absurd ((hframe.link _ t).mp hn) hlink

end Rooted

end Store

/-! ## Disks that agree about an account -/

namespace Root

variable {ρ : Root} {a b : Text} {d d' : Disk} {l : Location}

/-- A place in the directory of an account. -/
def Within (ρ : Root) (a : Text) (l : Location) : Prop := ∃ x, l = ρ.account a ++ [x]

/-- What an account has stands below a root that is there. -/
def Grounded (ρ : Root) (a : Text) (d : Disk) : Prop :=
  d.node? (ρ.account a) ≠ none →
    ∀ k < ρ.missing.length, ∃ m, d.node? (ρ.base ++ ρ.missing.take (k + 1)) = some (.directory m)

theorem Grounded.stable (h : ρ.Grounded a d) (hstable : Disk.Stable d d')
    (hkept : d.Kept d' (ρ.account a)) : ρ.Grounded a d' := by
  intro hthere k hk
  have hbefore : d.node? (ρ.account a) ≠ none := by
    rcases hkept with hsame | ⟨m, _, hm, -⟩
    · rwa [hsame] at hthere
    · simp [hm]
  obtain ⟨m, hm⟩ := h hbefore k hk
  exact hstable.directory _ m hm

theorem length_account (ρ : Root) (a : Text) :
    (ρ.account a).length = ρ.base.length + ρ.missing.length + 1 := by
  simp [account]
  omega

theorem account_append_inj {rest rest' : List Text}
    (h : ρ.account a ++ rest = ρ.account b ++ rest') : a = b ∧ rest = rest' := by
  have hlength := congrArg List.length h
  simp only [account, List.append_assoc, List.append_cancel_left_eq] at h
  simpa using h

theorem not_within_way {k : Nat} (hk : k ≤ ρ.missing.length) :
    ¬ρ.Within a (ρ.base ++ (ρ.missing ++ [b]).take (k + 1)) := by
  rintro ⟨x, hx⟩
  have hlength := congrArg List.length hx
  simp [length_account] at hlength
  omega

theorem below_of_missing (h : Disk.Changes (d.Missing ρ.base (ρ.missing ++ [b])) d d')
    {rest : List Text} (hrest : rest ≠ []) :
    d'.node? (ρ.account a ++ rest) = d.node? (ρ.account a ++ rest) := by
  have hpos := List.length_pos_iff.mpr hrest
  have hshort : ∀ l, d.Missing ρ.base (ρ.missing ++ [b]) l → l.length ≤ (ρ.account a).length := by
    rintro l ⟨-, k, hk, rfl⟩
    simp [length_account]
    omega
  apply h.node_eq
  · intro hplace
    have hlength := hshort _ hplace
    rw [List.length_append] at hlength
    omega
  · rintro l hplace hsame
    have hlength := hshort l hplace
    have hsame := congrArg List.length hsame
    rw [List.length_append, List.length_dropLast] at hsame
    omega

theorem kept_of_missing (h : Disk.Changes (d.Missing ρ.base (ρ.missing ++ [b])) d d')
    (hne : a ≠ b) : d.Kept d' (ρ.account a) := by
  apply h.kept
  rintro ⟨-, k, hk, hsame⟩
  have hlength := congrArg List.length hsame
  simp [length_account] at hlength hk
  rw [List.take_of_length_le (by simp; omega)] at hsame
  have hsame : ρ.account a ++ [] = ρ.account b ++ [] := by simpa [account] using hsame
  exact hne (account_append_inj hsame).1

theorem below_of_within (h : Disk.Changes (ρ.Within b) d d') (hne : a ≠ b) (rest : List Text)
    : d'.node? (ρ.account a ++ rest) = d.node? (ρ.account a ++ rest) := by
  apply h.node_eq
  · rintro ⟨x, hx⟩
    exact hne (account_append_inj hx).1
  · rintro _ ⟨x, rfl⟩ hsame
    rw [List.dropLast_concat, ← List.append_nil (ρ.account b)] at hsame
    exact hne (account_append_inj hsame).1

end Root

namespace Store

variable {s : Store} {ρ : Root} {d d' e e' : Disk} {a b x : Text}

/-- The disks are the same in the directory of the account, and the root is there on both. -/
structure Agree (s : Store) (ρ : Root) (a : Text) (d e : Disk) : Prop where
  first : s.Rooted ρ d
  second : s.Rooted ρ e
  home : e.home = d.home
  groundedFirst : ρ.Grounded a d
  groundedSecond : ρ.Grounded a e
  here : d.Kept e (ρ.account a)
  below : ∀ rest, rest ≠ [] → e.node? (ρ.account a ++ rest) = d.node? (ρ.account a ++ rest)

theorem Agree.symm (h : s.Agree ρ a d e) : s.Agree ρ a e d where
  first := h.second
  second := h.first
  home := h.home.symm
  groundedFirst := h.groundedSecond
  groundedSecond := h.groundedFirst
  here := h.here.symm
  below := fun rest hrest => (h.below rest hrest).symm

/-! ## Making the directory of an account -/

/-- The disk once the directory of an account is made, as far as it can be. -/
def make (s : Store) (a : Text) (now : Instant) (d : Disk) : Disk × Except FileError Unit :=
  d.ensureDirectories Faults.none (s.root.child a) now

namespace Rooted

variable {now : Instant}

theorem good_child (h : s.Rooted ρ d) (ha : isAccountName a = true) :
    (s.root.child a).isAddressable = true :=
  FilePath.isAddressable_child h.root (isAddressable_of_isAccountName ha)

theorem frame_make (h : s.Rooted ρ d) (ha : isAccountName a = true) (now : Instant) :
    Disk.Frame Disk.Nowhere d (s.make a now d).1 :=
  (Disk.ensureDirectories_spec (h.good_child ha) rfl).1

theorem make_rooted (h : s.Rooted ρ d) (ha : isAccountName a = true) (now : Instant) :
    s.Rooted ρ (s.make a now d).1 :=
  h.frame (h.frame_make ha now) fun _ _ => id

theorem changes_make (h : s.Rooted ρ d) (ha : isAccountName a = true) (now : Instant) :
    Disk.Changes (d.Missing ρ.base (ρ.missing ++ [a])) d (s.make a now d).1 :=
  ((h.goes_child (isPlain_of_isAccountName ha)).changes_ensureDirectories (h.good_child ha) now).1

theorem way_of_make (h : s.Rooted ρ d) (ha : isAccountName a = true)
    (hok : (s.make a now d).2 = .ok ()) : ∀ k < (ρ.missing ++ [a]).length,
      ∃ m, (s.make a now d).1.node? (ρ.base ++ (ρ.missing ++ [a]).take (k + 1)) =
        some (.directory m) := by
  have hthere := (Disk.ensureDirectories_spec (h.good_child ha) rfl).2.1 hok rfl
  exact (((h.make_rooted ha now).goes_child (isPlain_of_isAccountName ha)).way_of_status
    (h.good_child ha) hthere).2.2

theorem make_grounded (h : s.Rooted ρ d) (ha : isAccountName a = true) (hgrounded : ρ.Grounded a d)
    (now : Instant) : ρ.Grounded a (s.make a now d).1 := by
  intro hthere k hk
  cases hnode : d.node? (ρ.account a) with
  | some n =>
    obtain ⟨m, hm⟩ := hgrounded (by simp [hnode]) k hk
    exact (h.frame_make ha now).directory _ m hm
  | none =>
    have hok := ((h.goes_child (isPlain_of_isAccountName ha)).changes_ensureDirectories
      (h.good_child ha) now).2 (by simp) hnode hthere
    obtain ⟨m, hm⟩ := h.way_of_make ha hok k (by simp; omega)
    rw [List.take_append_of_le_length hk] at hm
    exact ⟨m, hm⟩

theorem kept_of_not_made (h : s.Rooted ρ d) (ha : isAccountName a = true)
    (hno : (s.make a now d).2 ≠ .ok ()) : d.Kept (s.make a now d).1 (ρ.account a) := by
  obtain ⟨hchanges, hlast⟩ := (h.goes_child (isPlain_of_isAccountName ha)).changes_ensureDirectories
    (h.good_child ha) now
  cases hnode : d.node? (ρ.account a) with
  | some n =>
    apply hchanges.kept
    rintro ⟨hnone, -⟩
    cases hnone.symm.trans hnode
  | none =>
    left
    by_contra hthere
    rw [hnode] at hthere
    exact hno (hlast (by simp) hnode hthere)

end Rooted

namespace Agree

variable {now : Instant}

theorem clear (h : s.Agree ρ a d e) (hclear : Disk.Goes.Clear d ρ.base (ρ.missing ++ [a])) :
    Disk.Goes.Clear e ρ.base (ρ.missing ++ [a]) := by
  intro k n hk hn
  by_cases hway : k < ρ.missing.length
  · rw [List.take_append_of_le_length hway] at hn
    exact h.second.clear k n hway hn
  · have hall : (ρ.missing ++ [a]).take (k + 1) = ρ.missing ++ [a] :=
      List.take_of_length_le (by simp; omega)
    rw [hall] at hn
    rcases h.here with hsame | ⟨_, m, -, hm⟩
    · apply hclear k n hk
      rw [hall]
      exact hsame.symm.trans hn
    · exact ⟨m, Option.some.inj (hn.symm.trans hm)⟩

theorem make_ok_iff (h : s.Agree ρ a d e) (ha : isAccountName a = true) (now : Instant) :
    (s.make a now d).2 = .ok () ↔ (s.make a now e).2 = .ok () := by
  have hplain := isPlain_of_isAccountName ha
  have hgood := h.first.good_child ha
  rw [make, make, (h.first.goes_child hplain).ensureDirectories_ok_iff hgood,
    (h.second.goes_child hplain).ensureDirectories_ok_iff hgood]
  exact and_congr_right fun _ => and_congr_right fun _ => ⟨h.clear, h.symm.clear⟩

/-- **Making.** Both disks get the directory of the account, or neither. -/
theorem make (h : s.Agree ρ a d e) (ha : isAccountName a = true) (now : Instant) :
    s.Agree ρ a (s.make a now d).1 (s.make a now e).1 where
  first := h.first.make_rooted ha now
  second := h.second.make_rooted ha now
  home := by
    rw [(h.first.frame_make ha now).home, (h.second.frame_make ha now).home]
    exact h.home
  groundedFirst := h.first.make_grounded ha h.groundedFirst now
  groundedSecond := h.second.make_grounded ha h.groundedSecond now
  here := by
    by_cases hok : (s.make a now d).2 = .ok ()
    · have hall : ρ.base ++ (ρ.missing ++ [a]).take (ρ.missing.length + 1) = ρ.account a := by
        rw [List.take_of_length_le (by simp), Root.account]
      obtain ⟨m, hm⟩ := h.first.way_of_make ha hok ρ.missing.length (by simp)
      obtain ⟨m', hm'⟩ := h.second.way_of_make ha ((h.make_ok_iff ha now).mp hok) ρ.missing.length
        (by simp)
      rw [hall] at hm hm'
      exact .inr ⟨m, m', hm, hm'⟩
    · have hno := mt (h.make_ok_iff ha now).mpr hok
      exact ((h.first.kept_of_not_made ha hok).symm.trans h.here).trans
        (h.second.kept_of_not_made ha hno)
  below := by
    intro rest hrest
    rw [Root.below_of_missing (h.second.changes_make ha now) hrest,
      Root.below_of_missing (h.first.changes_make ha now) hrest]
    exact h.below rest hrest

end Agree

/-! ## What other accounts do -/

/-- What has happened from one disk to the other is nothing to the account. -/
structure Spares (s : Store) (ρ : Root) (a : Text) (d d' : Disk) : Prop where
  rooted : s.Rooted ρ d'
  stable : Disk.Stable d d'
  here : d.Kept d' (ρ.account a)
  below : ∀ rest, rest ≠ [] → d'.node? (ρ.account a ++ rest) = d.node? (ρ.account a ++ rest)

namespace Spares

theorem refl (h : s.Rooted ρ d) : s.Spares ρ a d d :=
  ⟨h, .refl d, .inl rfl, fun _ _ => rfl⟩

theorem trans {d₁ d₂ d₃ : Disk} (h : s.Spares ρ a d₁ d₂) (h' : s.Spares ρ a d₂ d₃) :
    s.Spares ρ a d₁ d₃ where
  rooted := h'.rooted
  stable := h.stable.trans h'.stable
  here := h.here.trans h'.here
  below := fun rest hrest => (h'.below rest hrest).trans (h.below rest hrest)

theorem of_missing (h : s.Rooted ρ d) (hframe : Disk.Frame Disk.Nowhere d d')
    (hchanges : Disk.Changes (d.Missing ρ.base (ρ.missing ++ [b])) d d') (hne : a ≠ b) :
    s.Spares ρ a d d' where
  rooted := h.frame hframe fun _ _ => id
  stable := hframe.stable
  here := Root.kept_of_missing hchanges hne
  below := fun _ hrest => Root.below_of_missing hchanges hrest

theorem of_within (h : s.Rooted ρ d) (hframe : Disk.Frame (ρ.Within b) d d')
    (hchanges : Disk.Changes (ρ.Within b) d d') (hne : a ≠ b) : s.Spares ρ a d d' where
  rooted := by
    apply h.frame hframe
    intro k hk hwithin
    apply Root.not_within_way (a := b) (b := b) (Nat.le_of_lt hk)
    rwa [List.take_append_of_le_length hk]
  stable := hframe.stable
  here := by
    apply hchanges.kept
    rintro ⟨x, hx⟩
    have hlength := congrArg List.length hx
    simp [Root.length_account] at hlength
  below := fun rest _ => Root.below_of_within hchanges hne rest

end Spares

theorem Rooted.make_spares {now : Instant} (h : s.Rooted ρ d) (hb : isAccountName b = true)
    (hne : a ≠ b) : s.Spares ρ a d (s.make b now d).1 :=
  .of_missing h (h.frame_make hb now) (h.changes_make hb now) hne

theorem Agree.spared (h : s.Agree ρ a d e) (hspares : s.Spares ρ a d d') : s.Agree ρ a d' e where
  first := hspares.rooted
  second := h.second
  home := h.home.trans hspares.stable.home.symm
  groundedFirst := h.groundedFirst.stable hspares.stable hspares.here
  groundedSecond := h.groundedSecond
  here := hspares.here.symm.trans h.here
  below := fun rest hrest => (h.below rest hrest).trans (hspares.below rest hrest).symm

end Store

end CatalogCache
