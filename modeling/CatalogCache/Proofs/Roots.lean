import CatalogCache.Proofs.Atomicity
import CatalogCache.Proofs.AccountPlaces

/-!
# Roots

The root of a store may be a directory, or it may have to be made first, or something may be in its
way. As long as its path has no double dots, its absolute path leads to the same place.
-/

namespace CatalogCache

/-! ## Directories that cannot be made -/

theorem Leads.front {d : Disk} {follow : Bool} {links : Nat} {l r : Location} {parts : List Text}
    {part : Text} (htree : d.IsTree) (hl : ∃ m, d.node? l = some (.directory m))
    (h : Leads d follow links l (parts ++ [part]) r) :
    ∃ base m, Leads d true links l parts base ∧ d.node? base = some (.directory m) := by
  generalize hall : parts ++ [part] = all at h
  induction h generalizing parts with
  | nil => simp at hall
  | @dot links l _ _ _ ih =>
    cases parts with
    | nil =>
      obtain ⟨m, hm⟩ := hl
      exact ⟨l, m, .nil .., hm⟩
    | cons first parts =>
      obtain ⟨rfl, hrest⟩ := List.cons.inj hall
      obtain ⟨base, m, hleads, hm⟩ := ih hl hrest
      exact ⟨base, m, .dot hleads, hm⟩
  | @dotDot links l _ _ _ ih =>
    obtain ⟨m, hm⟩ := hl
    cases parts with
    | nil => exact ⟨l, m, .nil .., hm⟩
    | cons first parts =>
      obtain ⟨rfl, hrest⟩ := List.cons.inj hall
      obtain ⟨base, m', hleads, hm'⟩ := ih (htree.parent l _ hm) hrest
      exact ⟨base, m', .dotDot hleads, hm'⟩
  | @last links l | @unfollowed links l =>
    obtain ⟨m, hm⟩ := hl
    cases parts with
    | nil => exact ⟨l, m, .nil .., hm⟩
    | cons first parts => simp at hall
  | @directory links l _ _ _ _ plain short node _ ih =>
    cases parts with
    | nil =>
      obtain ⟨m, hm⟩ := hl
      exact ⟨l, m, .nil .., hm⟩
    | cons first parts =>
      obtain ⟨rfl, hrest⟩ := List.cons.inj hall
      obtain ⟨base, m, hleads, hm⟩ := ih ⟨_, node⟩ hrest
      exact ⟨base, m, .directory plain short node hleads, hm⟩
  | @link links l _ _ target _ plain short node _ _ ih =>
    cases parts with
    | nil =>
      obtain ⟨m, hm⟩ := hl
      exact ⟨l, m, .nil .., hm⟩
    | cons first parts =>
      obtain ⟨rfl, hrest⟩ := List.cons.inj hall
      have hstart : ∃ m, d.node? (if target.head? = some FilePath.slash then [] else l) =
          some (.directory m) := by
        split_ifs
        · exact htree.root
        · exact hl
      obtain ⟨base, m, hleads, hm⟩ := @ih (Walk.targetParts target ++ parts) hstart
        (by rw [← hrest, List.append_assoc]; rfl)
      exact ⟨base, m, .link plain short node (.inr rfl) hleads, hm⟩

namespace Disk

variable {d : Disk} {p : FilePath} {name : Text} {follow : Bool} {l base : Location}
  {found : List Text}

theorem IsTree.start (h : d.IsTree) (p : FilePath) :
    ∃ m, d.node? (d.start p) = some (.directory m) := by
  unfold Disk.start
  split_ifs
  · exact h.root
  · exact h.home

theorem IsTree.above (h : d.IsTree) {rest : List Text} {n : Node}
    (hn : d.node? (l ++ rest) = some n) (hrest : rest ≠ []) :
    ∃ m, d.node? l = some (.directory m) := by
  induction rest using List.reverseRecOn generalizing n with
  | nil => exact absurd rfl hrest
  | append_singleton rest name ih =>
    obtain ⟨m, hm⟩ := h.parent _ n hn
    rw [← List.append_assoc, List.dropLast_concat] at hm
    by_cases hempty : rest = []
    · subst hempty
      exact ⟨m, by simpa using hm⟩
    · exact ih hm hempty

/-- The directory cannot be made, and to try changes nothing. -/
def IsShut (d : Disk) (p : FilePath) : Prop :=
  ∀ now, ∃ e, d.ensureDirectories Faults.none p now = (d, .error e)

theorem isShut_of_error
    (hparent : ∀ now, ∃ r, d.ensureDirectories Faults.none p.parent now = (d, r))
    (hno : ∀ now d', d.ensureDirectory Faults.none p now ≠ .ok d') : d.IsShut p := by
  intro now
  obtain ⟨r, hr⟩ := hparent now
  cases hmade : d.ensureDirectories Faults.none p now with
  | mk d' made =>
    cases makes_of hmade with
    | here hensure => exact absurd hensure (hno now d')
    | stuck => exact ⟨_, rfl⟩
    | above _ hup =>
      obtain ⟨rfl, -⟩ := Prod.mk.inj (hr.symm.trans hup)
      exact ⟨_, rfl⟩
    | again _ hup hensure =>
      obtain ⟨rfl, -⟩ := Prod.mk.inj (hr.symm.trans hup)
      exact absurd hensure (hno now d')
    | lost _ hup =>
      obtain ⟨rfl, -⟩ := Prod.mk.inj (hr.symm.trans hup)
      exact ⟨_, rfl⟩

theorem isShut_of_long (hp : p.isAddressable = true)
    (hlong : Walk.maxPath < Walk.byteLength p.toText) : d.IsShut p :=
  fun _ => ⟨_, ensureDirectories_long hp rfl hlong⟩

theorem locate_of_ensureDirectory {d' : Disk} {now : Instant} (hp : p.isAddressable = true)
    (h : d.ensureDirectory Faults.none p now = .ok d') : (∃ m, d.status p = .ok (.directory m)) ∨
      ∃ l, d.locate false p = .ok l ∧ d.node? l = none := by
  rcases ensureDirectory_ok h with rfl | ⟨l, hl, hnone, -⟩
  · exact .inl ((ensureDirectory_made hp h).2 rfl)
  · exact .inr ⟨l, (find_ok_iff hp).mp hl, hnone⟩

theorem IsTree.status_parent (h : d.IsTree) (hp : p.isAddressable = true) (hparts : p.parts ≠ [])
    (hl : d.locate follow p = .ok l) : ∃ m, d.status p.parent = .ok (.directory m) := by
  have hchild : p.parent.child (p.parts.getLast hparts) = p := by
    rw [FilePath.parent, FilePath.child, List.dropLast_append_getLast]
  obtain ⟨hshort, hleads⟩ := locate_ok_iff.mp hl
  rw [← List.dropLast_append_getLast hparts] at hleads
  obtain ⟨base, m, hfront, hm⟩ := hleads.front h (h.start p)
  rw [← hchild] at hshort
  exact ⟨m, status_of_leads (FilePath.isAddressable_parent hp) (FilePath.short_of_child hshort)
    hfront hm⟩

theorem IsShut.of_parent (h : d.IsShut p.parent) (htree : d.IsTree) (hp : p.isAddressable = true)
    (hparts : p.parts ≠ []) : d.IsShut p := by
  apply isShut_of_error
  · intro now
    obtain ⟨e, he⟩ := h now
    exact ⟨_, he⟩
  · intro now d' hok
    have hreached : ∃ follow l, d.locate follow p = .ok l := by
      rcases locate_of_ensureDirectory hp hok with ⟨m, hm⟩ | ⟨l, hl, -⟩
      · obtain ⟨l, hl, -⟩ := (status_ok_iff hp).mp hm
        exact ⟨true, l, hl⟩
      · exact ⟨false, l, hl⟩
    obtain ⟨follow, l, hl⟩ := hreached
    obtain ⟨m, hm⟩ := htree.status_parent hp hparts hl
    obtain ⟨e, he⟩ := h now
    rw [ensureDirectories_there (FilePath.isAddressable_parent hp) rfl hm] at he
    cases he

theorem IsShut.child (h : d.IsShut p) (htree : d.IsTree)
    (hp : (p.child name).isAddressable = true) : d.IsShut (p.child name) := by
  have hparent : (p.child name).parent = p := by simp [FilePath.child, FilePath.parent]
  exact .of_parent (hparent.symm ▸ h) htree hp (by simp [FilePath.child])

theorem isShut_of_node (hp : (p.child name).isAddressable = true) (hname : name.IsPlain)
    (hleads : Leads d true Walk.maxLinks (d.start p) p.parts base) {m : Instant}
    (hbase : d.node? base = some (.directory m)) (hnode : d.node? (base ++ [name]) ≠ none)
    (hno : ∀ m, d.status (p.child name) ≠ .ok (.directory m)) : d.IsShut (p.child name) := by
  have hparent : (p.child name).parent = p := by simp [FilePath.child, FilePath.parent]
  have hgood : p.isAddressable = true := hparent ▸ FilePath.isAddressable_parent hp
  apply isShut_of_error
  · intro now
    rw [hparent]
    exact ensureDirectories_leads hgood hleads hbase now
  · intro now d' hok
    rcases locate_of_ensureDirectory hp hok with ⟨m, hm⟩ | ⟨l, hl, hnone⟩
    · exact hno m hm
    · obtain ⟨links, hfrom⟩ := hleads.from_directory false hbase
      obtain rfl := (hfrom (by simp) (locate_ok_iff.mp hl).2).of_name hname
      exact hnode hnone

end Disk

/-! ## Paths that cannot be handed to the system -/

theorem Disk.isShut_of_unaddressable {d : Disk} {p : FilePath} (hp : p.isAddressable = false) :
    d.IsShut p := by
  intro now
  obtain ⟨e, hcheck, hother⟩ := checkPath_unaddressable hp
  have hensure : d.ensureDirectory Faults.none p now = .error e := by
    simp only [ensureDirectory, makeDirectory, find, hcheck, Result.bind_error]
  rw [ensureDirectories, hensure]
  cases e with
  | system e' => exact absurd rfl (hother e')
  | nullByte | unencodable => exact ⟨_, rfl⟩

/-! ## Where a store may be -/

namespace Store

variable {s : Store} {ρ : Root} {d : Disk}

/-- The root is a directory without links in it, or it is not there. As far as it is there, its path
and its absolute path lead to the same directory. -/
structure Founded (s : Store) (ρ : Root) (d : Disk) : Prop where
  root : s.root.isAddressable = true
  home : d.hasGoodHome = true
  parts : s.root.parts = ρ.found ++ ρ.missing
  leads : Leads d true Walk.maxLinks (d.start s.root) ρ.found ρ.base
  straight : Leads d true Walk.maxLinks [] (d.absolute ⟨s.root.root, ρ.found⟩).parts ρ.base
  there : ∃ m, d.node? ρ.base = some (.directory m)
  plain : ∀ name ∈ ρ.missing, name.IsPlain
  linkless : ∀ k n, d.node? k = some n → ρ.base ++ ρ.missing.take 1 <+: k →
    ρ.missing = [] ∧ ∀ t, n ≠ .link t

theorem Founded.rooted (h : s.Founded ρ d) : s.Rooted ρ d where
  root := h.root
  home := h.home
  parts := h.parts
  leads := h.leads
  straight := h.straight
  there := h.there
  plain := h.plain
  linkless := fun k t hk ht => (h.linkless k _ ht hk).2 t rfl
  clear := by
    intro k n hk hn
    have hprefix : ρ.base ++ ρ.missing.take 1 <+: ρ.base ++ ρ.missing.take (k + 1) := by
      rw [List.prefix_append_right_inj]
      exact List.take_prefix_take_left (by omega)
    rw [(h.linkless _ n hn hprefix).1] at hk
    simp at hk

theorem Founded.grounded (h : s.Founded ρ d) (a : Text) : ρ.Grounded a d := by
  intro hthere k hk
  obtain ⟨n, hn⟩ := Option.ne_none_iff_exists'.mp hthere
  have hprefix : ρ.base ++ ρ.missing.take 1 <+: ρ.account a := by
    rw [Root.account, List.prefix_append_right_inj]
    exact (List.take_prefix 1 ρ.missing).trans (List.prefix_append _ _)
  rw [(h.linkless _ n hn hprefix).1] at hk
  simp at hk

/-- No account gets a directory, because something stands in the way. -/
def IsBlocked (s : Store) (d : Disk) : Prop :=
  ∀ name now, isAccountName name = true → ∃ e, s.make name now d = (d, .error e)

/-- The root has a place, or none can be made for it. -/
def IsPlaced (s : Store) (d : Disk) : Prop := (∃ ρ, s.Founded ρ d) ∨ s.IsBlocked d

/-! ## Roots by names -/

end Store

namespace Disk

variable {d : Disk} {base : Location}

/-- A disk as systems have them: a tree, in which relative paths start from a place with a path. -/
structure IsSound (d : Disk) : Prop extends IsTree d where
  good : d.hasGoodHome = true
  plain : ∀ name ∈ d.home, name.IsPlain
  short : ∀ name ∈ d.home, Walk.byteLength name ≤ Walk.maxName

theorem IsSound.way_home (h : d.IsSound) :
    ∀ k < d.home.length, ∃ m, d.node? ([] ++ d.home.take (k + 1)) = some (.directory m) := by
  intro k _
  obtain ⟨m, hm⟩ := h.home
  rw [← List.take_append_drop (k + 1) d.home] at hm
  by_cases hrest : d.home.drop (k + 1) = []
  · rw [hrest, List.append_nil] at hm
    exact ⟨m, hm⟩
  · exact h.above hm hrest

theorem IsTree.reaches (h : d.IsTree) (root : Text) {parts : List Text}
    (hplain : ∀ name ∈ parts, name.IsPlain)
    (hgood : (⟨root, parts⟩ : FilePath).isAddressable = true) :
    (∃ base m, Leads d true Walk.maxLinks (d.start ⟨root, parts⟩) parts base ∧
      d.node? base = some (.directory m)) ∨
    (∃ found name missing base m, parts = found ++ name :: missing ∧
      Leads d true Walk.maxLinks (d.start ⟨root, parts⟩) found base ∧
      d.node? base = some (.directory m) ∧ d.node? (base ++ [name]) = none) ∨
    d.IsShut ⟨root, parts⟩ := by
  induction parts using List.reverseRecOn with
  | nil =>
    obtain ⟨m, hm⟩ := h.start ⟨root, []⟩
    exact .inl ⟨_, m, .nil .., hm⟩
  | append_singleton parts name ih =>
    have hname := hplain name (by simp)
    have hstart : d.start ⟨root, parts ++ [name]⟩ = d.start ⟨root, parts⟩ := rfl
    rw [hstart]
    rcases ih (fun name hname => hplain name (List.mem_append_left _ hname))
        (FilePath.isAddressable_of_subset hgood rfl (List.subset_append_left ..)) with
      ⟨base, m, hleads, hbase⟩ | ⟨found, first, missing, base, m, rfl, hleads, hbase, hnone⟩ | hshut
    · cases hnode : d.node? (base ++ [name]) with
      | none => exact .inr (.inl ⟨parts, name, [], base, m, rfl, hleads, hbase, hnode⟩)
      | some n =>
        by_cases hthere : ∃ base m, Leads d true Walk.maxLinks (d.start ⟨root, parts⟩)
            (parts ++ [name]) base ∧ d.node? base = some (.directory m)
        · exact .inl hthere
        · right
          right
          apply isShut_of_node (p := ⟨root, parts⟩) hgood hname hleads hbase (by simp [hnode])
          intro m hm
          obtain ⟨l, hl, hdirectory⟩ := (status_ok_iff hgood).mp hm
          exact hthere ⟨l, m, (locate_ok_iff.mp hl).2, hdirectory⟩
    · refine .inr (.inl ⟨found, first, missing ++ [name], base, m, ?_, hleads, hbase, hnone⟩)
      simp
    · exact .inr (.inr (hshut.child h hgood))

end Disk

namespace Store

variable {s : Store} {d : Disk} {found : List Text} {base : Location}

theorem straight_of_names (hsound : d.IsSound) (hnames : ∀ name ∈ found, name.IsPlain)
    (hleads : Leads d true Walk.maxLinks (d.start s.root) found base) :
    Leads d true Walk.maxLinks [] (d.absolute ⟨s.root.root, found⟩).parts base := by
  unfold Disk.start at hleads
  unfold Disk.absolute
  by_cases habsolute : s.root.isAbsolute = true
  · have habsolute' : (⟨s.root.root, found⟩ : FilePath).isAbsolute = true := habsolute
    rw [if_pos habsolute] at hleads
    rw [if_pos habsolute', FilePath.collapse_names _ fun name hname => (hnames name hname).2]
    exact hleads
  · have habsolute' : ¬(⟨s.root.root, found⟩ : FilePath).isAbsolute = true := habsolute
    have hall : ∀ name ∈ d.home ++ found, name.IsPlain := by
      intro name hname
      rcases List.mem_append.mp hname with hname | hname
      · exact hsound.plain name hname
      · exact hnames name hname
    rw [if_neg habsolute] at hleads
    rw [if_neg habsolute', FilePath.collapse_names _ fun name hname => (hall name hname).2]
    apply leads_of_walk
    rw [Walk.walk_through hsound.plain hsound.short hsound.way_home]
    exact walk_of_leads hleads

/-- **Roots.** A root whose path has no double dots is placed, if it is a directory without links in
it, or no directory yet. -/
theorem isPlaced_of_names (hsound : d.IsSound) (hnames : ∀ name ∈ s.root.parts, name.IsPlain)
    (hlinks : ∀ base m, d.locate true s.root = .ok base → d.node? base = some (.directory m) →
      ∀ k t, base <+: k → d.node? k ≠ some (.link t)) : s.IsPlaced d := by
  have hblocked : (∀ a, isAccountName a = true → d.IsShut (s.root.child a)) → s.IsPlaced d :=
    fun hshut => .inr fun a now ha => hshut a ha now
  cases hgood : s.root.isAddressable with
  | false =>
    apply hblocked
    intro a _
    apply Disk.isShut_of_unaddressable
    simp only [FilePath.isAddressable, Bool.and_eq_false_iff] at hgood
    simp only [FilePath.isAddressable, FilePath.child, List.all_append, Bool.and_eq_false_iff]
    tauto
  | true =>
    have hchild : ∀ a, isAccountName a = true → (s.root.child a).isAddressable = true :=
      fun a ha => FilePath.isAddressable_child hgood (isAddressable_of_isAccountName ha)
    by_cases hlong : Walk.maxPath < Walk.byteLength s.root.toText
    · apply hblocked
      intro a ha
      apply Disk.isShut_of_long (hchild a ha)
      by_contra hshort
      have hroot := FilePath.short_of_child (Nat.not_lt.mp hshort)
      omega
    rcases hsound.reaches s.root.root hnames hgood with ⟨base, m, hleads, hbase⟩ |
      ⟨found, name, missing, base, m, hparts, hleads, hbase, hnone⟩ | hshut
    · have hlocate : d.locate true s.root = .ok base :=
        Disk.locate_ok_iff.mpr ⟨Nat.not_lt.mp hlong, hleads⟩
      refine .inl ⟨⟨s.root.parts, base, []⟩, hgood, hsound.good, (List.append_nil _).symm, hleads,
        straight_of_names hsound hnames hleads, ⟨m, hbase⟩, List.forall_mem_nil _, ?_⟩
      intro k n hk hprefix
      refine ⟨rfl, ?_⟩
      rintro t rfl
      exact hlinks base m hlocate hbase k t (by simpa using hprefix) hk
    · rw [hparts, List.forall_mem_append] at hnames
      refine .inl ⟨⟨found, base, name :: missing⟩, hgood, hsound.good, hparts, hleads,
        straight_of_names hsound hnames.1 hleads, ⟨m, hbase⟩, hnames.2, ?_⟩
      rintro k n hk ⟨rest, rfl⟩
      rw [List.take_succ_cons, List.take_zero] at hk
      by_cases hrest : rest = []
      · rw [hrest, List.append_nil, hnone] at hk
        cases hk
      · obtain ⟨m', hm'⟩ := hsound.above hk hrest
        rw [hnone] at hm'
        cases hm'
    · apply hblocked
      intro a ha
      exact hshut.child hsound.toIsTree (hchild a ha)

end Store

end CatalogCache
