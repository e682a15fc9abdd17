import CatalogCache.Proofs.Growth
import CatalogCache.Proofs.Isolation

/-!
# Directories made ahead

If a call does no more than make the directory of its account, the account finds it there later,
where it would have made it then. For all other accounts it is the work of another account.
-/

namespace CatalogCache

/-! ## Front parts of paths -/

theorem Leads.upto {d : Disk} {links : Nat} {l r : Location} {front rest : List Text}
    (htree : d.IsTree) (hl : ∃ m, d.node? l = some (.directory m))
    (h : Leads d true links l (front ++ rest) r) (hr : ∃ m, d.node? r = some (.directory m)) :
    ∃ base m, Leads d true links l front base ∧ d.node? base = some (.directory m) := by
  induction rest using List.reverseRecOn generalizing r with
  | nil =>
    obtain ⟨m, hm⟩ := hr
    exact ⟨r, m, by rwa [List.append_nil] at h, hm⟩
  | append_singleton rest part ih =>
    rw [← List.append_assoc] at h
    obtain ⟨base, m, hbase, hm⟩ := h.front htree hl
    exact ih hbase ⟨m, hm⟩

theorem Disk.Goes.upto {d : Disk} {p : FilePath} {base : Location} {names front : List Text}
    (h : d.Goes p base names) (hfront : Leads d true Walk.maxLinks (d.start p) front base)
    (j : Nat) :
    d.Goes ⟨p.root, front ++ names.take j⟩ base (names.take j) where
  front := ⟨front, rfl, hfront⟩
  there := h.there
  plain := fun name hname => h.plain name (List.mem_of_mem_take hname)
  linkless := by
    intro k t
    rw [List.take_take]
    cases hk : min (k + 1) j with
    | zero =>
      obtain ⟨m, hm⟩ := h.there
      simp [hm]
    | succ i => exact h.linkless i t

namespace Store

variable {s : Store} {ρ : Root} {d d' e e' : Disk} {a b : Text} {c : Catalog} {l : Location}

namespace Rooted

theorem not_sprung_before (h : s.Rooted ρ d) (htree : d.IsTree) (hstable : Disk.Stable d e)
    (hthere : ∃ m, e.node? l = some (.directory m)) {k : Nat} (hk : k ≤ ρ.found.length)
    (hl : e.locate false ⟨s.root.root, (ρ.found ++ ρ.missing ++ [a]).take k⟩ = .ok l) :
    d.node? l ≠ none := by
  have hsplit : ρ.found.take k ++ ρ.found.drop k = ρ.found := List.take_append_drop k ρ.found
  have hleads := h.leads
  rw [← hsplit] at hleads
  obtain ⟨base, m, hbase, hm⟩ := hleads.upto htree (htree.start s.root) h.there
  rw [List.append_assoc, List.take_append_of_le_length hk] at hl
  obtain ⟨m', hm'⟩ := hthere
  have hhere := (Disk.locate_ok_iff.mp hl).2.follows (by simp [hm'])
  have hstart : e.start ⟨s.root.root, ρ.found.take k⟩ = d.start s.root := by
    rw [Disk.start, Disk.start, hstable.home]
    rfl
  rw [hstart] at hhere
  rw [hhere.unique (hbase.stable hstable), hm]
  simp

/-- A directory that has sprung up on the path of the directory of an account was missing on the
way, and the whole path leads to the last one. -/
theorem missing_of_sprung (h : s.Rooted ρ d) (htree : d.IsTree) (ha : a.IsPlain)
    (hframe : Disk.Frame Disk.Nowhere d e) (hsprung : Disk.Sprung (s.root.child a) d e l) :
    d.Missing ρ.base (ρ.missing ++ [a]) l ∧
      (l = ρ.account a → e.locate false (s.root.child a) = .ok l) := by
  obtain ⟨hnone, hthere, k, hk⟩ := hsprung
  have hchild : (s.root.child a).parts = ρ.found ++ (ρ.missing ++ [a]) := by
    rw [FilePath.child, h.parts, List.append_assoc]
  have hroot : (s.root.child a).root = s.root.root := rfl
  rw [hroot, hchild] at hk
  by_cases hshort : k ≤ ρ.found.length
  · rw [← List.append_assoc] at hk
    exact absurd hnone (h.not_sprung_before htree hframe.stable hthere hshort hk)
  · obtain ⟨j, rfl⟩ := Nat.exists_eq_add_of_lt (Nat.not_le.mp hshort)
    have hrooted : s.Rooted ρ e := h.frame hframe fun _ _ => id
    have htake : (ρ.found ++ (ρ.missing ++ [a])).take (ρ.found.length + j + 1) =
        ρ.found ++ (ρ.missing ++ [a]).take (j + 1) := by
      rw [List.take_append, List.take_of_length_le (by omega)]
      congr 2
      omega
    rw [htake] at hk
    have hgoes := (hrooted.goes_child ha).upto hrooted.leads (j + 1)
    obtain rfl := hgoes.place (by simp) hk
    by_cases hj : j < ρ.missing.length
    · refine ⟨⟨hnone, j, by simp; omega, rfl⟩, fun hl => ?_⟩
      have hlength := congrArg List.length hl
      simp [Root.length_account] at hlength
      omega
    · have hall : (ρ.missing ++ [a]).take (j + 1) = ρ.missing ++ [a] :=
        List.take_of_length_le (by simp; omega)
      rw [hall] at hnone hk ⊢
      refine ⟨Disk.missing_last hnone, fun _ => ?_⟩
      rwa [← hchild] at hk

theorem changes_of_made (h : s.Rooted ρ d) (htree : d.IsTree) (ha : a.IsPlain)
    (hmade : Disk.Made (s.root.child a) d e) :
    Disk.Changes (d.Missing ρ.base (ρ.missing ++ [a])) d e := by
  refine ⟨hmade.home, fun l hl => ?_⟩
  rcases hmade.node l with hsame | ⟨htime, name, hsprung⟩ | hsprung
  · exact .inl hsame
  · have hplace := (h.missing_of_sprung htree ha hmade.frame hsprung).1
    exact .inr ⟨htime, _, hplace, (List.dropLast_concat ..).symm⟩
  · exact absurd (h.missing_of_sprung htree ha hmade.frame hsprung).1 hl

end Rooted

/-! ## An empty directory more -/

/-- The second disk has the directory of the account, with nothing in it. The first has none, but
it can be made there. -/
structure Ahead (s : Store) (ρ : Root) (a : Text) (d e : Disk) : Prop where
  valid : isAccountName a = true
  first : s.Rooted ρ d
  second : s.Rooted ρ e
  home : e.home = d.home
  nothing : ∀ rest, d.node? (ρ.account a ++ rest) = none
  there : ∃ m, e.status (s.root.child a) = .ok (.directory m)
  empty : ∀ rest, rest ≠ [] → e.node? (ρ.account a ++ rest) = none

namespace Ahead

theorem way (h : s.Ahead ρ a d e) : Walk.byteLength (s.root.child a).toText ≤ Walk.maxPath ∧
    (∀ name ∈ ρ.missing ++ [a], Walk.byteLength name ≤ Walk.maxName) ∧
    ∀ k < (ρ.missing ++ [a]).length,
      ∃ m, e.node? (ρ.base ++ (ρ.missing ++ [a]).take (k + 1)) = some (.directory m) :=
  (h.second.goes_child (isPlain_of_isAccountName h.valid)).way_of_status
    (h.first.good_child h.valid) h.there

theorem none_here (h : s.Ahead ρ a d e) : d.node? (ρ.account a) = none := by
  simpa using h.nothing []

theorem clear (h : s.Ahead ρ a d e) : Disk.Goes.Clear d ρ.base (ρ.missing ++ [a]) := by
  intro k n hk hn
  by_cases hmissing : k < ρ.missing.length
  · rw [List.take_append_of_le_length hmissing] at hn
    exact h.first.clear k n hmissing hn
  · rw [List.take_of_length_le (by simp; omega)] at hn
    cases h.none_here.symm.trans hn

theorem make_ok (h : s.Ahead ρ a d e) (now : Instant) : (s.make a now d).2 = .ok () := by
  obtain ⟨hshort, hshorts, -⟩ := h.way
  have hgoes := h.first.goes_child (isPlain_of_isAccountName h.valid)
  exact (hgoes.ensureDirectories_ok_iff (h.first.good_child h.valid) now).mpr
    ⟨hshort, hshorts, h.clear⟩

theorem make_there (h : s.Ahead ρ a d e) (now : Instant) : s.make a now e = (e, .ok ()) := by
  obtain ⟨m, hm⟩ := h.there
  exact Disk.ensureDirectories_there (h.first.good_child h.valid) rfl hm

/-- **Catching up.** Once the account has made its directory, it cannot tell the disks apart. -/
theorem twin_of_make (h : s.Ahead ρ a d e) (now : Instant) :
    s.Twin ρ a (s.make a now d).1 e := by
  have hok := h.make_ok now
  obtain ⟨-, -, hway⟩ := h.way
  have hall : (ρ.missing ++ [a]).take (ρ.missing.length + 1) = ρ.missing ++ [a] :=
    List.take_of_length_le (by simp)
  obtain ⟨m, hm⟩ := h.first.way_of_make h.valid hok ρ.missing.length (by simp)
  obtain ⟨m', hm'⟩ := hway ρ.missing.length (by simp)
  rw [hall] at hm hm'
  have hgood := h.first.good_child h.valid
  refine ⟨⟨h.first.make_rooted h.valid now, h.second, ?_, ?_, ?_, .inr ⟨m, m', hm, hm'⟩, ?_⟩,
    h.valid, (Disk.ensureDirectories_spec hgood rfl).2.1 hok rfl, h.there⟩
  · rw [(h.first.frame_make h.valid now).home]
    exact h.home
  · exact h.first.make_grounded h.valid (fun hthere => absurd h.none_here hthere) now
  · intro _ k hk
    obtain ⟨m, hm⟩ := hway k (by simp; omega)
    rw [List.take_append_of_le_length hk] at hm
    exact ⟨m, hm⟩
  · intro rest hrest
    rw [Root.below_of_missing (h.first.changes_make h.valid now) hrest, h.nothing,
      h.empty rest hrest]

theorem spared_first (h : s.Ahead ρ a d e) (hspares : s.Spares ρ a d d') : s.Ahead ρ a d' e where
  valid := h.valid
  first := hspares.rooted
  second := h.second
  home := h.home.trans hspares.stable.home.symm
  nothing := by
    intro rest
    by_cases hrest : rest = []
    · rw [hrest, List.append_nil]
      exact hspares.here.none h.none_here
    · exact (hspares.below rest hrest).trans (h.nothing rest)
  there := h.there
  empty := h.empty

theorem spared_second (h : s.Ahead ρ a d e) (hspares : s.Spares ρ a e e') : s.Ahead ρ a d e' where
  valid := h.valid
  first := h.first
  second := hspares.rooted
  home := hspares.stable.home.trans h.home
  nothing := h.nothing
  there := by
    obtain ⟨m, hm⟩ := h.there
    exact hspares.stable.status_directory (h.second.good_child h.valid) hm
  empty := fun rest hrest => (hspares.below rest hrest).trans (h.empty rest hrest)

theorem no_status (hrooted : s.Rooted ρ d) (ha : isAccountName a = true)
    (hnone : d.node? (ρ.account a ++ [c.fileName]) = none) (n : Node) :
    d.status (s.slot a c) ≠ .ok n := by
  intro hn
  have hslot : (s.slot a c).isAddressable = true :=
    FilePath.isAddressable_child (hrooted.good_child ha) c.isAddressable_fileName
  obtain ⟨l, hl, hnode⟩ := (Disk.status_ok_iff hslot).mp hn
  obtain rfl := Twin.place_eq (hrooted.goes_slot (isPlain_of_isAccountName ha) c) hl
  cases hnone.symm.trans hnode

theorem status_iff (h : s.Ahead ρ a d e) (c : Catalog) (n : Node) :
    d.status (s.slot a c) = .ok n ↔ e.status (s.slot a c) = .ok n :=
  iff_of_false (no_status h.first h.valid (h.nothing _) n)
    (no_status h.second h.valid (h.empty _ (by simp)) n)

end Ahead

/-! ## What one account has made -/

/-- No account can tell the disks apart, but by a directory that it would make anyway. -/
def Near (s : Store) (d e : Disk) : Prop := ∀ a, s.Parallel a d e ∨ ∃ ρ, s.Ahead ρ a d e

theorem Near.status_iff (h : s.Near d e) (ha : isAccountName a = true) (c : Catalog) (n : Node) :
    d.status (s.slot a c) = .ok n ↔ e.status (s.slot a c) = .ok n := by
  rcases h a with hparallel | ⟨ρ, hahead⟩
  · exact hparallel.status_iff ha c n
  · exact hahead.status_iff c n

theorem Founded.agree_or_ahead (h : s.Founded ρ d) (htree : d.IsTree) (ha : isAccountName a = true)
    (hmade : Disk.Made (s.root.child a) d e) : s.Agree ρ a d e ∨ s.Ahead ρ a d e := by
  have hplain := isPlain_of_isAccountName ha
  have hsecond : s.Rooted ρ e := h.rooted.frame hmade.frame fun _ _ => id
  have hchanges := h.rooted.changes_of_made htree hplain hmade
  have hagree : d.Kept e (ρ.account a) → s.Agree ρ a d e := fun hkept =>
    ⟨h.rooted, hsecond, hmade.home, h.grounded a, (h.grounded a).stable hmade.frame.stable hkept,
      hkept, fun _ hrest => Root.below_of_missing hchanges hrest⟩
  rcases hmade.node (ρ.account a) with hsame | ⟨htime, -⟩ | hsprung
  · exact .inl (hagree (.inl hsame))
  · exact .inl (hagree (.inr htime))
  · right
    have hnothing : ∀ rest, d.node? (ρ.account a ++ rest) = none := by
      intro rest
      by_contra hsome
      obtain ⟨n, hn⟩ := Option.ne_none_iff_exists'.mp hsome
      by_cases hrest : rest = []
      · rw [hrest, List.append_nil, hsprung.before] at hn
        cases hn
      · obtain ⟨m, hm⟩ := htree.above hn hrest
        cases hsprung.before.symm.trans hm
    have hlocate := (h.rooted.missing_of_sprung htree hplain hmade.frame hsprung).2 rfl
    obtain ⟨m, hm⟩ := hsprung.there
    have hthere : e.status (s.root.child a) = .ok (.directory m) :=
      (Disk.status_ok_iff (h.rooted.good_child ha)).mpr
        ⟨_, ((hsecond.goes_child hplain).locate_follow (by simp)).trans hlocate, hm⟩
    exact ⟨ha, h.rooted, hsecond, hmade.home, hnothing, ⟨m, hthere⟩, fun rest hrest =>
      (Root.below_of_missing hchanges hrest).trans (hnothing rest)⟩

theorem Founded.near (h : s.Founded ρ d) (htree : d.IsTree) (ha : isAccountName a = true)
    (hmade : Disk.Made (s.root.child a) d e) : s.Near d e := by
  intro b
  by_cases hb : b = a
  · subst hb
    rcases h.agree_or_ahead htree ha hmade with hagree | hahead
    · exact .inl (.rooted hagree)
    · exact .inr ⟨ρ, hahead⟩
  · have hchanges := h.rooted.changes_of_made htree (isPlain_of_isAccountName ha) hmade
    have hspares : s.Spares ρ b d e := .of_missing h.rooted hmade.frame hchanges hb
    exact .inl (.rooted ((h.agree b).spared hspares).symm)

end Store

/-! ## Calls on both disks -/

namespace Cached

open Store

variable {s : Cached} {ρ : Root} {b remote : Text} {w w' : World}

theorem opens_of_ahead (hs : s.account = .text b) (h : s.store.Ahead ρ b w.disk w'.disk)
    (hnow : w'.now = w.now) (c : Catalog) : s.Opens b c (s.opened c w) (s.opened c w') := by
  rw [opened_valid hs h.valid, opened_valid hs h.valid, hnow, h.make_ok, h.make_there]
  exact .file (h.twin_of_make w.now)

theorem outcome_ahead (hs : s.account = .text b) (h : s.store.Ahead ρ b w.disk w'.disk)
    (hnow : w'.now = w.now) (hfaults : w'.faults = w.faults)
    (hreply : ∀ q, w'.remotes remote (w'.askedOf remote) q =
      w.remotes remote (w.askedOf remote) q) (q : Request) :
    (s.outcome remote w q).Same (s.outcome remote w' q) ∧
      (s.store.Parallel b (s.outcome remote w q).disk (s.outcome remote w' q).disk ∨
        ∃ ρ, s.store.Ahead ρ b (s.outcome remote w q).disk (s.outcome remote w' q).disk) := by
  cases q with
  | collection c =>
    have hpaired : (s.outcome remote w (.collection c)).Paired s.store b
        (s.outcome remote w' (.collection c)) := by
      apply outcome_collection_paired (opens_of_ahead hs h hnow c) hnow hfaults
      rw [reply, reply, hreply]
    exact ⟨hpaired.toSame, .inl hpaired.disks⟩
  | item c uri =>
    have hpaired := outcome_item_paired (opens_of_ahead hs h hnow c) hnow hfaults
      (hreply (.item c uri))
    exact ⟨hpaired.toSame, .inl hpaired.disks⟩
  | linkTypes | fields | serverInfo => exact ⟨⟨hreply _, rfl⟩, .inr ⟨ρ, h⟩⟩

/-- **A call.** On disks that are near to each other it comes to the same, and they stay so. -/
theorem outcome_near (hs : s.account = .text b) (h : s.store.Near w.disk w'.disk)
    (hnow : w'.now = w.now) (hfaults : w'.faults = w.faults)
    (hreply : ∀ q, w'.remotes remote (w'.askedOf remote) q =
      w.remotes remote (w.askedOf remote) q) (q : Request) :
    (s.outcome remote w q).Same (s.outcome remote w' q) ∧
      s.store.Near (s.outcome remote w q).disk (s.outcome remote w' q).disk := by
  have hown : (s.outcome remote w q).Same (s.outcome remote w' q) ∧
      (s.store.Parallel b (s.outcome remote w q).disk (s.outcome remote w' q).disk ∨
        ∃ ρ, s.store.Ahead ρ b (s.outcome remote w q).disk (s.outcome remote w' q).disk) := by
    rcases h b with hparallel | ⟨ρ, hahead⟩
    · have hpaired := outcome_paired hs hparallel hnow hfaults hreply q
      exact ⟨hpaired.toSame, .inl hpaired.disks⟩
    · exact outcome_ahead hs hahead hnow hfaults hreply q
  refine ⟨hown.1, fun a => ?_⟩
  by_cases ha : a = b
  · rw [ha]
    exact hown.2
  · rcases h a with hparallel | ⟨ρ, hahead⟩
    · have hfirst : s.store.Parallel a (s.outcome remote w q).disk w'.disk :=
        outcome_other hs ha hparallel q
      exact .inl (outcome_other hs ha hfirst.symm q).symm
    · have hfirst : s.store.Ahead ρ a (s.outcome remote w q).disk w'.disk :=
        hahead.spared_first (outcome_spares hs ha hahead.first q)
      exact .inr ⟨ρ, hfirst.spared_second (outcome_spares hs ha hahead.second q)⟩

end Cached

end CatalogCache
