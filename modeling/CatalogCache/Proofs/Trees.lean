import CatalogCache.Proofs.Roots

/-!
# Disks stay trees

Whatever directories are made and whatever file is saved, everything stands in a directory. What
could not be made a directory cannot be made one by trying again.
-/

namespace CatalogCache.Disk

variable {d d' : Disk} {p : FilePath} {faults : Faults} {now : Instant} {l r : Location}

theorem IsTree.lands (h : d.IsTree) {follow : Bool} {links : Nat} {parts : List Text}
    (hl : ∃ m, d.node? l = some (.directory m)) (hleads : Leads d follow links l parts r) :
    ∃ m, d.node? r.dropLast = some (.directory m) := by
  induction hleads with
  | nil =>
    obtain ⟨m, hm⟩ := hl
    exact h.parent _ _ hm
  | dot _ ih => exact ih hl
  | dotDot _ ih =>
    obtain ⟨m, hm⟩ := hl
    exact ih (h.parent _ _ hm)
  | last | unfollowed => rwa [List.dropLast_concat]
  | directory _ _ node _ ih => exact ih ⟨_, node⟩
  | link _ _ _ _ _ ih =>
    apply ih
    split_ifs
    · exact h.root
    · exact hl

theorem IsTree.lands_at (h : d.IsTree) {follow : Bool} (hl : d.locate follow p = .ok r) :
    ∃ m, d.node? r.dropLast = some (.directory m) :=
  h.lands (h.start p) (locate_ok_iff.mp hl).2

theorem IsTree.mono (h : d.IsTree) (hhome : d'.home = d.home)
    (hstays : ∀ l m, d.node? l = some (.directory m) → ∃ m', d'.node? l = some (.directory m'))
    (hnew : ∀ l n, d'.node? l = some n →
      d.node? l ≠ none ∨ ∃ m, d.node? l.dropLast = some (.directory m)) : d'.IsTree where
  root := by
    obtain ⟨m, hm⟩ := h.root
    exact hstays _ m hm
  home := by
    obtain ⟨m, hm⟩ := h.home
    rw [hhome]
    exact hstays _ m hm
  parent := by
    intro l n hn
    have hparent : ∃ m, d.node? l.dropLast = some (.directory m) := by
      rcases hnew l n hn with hold | hparent
      · obtain ⟨o, ho⟩ := Option.ne_none_iff_exists'.mp hold
        exact h.parent l o ho
      · exact hparent
    obtain ⟨m, hm⟩ := hparent
    exact hstays _ m hm

/-! ## Making directories -/

theorem IsTree.ensureDirectory (h : d.IsTree) (hmade : d.ensureDirectory faults p now = .ok d') :
    d'.IsTree := by
  rcases ensureDirectory_ok hmade with rfl | ⟨l, hl, hnone, rfl⟩
  · exact h
  · have hframe : Frame Nowhere d (d.enter l (.directory now) now) :=
      frame_enter now (by simp [hnone]) (by simp) (by simp [hnone])
    refine h.mono hframe.home hframe.directory fun k n hn => ?_
    by_cases hk : k = l
    · subst hk
      exact .inr (h.lands_at (find_iff.mp hl).2)
    · left
      rcases (changes_enter d l (.directory now) now).kept hk with hsame | ⟨m, _, hm, -⟩
      · simp [← hsame, hn]
      · simp [hm]

theorem IsTree.ensureDirectories (h : d.IsTree) (faults : Faults) (p : FilePath) (now : Instant) :
    (d.ensureDirectories faults p now).1.IsTree := by
  fun_induction Disk.ensureDirectories d faults p now with
  | case1 p d₁ hensure => exact h.ensureDirectory hensure
  | case2 =>
    rename_i hup ih
    rw [hup] at ih
    exact ih
  | case3 =>
    rename_i hup d₂ hagain ih
    rw [hup] at ih
    exact ih.ensureDirectory hagain
  | case4 =>
    rename_i hup e hagain ih
    rw [hup] at ih
    exact ih
  | case5 p => exact h

/-! ## Trying again -/

theorem ensureDirectory_error {e : FileError} (h : d.ensureDirectory faults p now = .error e)
    (now' : Instant) : d.ensureDirectory faults p now' = .error e := by
  unfold Disk.ensureDirectory makeDirectory at h ⊢
  cases hfind : d.find false p with
  | error e' =>
    rw [hfind] at h
    exact h
  | ok l =>
    rw [hfind] at h
    simp only [Result.bind_ok] at h ⊢
    cases hnode : d.node? l with
    | none => simp [hnode] at h
    | some n =>
      rw [hnode] at h
      exact h

/-- A directory that could not be made cannot be made on what is left by the attempt. -/
theorem isShut_of_failed (htree : d.IsTree) (hp : p.isAddressable = true) {e : FileError}
    (h : d.ensureDirectories Faults.none p now = (d', .error e)) : d'.IsShut p := by
  fun_induction Disk.ensureDirectories d Faults.none p now generalizing d' e with
  | case1 => cases h
  | case2 =>
    rename_i p _ _ _ hstop d₁ e' hup ih
    obtain ⟨rfl, -⟩ := Prod.mk.inj h
    have htree₁ : d₁.IsTree := by
      have hparent := htree.ensureDirectories Faults.none p.parent now
      rwa [hup] at hparent
    exact (ih (FilePath.isAddressable_parent hp) hup).of_parent htree₁ hp hstop.2
  | case3 => cases h
  | case4 =>
    rename_i p _ _ _ _ d₁ hup e' hagain ih
    obtain ⟨rfl, -⟩ := Prod.mk.inj h
    have hgood := FilePath.isAddressable_parent hp
    obtain ⟨m, hm⟩ := (ensureDirectories_spec hgood hup).2.1 rfl rfl
    apply isShut_of_error
    · exact fun now' => ⟨_, ensureDirectories_there hgood rfl hm⟩
    · intro now' d' hok
      cases (ensureDirectory_error hagain now').symm.trans hok
  | case5 p e' hensure =>
    rename_i hstop
    obtain ⟨rfl, -⟩ := Prod.mk.inj h
    intro now'
    rw [Disk.ensureDirectories, ensureDirectory_error hensure now']
    exact ⟨e', dif_neg hstop⟩

end CatalogCache.Disk

namespace CatalogCache.Save

theorem isTree_run {d : Disk} (h : d.IsTree) (s : Save) (hdiscard : s.faults .discard = none) :
    (s.run d).1.IsTree := by
  obtain ⟨hhome, hkept⟩ := s.run_kept d hdiscard
  have hstays : ∀ l m, d.Kept (s.run d).1 l → d.node? l = some (.directory m) →
      ∃ m', (s.run d).1.node? l = some (.directory m') := by
    rintro l m (hsame | ⟨_, m', -, hm'⟩) hm
    · exact ⟨m, hsame.trans hm⟩
    · exact ⟨m', hm'⟩
  have hold : ∀ l n, d.Kept (s.run d).1 l → (s.run d).1.node? l = some n → d.node? l ≠ none := by
    rintro l n (hsame | ⟨m, -, hm, -⟩) hn
    · simp [← hsame, hn]
    · simp [hm]
  rcases hkept with hall | ⟨target, htakes, hothers⟩
  · exact h.mono hhome (fun l m => hstays l m (hall l)) fun l n hn => .inl (hold l n (hall l) hn)
  · refine h.mono hhome (fun l m hm => hstays l m (hothers l ?_) hm) fun l n hn => ?_
    · rintro rfl
      exact htakes.free m hm
    · by_cases hl : l = target
      · subst hl
        exact .inr (h.lands_at htakes.leads)
      · exact .inl (hold l n (hothers l hl) hn)

end CatalogCache.Save
