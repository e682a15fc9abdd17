import CatalogCache.Proofs.PlainNames
import CatalogCache.Proofs.Changes

/-!
# What making directories makes

However far the making of a directory gets, and whatever fails on the way, nothing comes to the disk
but directories on the path.
-/

namespace CatalogCache.Disk

variable {d d' : Disk} {p : FilePath} {faults : Faults} {now : Instant} {l : Location}

/-- A directory that has come since: a front part of the path leads to it. -/
structure Sprung (p : FilePath) (d d' : Disk) (l : Location) : Prop where
  before : d.node? l = none
  there : ∃ m, d'.node? l = some (.directory m)
  front : ∃ k, d'.locate false ⟨p.root, p.parts.take k⟩ = .ok l

/-- From one disk to the other nothing has come but directories to which a front part of the path
leads, and nothing else has changed but the times of the directories they stand in. -/
structure Made (p : FilePath) (d d' : Disk) : Prop where
  home : d'.home = d.home
  node : ∀ l, d'.node? l = d.node? l ∨
    (d.Retimed d' l ∧ ∃ name, Sprung p d d' (l ++ [name])) ∨ Sprung p d d' l

theorem Made.refl (p : FilePath) (d : Disk) : Made p d d := ⟨rfl, fun _ => .inl rfl⟩

theorem Made.frame (h : Made p d d') : Frame Nowhere d d' := by
  refine ⟨h.home, fun l m hm => ?_, fun l t => ?_, fun l _ bytes m => ?_⟩ <;>
    rcases h.node l with hsame | ⟨⟨m₁, m₂, hm₁, hm₂⟩, -⟩ | ⟨hnone, ⟨m', hm'⟩, -⟩
  · exact ⟨m, hsame.trans hm⟩
  · exact ⟨m₂, hm₂⟩
  · exact ⟨m', hm'⟩
  · rw [hsame]
  · simp [hm₁, hm₂]
  · simp [hnone, hm']
  · rw [hsame]
  · simp [hm₁, hm₂]
  · simp [hnone, hm']

theorem Sprung.later {a b c : Disk} (h : Sprung p a b l) (hbc : Frame Nowhere b c) :
    Sprung p a c l := by
  obtain ⟨m, hm⟩ := h.there
  obtain ⟨k, hk⟩ := h.front
  exact ⟨h.before, hbc.directory l m hm, k, locate_stable hbc.stable hk⟩

theorem Sprung.earlier {a b c : Disk} (h : Sprung p b c l) (hab : Frame Nowhere a b) :
    Sprung p a c l :=
  ⟨hab.none_of_none h.before, h.there, h.front⟩

theorem Made.trans {a b c : Disk} (hab : Made p a b) (hbc : Made p b c) : Made p a c := by
  refine ⟨hbc.home.trans hab.home, fun l => ?_⟩
  rcases hbc.node l with hsame | ⟨⟨m, m', hm, hm'⟩, name, hnew⟩ | hnew
  · rw [hsame]
    rcases hab.node l with hsame' | ⟨⟨m, m', hm, hm'⟩, name, hnew⟩ | hnew
    · exact .inl hsame'
    · exact .inr (.inl ⟨⟨m, m', hm, hsame.trans hm'⟩, name, hnew.later hbc.frame⟩)
    · exact .inr (.inr (hnew.later hbc.frame))
  · rcases hab.node l with hsame' | ⟨⟨m₁, _, hm₁, -⟩, -⟩ | hfirst
    · exact .inr (.inl ⟨⟨m, m', hsame' ▸ hm, hm'⟩, name, hnew.earlier hab.frame⟩)
    · exact .inr (.inl ⟨⟨m₁, m', hm₁, hm'⟩, name, hnew.earlier hab.frame⟩)
    · exact .inr (.inr (hfirst.later hbc.frame))
  · exact .inr (.inr (hnew.earlier hab.frame))

theorem Made.of_take {levels : Nat} (h : Made ⟨p.root, p.parts.take levels⟩ d d') :
    Made p d d' := by
  have hsprung : ∀ l, Sprung ⟨p.root, p.parts.take levels⟩ d d' l → Sprung p d d' l := by
    rintro l ⟨hnone, hthere, k, hk⟩
    rw [List.take_take] at hk
    exact ⟨hnone, hthere, _, hk⟩
  refine ⟨h.home, fun l => ?_⟩
  rcases h.node l with hsame | ⟨htime, name, hnew⟩ | hnew
  · exact .inl hsame
  · exact .inr (.inl ⟨htime, name, hsprung _ hnew⟩)
  · exact .inr (.inr (hsprung l hnew))

theorem Made.of_parent (h : Made p.parent d d') : Made p d d' := by
  rw [FilePath.parent, List.dropLast_eq_take] at h
  exact h.of_take

theorem made_ensureDirectory (h : d.ensureDirectory faults p now = .ok d') : Made p d d' := by
  rcases ensureDirectory_ok h with rfl | ⟨l, hl, hnone, rfl⟩
  · exact .refl p d'
  · have hchanges := changes_enter d l (.directory now) now
    have hframe : Frame Nowhere d (d.enter l (.directory now) now) :=
      frame_enter now (by simp [hnone]) (by simp) (by simp [hnone])
    have hsprung : Sprung p d (d.enter l (.directory now) now) l := by
      refine ⟨hnone, ⟨now, node?_enter_self d l _ now⟩, p.parts.length, ?_⟩
      rw [List.take_length]
      exact locate_stable hframe.stable (find_iff.mp hl).2
    refine ⟨hchanges.home, fun k => ?_⟩
    by_cases hk : k = l
    · exact .inr (.inr (hk ▸ hsprung))
    · rcases hchanges.node k hk with hsame | ⟨htime, l', rfl, hlast⟩
      · exact .inl hsame
      · have hl : l' ≠ [] := by
          rintro rfl
          exact hk hlast
        refine .inr (.inl ⟨htime, l'.getLast hl, ?_⟩)
        rwa [hlast, List.dropLast_append_getLast]

theorem made_ensureDirectories (d : Disk) (faults : Faults) (p : FilePath) (now : Instant) :
    Made p d (d.ensureDirectories faults p now).1 := by
  fun_induction ensureDirectories d faults p now with
  | case1 p d₁ hensure => exact made_ensureDirectory hensure
  | case2 =>
    rename_i hup ih
    rw [hup] at ih
    exact ih.of_parent
  | case3 =>
    rename_i hup d₂ hagain ih
    rw [hup] at ih
    exact ih.of_parent.trans (made_ensureDirectory hagain)
  | case4 =>
    rename_i hup e hagain ih
    rw [hup] at ih
    exact ih.of_parent
  | case5 p => exact .refl p d

theorem made_ensureLevels (d : Disk) (faults : Faults) (p : FilePath) (levels : Nat)
    (now : Instant) : Made p d (d.ensureLevels faults p levels now) := by
  have hfront : p.parts.dropLast.take levels = p.parts.take (min levels (p.parts.length - 1)) := by
    rw [List.dropLast_eq_take, List.take_take]
  unfold ensureLevels
  split
  · exact .refl p d
  · rw [hfront]
    exact (made_ensureDirectories d faults _ now).of_take

/-! ## Growth -/

/-- From one disk to the other nothing has come but directories to which a front part of the path
leads, and nothing else has changed but times of directories. -/
structure Grown (p : FilePath) (d d' : Disk) : Prop where
  home : d'.home = d.home
  node : ∀ l, d.Kept d' l ∨ d.node? l = none ∧ (∃ m, d'.node? l = some (.directory m)) ∧
    ∃ k, d'.locate false ⟨p.root, p.parts.take k⟩ = .ok l

theorem stable_of_kept (hhome : d'.home = d.home) (h : ∀ l, d.Kept d' l) : Stable d d' := by
  refine ⟨hhome, fun l m hm => ?_, fun l t => ?_⟩ <;>
    rcases h l with hsame | ⟨m₁, m₂, hm₁, hm₂⟩
  · exact ⟨m, hsame.trans hm⟩
  · exact ⟨m₂, hm₂⟩
  · rw [hsame]
  · simp [hm₁, hm₂]

theorem Made.grown_of_kept {after : Disk} (h : Made p d d') (hhome : after.home = d'.home)
    (hkept : ∀ l, d'.Kept after l) : Grown p d after := by
  have hstable := stable_of_kept hhome hkept
  refine ⟨hhome.trans h.home, fun l => ?_⟩
  rcases h.node l with hsame | ⟨htime, -⟩ | ⟨hnone, ⟨m, hm⟩, k, hk⟩
  · exact .inl (.trans (.inl hsame) (hkept l))
  · exact .inl (.trans (.inr htime) (hkept l))
  · exact .inr ⟨hnone, hstable.directory l m hm, k, locate_stable hstable hk⟩

theorem Made.grown (h : Made p d d') : Grown p d d' :=
  h.grown_of_kept rfl fun _ => .inl rfl

end CatalogCache.Disk
