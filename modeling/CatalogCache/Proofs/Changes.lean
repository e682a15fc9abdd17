import CatalogCache.Proofs.Frames

/-!
# What a change touches

A change of a disk touches some places. Directly above them, directories get another time. All
else is the same.
-/

namespace CatalogCache.Disk

variable {places : Location → Prop} {d d' : Disk} {l : Location}

/-- A directory stands at a place, before and after. Its time may be another. -/
def Retimed (d d' : Disk) (l : Location) : Prop :=
  ∃ m m', d.node? l = some (.directory m) ∧ d'.node? l = some (.directory m')

def Kept (d d' : Disk) (l : Location) : Prop := d'.node? l = d.node? l ∨ Retimed d d' l

theorem Kept.symm (h : Kept d d' l) : Kept d' d l := by
  rcases h with hsame | ⟨m, m', hm, hm'⟩
  · exact .inl hsame.symm
  · exact .inr ⟨m', m, hm', hm⟩

theorem Kept.trans {a b c : Disk} (hab : Kept a b l) (hbc : Kept b c l) : Kept a c l := by
  rcases hab with hab | ⟨m, m', hm, hm'⟩
  · rcases hbc with hbc | ⟨m, m', hm, hm'⟩
    · exact .inl (hbc.trans hab)
    · exact .inr ⟨m, m', hab ▸ hm, hm'⟩
  · rcases hbc with hbc | ⟨_, m'', -, hm''⟩
    · exact .inr ⟨m, m', hm, hbc.trans hm'⟩
    · exact .inr ⟨m, m'', hm, hm''⟩

theorem Kept.same (h : Kept d d' l) (hno : ∀ m, d.node? l ≠ some (.directory m)) :
    d'.node? l = d.node? l := by
  rcases h with hsame | ⟨m, _, hm, -⟩
  · exact hsame
  · exact absurd hm (hno m)

theorem Kept.none (h : Kept d d' l) (hnone : d.node? l = none) : d'.node? l = none :=
  (h.same (by simp [hnone])).trans hnone

structure Changes (places : Location → Prop) (d d' : Disk) : Prop where
  home : d'.home = d.home
  node : ∀ l, ¬places l →
    d'.node? l = d.node? l ∨ Retimed d d' l ∧ ∃ k, places k ∧ l = k.dropLast

theorem Changes.refl (d : Disk) : Changes places d d := ⟨rfl, fun _ _ => .inl rfl⟩

theorem Changes.mono {more : Location → Prop} (h : Changes places d d')
    (hsub : ∀ l, places l → more l) : Changes more d d' := by
  refine ⟨h.home, fun l hl => ?_⟩
  rcases h.node l (fun hp => hl (hsub l hp)) with hsame | ⟨htime, k, hk, hlk⟩
  · exact .inl hsame
  · exact .inr ⟨htime, k, hsub k hk, hlk⟩

theorem Changes.symm (h : Changes places d d') : Changes places d' d := by
  refine ⟨h.home.symm, fun l hl => ?_⟩
  rcases h.node l hl with hsame | ⟨⟨m, m', hm, hm'⟩, hk⟩
  · exact .inl hsame.symm
  · exact .inr ⟨⟨m', m, hm', hm⟩, hk⟩

theorem Changes.trans {a b c : Disk} (hab : Changes places a b) (hbc : Changes places b c) :
    Changes places a c := by
  refine ⟨hbc.home.trans hab.home, fun l hl => ?_⟩
  rcases hab.node l hl with hfirst | ⟨⟨m, m', hm, hm'⟩, hk⟩
  · rcases hbc.node l hl with hthen | ⟨⟨m, m', hm, hm'⟩, hk⟩
    · exact .inl (hthen.trans hfirst)
    · exact .inr ⟨⟨m, m', hfirst ▸ hm, hm'⟩, hk⟩
  · rcases hbc.node l hl with hthen | ⟨⟨_, m'', _, hm''⟩, -⟩
    · exact .inr ⟨⟨m, m', hm, hthen ▸ hm'⟩, hk⟩
    · exact .inr ⟨⟨m, m'', hm, hm''⟩, hk⟩

theorem Changes.kept (h : Changes places d d') (hl : ¬places l) : Kept d d' l := by
  rcases h.node l hl with hsame | ⟨htime, -⟩
  · exact .inl hsame
  · exact .inr htime

theorem Changes.node_eq (h : Changes places d d') (hl : ¬places l)
    (habove : ∀ k, places k → l ≠ k.dropLast) : d'.node? l = d.node? l := by
  rcases h.node l hl with hsame | ⟨-, k, hk, hlk⟩
  · exact hsame
  · exact absurd hlk (habove k hk)

/-! ## The changes of single nodes -/

theorem changes_put (d : Disk) (l : Location) (n : Node) : Changes (· = l) d (d.put l n) := by
  refine ⟨rfl, fun k hk => .inl ?_⟩
  rw [node?_put, if_neg hk]

theorem changes_take (d : Disk) (l : Location) : Changes (· = l) d (d.take l) := by
  refine ⟨rfl, fun k hk => .inl ?_⟩
  rw [node?_take, if_neg hk]

theorem changes_stamp (d : Disk) (l : Location) (now : Instant) :
    Changes (· = l) d (d.stamp l now) := by
  unfold stamp
  split
  · next m hm =>
    split_ifs
    · exact .refl d
    · refine ⟨rfl, fun k _ => ?_⟩
      by_cases hk : k = l.dropLast
      · subst hk
        exact .inr ⟨⟨m, now, hm, by rw [node?_put, if_pos rfl]⟩, l, rfl, rfl⟩
      · left
        rw [node?_put, if_neg hk]
  · exact .refl d

theorem changes_enter (d : Disk) (l : Location) (n : Node) (now : Instant) :
    Changes (· = l) d (d.enter l n now) :=
  (changes_put d l n).trans (changes_stamp _ l now)

theorem changes_leave (d : Disk) (l : Location) (now : Instant) :
    Changes (· = l) d (d.leave l now) :=
  (changes_take d l).trans (changes_stamp _ l now)

theorem node?_leave_self (d : Disk) (l : Location) (now : Instant) :
    (d.leave l now).node? l = none := by
  have htake : (d.take l).node? l = none := by simp [node?_take]
  unfold leave stamp
  split
  · next m hm =>
    split_ifs with hl
    · exact htake
    · have hne : l ≠ l.dropLast := by
        intro h
        rw [← h, htake] at hm
        cases hm
      rw [node?_put, if_neg hne, htake]
  · exact htake

/-! ## Where files come and go -/

/-- A file or nothing at all stands at each of the places. -/
def HasFiles (places : Location → Prop) (d : Disk) : Prop :=
  ∀ l, places l → ∀ n, d.node? l = some n → ∃ bytes m, n = .file bytes m

theorem Changes.frame (h : Changes places d d') (hold : HasFiles places d)
    (hnew : HasFiles places d') : Frame places d d' := by
  refine ⟨h.home, fun l m hm => ?_, fun l t => ?_, fun l hl bytes m => ?_⟩
  · have hl : ¬places l := by
      intro hl
      obtain ⟨_, _, hfile⟩ := hold l hl _ hm
      cases hfile
    rcases h.kept hl with hsame | ⟨_, m', -, hm'⟩
    · exact ⟨m, hsame.trans hm⟩
    · exact ⟨m', hm'⟩
  · by_cases hl : places l
    · constructor
      · intro hlink
        obtain ⟨_, _, hfile⟩ := hnew l hl _ hlink
        cases hfile
      · intro hlink
        obtain ⟨_, _, hfile⟩ := hold l hl _ hlink
        cases hfile
    · rcases h.kept hl with hsame | ⟨m, m', hm, hm'⟩
      · rw [hsame]
      · simp [hm, hm']
  · rcases h.kept hl with hsame | ⟨m, m', hm, hm'⟩
    · rw [hsame]
    · simp [hm, hm']

theorem Changes.locate_iff (h : Changes places d d') (hold : HasFiles places d)
    (hnew : HasFiles places d') {follow : Bool} {p : FilePath} {r : Location} :
    d'.locate follow p = .ok r ↔ d.locate follow p = .ok r :=
  ⟨locate_stable (h.symm.frame hnew hold).stable, locate_stable (h.frame hold hnew).stable⟩

theorem hasFiles_single {bytes : List UInt8} {m : Instant} (h : d.node? l = some (.file bytes m)) :
    HasFiles (· = l) d := by
  rintro _ rfl n hn
  exact ⟨bytes, m, Option.some.inj (hn.symm.trans h)⟩

theorem hasFiles_free (h : d.node? l = none) : HasFiles (· = l) d := by
  rintro _ rfl n hn
  simp [h] at hn

end CatalogCache.Disk
