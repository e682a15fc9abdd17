import CatalogCache.Proofs.Results
import CatalogCache.Proofs.Walks

/-!
# What calls leave alone

Making directories touches no file and no link. What else a call changes, it changes at places that
can be named.
-/

namespace CatalogCache.Disk

/-! ## Frames -/

/-- From one disk to another, files differ at most at some places. Directories and links are still
there, and no link is new. -/
structure Frame (places : Location → Prop) (d d' : Disk) : Prop where
  home : d'.home = d.home
  directory : ∀ l m, d.node? l = some (.directory m) → ∃ m', d'.node? l = some (.directory m')
  link : ∀ l t, d'.node? l = some (.link t) ↔ d.node? l = some (.link t)
  file : ∀ l, ¬places l → ∀ bytes m,
    d'.node? l = some (.file bytes m) ↔ d.node? l = some (.file bytes m)

def Nowhere (_ : Location) : Prop := False

variable {places : Location → Prop} {d d' : Disk}

theorem Frame.refl (d : Disk) : Frame places d d :=
  ⟨rfl, fun _ m h => ⟨m, h⟩, fun _ _ => Iff.rfl, fun _ _ _ _ => Iff.rfl⟩

theorem Frame.trans {a b c : Disk} (hab : Frame places a b) (hbc : Frame places b c) :
    Frame places a c where
  home := hbc.home.trans hab.home
  directory := fun l m h => by
    obtain ⟨m', h'⟩ := hab.directory l m h
    exact hbc.directory l m' h'
  link := fun l t => (hbc.link l t).trans (hab.link l t)
  file := fun l hl bytes m => (hbc.file l hl bytes m).trans (hab.file l hl bytes m)

theorem Frame.mono {more : Location → Prop} (h : Frame places d d')
    (hsub : ∀ l, places l → more l) : Frame more d d' :=
  ⟨h.home, h.directory, h.link, fun l hl => h.file l fun hp => hl (hsub l hp)⟩

theorem Frame.stable (h : Frame places d d') : Stable d d' := ⟨h.home, h.directory, h.link⟩

/-! ## Single nodes -/

theorem frame_put {l : Location} {n : Node} (hold : ∀ o, d.node? l = some o → ∃ b m, o = .file b m)
    (hnew : ∀ t, n ≠ .link t) (hplaces : (∃ b m, n = .file b m ∨ d.node? l = some (.file b m)) →
      places l) : Frame places d (d.put l n) := by
  have hnode : ∀ k, (d.put l n).node? k = if k = l then some n else d.node? k :=
    fun k => node?_put d l k n
  refine ⟨rfl, fun k m h => ?_, fun k t => ?_, fun k hk bytes m => ?_⟩
  · rw [hnode]
    split_ifs with hkl
    · obtain ⟨b, m', hfile⟩ := hold _ (hkl ▸ h)
      cases hfile
    · exact ⟨m, h⟩
  · rw [hnode]
    split_ifs with hkl
    · constructor
      · intro h
        exact absurd (Option.some.inj h) (hnew t)
      · intro h
        obtain ⟨b, m', hfile⟩ := hold _ (hkl ▸ h)
        cases hfile
    · rfl
  · rw [hnode]
    split_ifs with hkl
    · subst hkl
      constructor
      · intro h
        exact absurd (hplaces ⟨bytes, m, .inl (Option.some.inj h)⟩) hk
      · intro h
        exact absurd (hplaces ⟨bytes, m, .inr h⟩) hk
    · rfl

theorem frame_stamp (d : Disk) (l : Location) (now : Instant) : Frame places d (d.stamp l now) := by
  unfold stamp
  split
  · next m hdirectory =>
    split_ifs
    · exact .refl d
    · have hnode : ∀ k, (d.put l.dropLast (.directory now)).node? k =
          if k = l.dropLast then some (.directory now) else d.node? k :=
        fun k => node?_put d _ k _
      refine ⟨rfl, fun k m h => ?_, fun k t => ?_, fun k _ bytes m => ?_⟩ <;> rw [hnode] <;>
        split_ifs with hk
      · exact ⟨now, rfl⟩
      · exact ⟨m, h⟩
      · rw [hk, hdirectory]; simp
      · rfl
      · rw [hk, hdirectory]; simp
      · rfl
  · exact .refl d

theorem frame_enter {l : Location} {n : Node} (now : Instant)
    (hold : ∀ o, d.node? l = some o → ∃ b m, o = .file b m) (hnew : ∀ t, n ≠ .link t)
    (hplaces : (∃ b m, n = .file b m ∨ d.node? l = some (.file b m)) → places l) :
    Frame places d (d.enter l n now) :=
  (frame_put hold hnew hplaces).trans (frame_stamp _ l now)

theorem node?_stamp_of_ne {l k : Location} (now : Instant) (h : k ≠ l.dropLast ∨ l = []) :
    (d.stamp l now).node? k = d.node? k := by
  unfold stamp
  split
  · split_ifs with hl
    · rfl
    · rw [node?_put, if_neg (h.resolve_right hl)]
  · rfl

theorem node?_enter_self (d : Disk) (l : Location) (n : Node) (now : Instant) :
    (d.enter l n now).node? l = some n := by
  have hl : l ≠ l.dropLast ∨ l = [] := by
    by_cases h : l = []
    · exact .inr h
    · refine .inl fun he => ?_
      have hlength := congrArg List.length he
      rw [List.length_dropLast] at hlength
      have hpos := List.length_pos_iff.mpr h
      omega
  rw [enter, node?_stamp_of_ne now hl, node?_put, if_pos rfl]

/-! ## Making directories -/

section

variable {p : FilePath} {now : Instant} {faults : Faults} {l : Location} {follow : Bool}

theorem find_iff : d.find follow p = .ok l ↔
    checkPath p.toText = .ok () ∧ d.locate follow p = .ok l := by
  unfold find about
  cases checkPath p.toText <;> cases d.locate follow p <;> simp

theorem find_eq (hp : p.isAddressable = true) (follow : Bool) :
    d.find follow p = about p (d.locate follow p) := by
  rw [find, checkPath_toText_iff.mpr hp]
  rfl

theorem find_ok_iff (hp : p.isAddressable = true) :
    d.find follow p = .ok l ↔ d.locate follow p = .ok l := by
  rw [find_iff, checkPath_toText_iff.mpr hp, eq_self, true_and]

theorem find_error (hp : p.isAddressable = true) {e : FileError} (h : d.find follow p = .error e) :
    ∃ e', e = .system e' := by
  rw [find_eq hp, about] at h
  cases hlocate : d.locate follow p with
  | ok l => simp [hlocate] at h
  | error errno =>
    rw [hlocate] at h
    exact ⟨_, (Except.error.inj h).symm⟩

theorem status_ok_iff (hp : p.isAddressable = true) {n : Node} :
    d.status p = .ok n ↔ ∃ l, d.locate true p = .ok l ∧ d.node? l = some n := by
  unfold status
  rw [Result.bind_eq_ok_iff]
  constructor
  · rintro ⟨l, hl, h⟩
    rw [find_ok_iff hp] at hl
    refine ⟨l, hl, ?_⟩
    cases hn : d.node? l with
    | none => simp [hn] at h
    | some n' => simpa [hn] using h
  · rintro ⟨l, hl, hn⟩
    exact ⟨l, (find_ok_iff hp).mpr hl, by simp [hn]⟩

theorem Frame.status_file (h : Frame Nowhere d d') (hp : p.isAddressable = true)
    {bytes : List UInt8} {m : Instant} (hfile : d.status p = .ok (.file bytes m)) :
    d'.status p = .ok (.file bytes m) := by
  obtain ⟨l, hl, hnode⟩ := (status_ok_iff hp).mp hfile
  exact (status_ok_iff hp).mpr ⟨l, locate_stable h.stable hl, (h.file l id bytes m).mpr hnode⟩

theorem makeDirectory_ok (hp : p.isAddressable = true) (h : d.makeDirectory p now = .ok d') :
    Frame Nowhere d d' ∧ ∃ m, d'.status p = .ok (.directory m) := by
  unfold makeDirectory at h
  obtain ⟨l, hl, h⟩ := Result.bind_eq_ok_iff.mp h
  rw [find_ok_iff hp] at hl
  cases hn : d.node? l with
  | some n => simp [hn] at h
  | none =>
    rw [hn] at h
    cases h
    have hframe : Frame Nowhere d (d.enter l (.directory now) now) :=
      frame_enter now (by simp [hn]) (by simp) (by simp [hn])
    refine ⟨hframe, now, (status_ok_iff hp).mpr ⟨l, ?_, node?_enter_self d l _ now⟩⟩
    have hhere := locate_stable hframe.stable hl
    rw [locate_ok_iff] at hhere ⊢
    exact ⟨hhere.1, hhere.2.follows (by simp [node?_enter_self])⟩

theorem makeDirectory_error (hp : p.isAddressable = true) {e : FileError}
    (h : d.makeDirectory p now = .error e) : ∃ e', e = .system e' := by
  unfold makeDirectory at h
  cases hfind : d.find false p with
  | error e' =>
    rw [hfind] at h
    cases h
    exact find_error hp hfind
  | ok l =>
    rw [hfind] at h
    cases hn : d.node? l with
    | none => simp [hn] at h
    | some n =>
      simp only [hn, Result.bind_ok, Result.throw_eq] at h
      exact ⟨_, (Except.error.inj h).symm⟩

theorem status_error (hp : p.isAddressable = true) {e : FileError} (h : d.status p = .error e) :
    ∃ e', e = .system e' := by
  unfold status at h
  cases hfind : d.find true p with
  | error e' =>
    rw [hfind] at h
    cases h
    exact find_error hp hfind
  | ok l =>
    rw [hfind] at h
    cases hn : d.node? l with
    | some n => simp [hn] at h
    | none =>
      simp only [hn, Result.bind_ok, Result.throw_eq] at h
      exact ⟨_, (Except.error.inj h).symm⟩

theorem status_unaddressable (hp : p.isAddressable = false) :
    ∃ e, d.status p = .error e ∧ ∀ e', e ≠ .system e' := by
  obtain ⟨e, hcheck, hother⟩ := checkPath_unaddressable hp
  refine ⟨e, ?_, hother⟩
  rw [status, find, hcheck]
  rfl

theorem status_of_read {bytes : List UInt8} (h : d.read p = .ok bytes) :
    ∃ m, d.status p = .ok (.file bytes m) := by
  obtain ⟨n, hstatus, hn⟩ := Result.bind_eq_ok_iff.mp h
  cases n with
  | file b m =>
    cases hn
    exact ⟨m, hstatus⟩
  | directory | link => cases hn

theorem read_error (hp : p.isAddressable = true) {e : FileError} (h : d.read p = .error e) :
    ∃ e', e = .system e' := by
  unfold read at h
  cases hstatus : d.status p with
  | error e' =>
    rw [hstatus] at h
    cases h
    exact status_error hp hstatus
  | ok n =>
    rw [hstatus] at h
    cases n with
    | file => cases h
    | directory | link => exact ⟨_, (Except.error.inj h).symm⟩

theorem guard_ok {α : Type} {call : DiskCall} {r : Except FileError α} {a : α}
    (h : faults.guard call r = .ok a) : r = .ok a := by
  unfold Faults.guard at h
  split at h
  · cases h
  · exact h

theorem guard_error {α : Type} {call : DiskCall} {r : Except FileError α}
    (hr : ∀ e, r = .error e → ∃ e', e = .system e') {e : FileError}
    (h : faults.guard call r = .error e) : ∃ e', e = .system e' := by
  unfold Faults.guard at h
  split at h
  · exact ⟨_, (Except.error.inj h).symm⟩
  · exact hr e h

theorem isDirectory_spec (d : Disk) (faults : Faults) (hp : p.isAddressable = true) :
    (∃ b, d.isDirectory faults p = .ok b ∧ (b = true → faults .checkDirectory = none →
      ∃ m, d.status p = .ok (.directory m))) ∨
    ∃ e, d.isDirectory faults p = .error (.system e) := by
  unfold isDirectory
  cases hguard : faults.guard .checkDirectory (d.status p) with
  | ok n =>
    refine .inl ⟨_, rfl, fun hn hfault => ?_⟩
    rw [Faults.guard, hfault] at hguard
    cases n with
    | directory m => exact ⟨m, hguard⟩
    | file | link => simp [Node.isDirectory] at hn
  | error e =>
    obtain ⟨e', rfl⟩ := guard_error (fun e h => status_error hp h) hguard
    dsimp only
    split_ifs with herrno
    · exact .inl ⟨false, rfl, by simp⟩
    · exact .inr ⟨e', rfl⟩

theorem ensureDirectory_spec (d : Disk) (faults : Faults) (now : Instant)
    (hp : p.isAddressable = true) :
    (∃ d', d.ensureDirectory faults p now = .ok d' ∧ Frame Nowhere d d' ∧
      (faults .checkDirectory = none → ∃ m, d'.status p = .ok (.directory m))) ∨
    ∃ e, d.ensureDirectory faults p now = .error (.system e) := by
  unfold ensureDirectory
  cases hmake : d.makeDirectory p now with
  | ok d' =>
    obtain ⟨hframe, hstatus⟩ := makeDirectory_ok hp hmake
    exact .inl ⟨d', rfl, hframe, fun _ => hstatus⟩
  | error e =>
    obtain ⟨e', rfl⟩ := makeDirectory_error hp hmake
    dsimp only
    split_ifs with herrno
    · exact .inr ⟨e', rfl⟩
    · rcases isDirectory_spec d faults hp with ⟨b, hb, hstatus⟩ | ⟨e'', he⟩
      · rw [hb]
        cases b with
        | true => exact .inl ⟨d, rfl, .refl d, hstatus rfl⟩
        | false => exact .inr ⟨e', rfl⟩
      · exact .inr ⟨e'', by rw [he]; rfl⟩

theorem ensureDirectory_made (hp : p.isAddressable = true)
    (h : d.ensureDirectory faults p now = .ok d') : Frame Nowhere d d' ∧
      (faults .checkDirectory = none → ∃ m, d'.status p = .ok (.directory m)) := by
  rcases ensureDirectory_spec d faults now hp with ⟨d₁, hok, hmade⟩ | ⟨e, herror⟩
  · obtain rfl := Except.ok.inj (h.symm.trans hok)
    exact hmade
  · cases h.symm.trans herror

theorem ensureDirectory_refused (hp : p.isAddressable = true) {e : FileError}
    (h : d.ensureDirectory faults p now = .error e) : ∃ e', e = .system e' := by
  rcases ensureDirectory_spec d faults now hp with ⟨d₁, hok, -⟩ | ⟨e', herror⟩
  · cases h.symm.trans hok
  · exact ⟨e', Except.error.inj (h.symm.trans herror)⟩

/-- **Directories.** Making a directory and those above it touches no file and no link. If it is
made, it is there; if not, the system says why. -/
theorem ensureDirectories_spec (hp : p.isAddressable = true) {r : Except FileError Unit}
    (h : d.ensureDirectories faults p now = (d', r)) :
    Frame Nowhere d d' ∧ (r = .ok () → faults .checkDirectory = none →
      ∃ m, d'.status p = .ok (.directory m)) ∧ ∀ e, r = .error e → ∃ e', e = .system e' := by
  fun_induction ensureDirectories d faults p now generalizing d' r with
  | case1 p d₁ hensure =>
    obtain ⟨rfl, rfl⟩ := Prod.mk.inj h
    obtain ⟨hframe, hstatus⟩ := ensureDirectory_made hp hensure
    exact ⟨hframe, fun _ => hstatus, by simp⟩
  | case2 =>
    rename_i p e _ _ _ d₁ e' hup ih
    obtain ⟨rfl, rfl⟩ := Prod.mk.inj h
    obtain ⟨hframe, -, herror⟩ := ih (FilePath.isAddressable_parent hp) hup
    exact ⟨hframe, by simp, herror⟩
  | case3 =>
    rename_i p e _ _ _ d₁ hup d₂ hagain ih
    obtain ⟨rfl, rfl⟩ := Prod.mk.inj h
    obtain ⟨hframe, -, -⟩ := ih (FilePath.isAddressable_parent hp) hup
    obtain ⟨hmore, hstatus⟩ := ensureDirectory_made hp hagain
    exact ⟨hframe.trans hmore, fun _ => hstatus, by simp⟩
  | case4 =>
    rename_i p e _ _ _ d₁ hup e' hagain ih
    obtain ⟨rfl, rfl⟩ := Prod.mk.inj h
    obtain ⟨hframe, -, -⟩ := ih (FilePath.isAddressable_parent hp) hup
    refine ⟨hframe, by simp, ?_⟩
    rintro _ ⟨⟩
    exact ensureDirectory_refused hp hagain
  | case5 p e hensure missing =>
    obtain ⟨rfl, rfl⟩ := Prod.mk.inj h
    refine ⟨.refl _, by simp, ?_⟩
    rintro _ ⟨⟩
    exact ensureDirectory_refused hp hensure

theorem ensureDirectories_there (hp : p.isAddressable = true)
    (hfault : faults .checkDirectory = none) {m : Instant}
    (hstatus : d.status p = .ok (.directory m)) :
    d.ensureDirectories faults p now = (d, .ok ()) := by
  have hensure : d.ensureDirectory faults p now = .ok d := by
    obtain ⟨l, hl, hnode⟩ := (status_ok_iff hp).mp hstatus
    rw [locate_ok_iff] at hl
    obtain ⟨l', n, hleads, hnode'⟩ := hl.2.unfollow hnode
    have hfind : d.find false p = .ok l' :=
      (find_ok_iff hp).mpr (locate_ok_iff.mpr ⟨hl.1, hleads⟩)
    have hmake : d.makeDirectory p now = .error (.system ⟨.alreadyExists, [p.toText]⟩) := by
      simp [makeDirectory, hfind, hnode']
    have hthere : d.isDirectory faults p = .ok true := by
      simp [isDirectory, Faults.guard, hfault, hstatus, Node.isDirectory]
    simp [ensureDirectory, hmake, hthere]
  rw [ensureDirectories, hensure]

theorem ensureLevels_frame (hp : p.isAddressable = true) (levels : Nat) :
    Frame Nowhere d (d.ensureLevels faults p levels now) := by
  unfold ensureLevels
  split
  · exact .refl d
  · have hsub : (⟨p.root, p.parts.dropLast.take levels⟩ : FilePath).isAddressable = true :=
      FilePath.isAddressable_of_subset hp rfl fun part hpart =>
        List.dropLast_subset _ (List.mem_of_mem_take hpart)
    exact (ensureDirectories_spec hsub rfl).1

end

end CatalogCache.Disk
