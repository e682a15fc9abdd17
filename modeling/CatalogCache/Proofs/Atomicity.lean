import CatalogCache.Proofs.CacheFiles

/-!
# Writes are atomic

Between any two calls of a write the file has its old content or the new one, whatever fails.
Nothing else changes, and no temporary file is left unless the call that takes it out fails.
-/

namespace CatalogCache

/-! ## Trees -/

namespace Disk

/-- Everything stands in a directory, and paths start from directories. -/
structure IsTree (d : Disk) : Prop where
  root : ∃ m, d.node? [] = some (.directory m)
  home : ∃ m, d.node? d.home = some (.directory m)
  parent : ∀ l n, d.node? l = some n → ∃ m, d.node? l.dropLast = some (.directory m)

theorem IsTree.ends {d : Disk} (h : d.IsTree) {links : Nat} {l r : Location} {parts : List Text}
    (hl : ∃ m, d.node? l = some (.directory m)) (hleads : Leads d false links l parts r) :
    (∃ m, d.node? r = some (.directory m)) ∨
      ∃ q name, r = q ++ [name] ∧ parts.getLast? = some name := by
  induction hleads with
  | nil => exact .inl hl
  | @dot _ _ _ rest hrest ih =>
    rcases ih hl with hr | ⟨q, name, hr, hname⟩
    · exact .inl hr
    · exact .inr ⟨q, name, hr, by simp [List.getLast?_cons, hname]⟩
  | @dotDot _ _ _ rest hrest ih =>
    obtain ⟨m, hm⟩ := hl
    rcases ih (h.parent _ _ hm) with hr | ⟨q, name, hr, hname⟩
    · exact .inl hr
    · exact .inr ⟨q, name, hr, by simp [List.getLast?_cons, hname]⟩
  | last | unfollowed => exact .inr ⟨_, _, rfl, rfl⟩
  | directory _ _ node _ ih =>
    rcases ih ⟨_, node⟩ with hr | ⟨q, name, hr, hname⟩
    · exact .inl hr
    · exact .inr ⟨q, name, hr, by simp [List.getLast?_cons, hname]⟩
  | @link _ l _ _ target rest _ _ node goes _ ih =>
    have hstart : ∃ m, d.node? (if target.head? = some FilePath.slash then [] else l) =
        some (.directory m) := by
      split_ifs
      · exact h.root
      · exact hl
    rcases ih hstart with hr | ⟨q, name, hr, hname⟩
    · exact .inl hr
    · right
      have hrest : rest ≠ [] := goes.resolve_right (by simp)
      rw [List.getLast?_append_of_ne_nil _ hrest] at hname
      exact ⟨q, name, hr, by simp [List.getLast?_cons, hname]⟩

theorem tempName_ne (name : Text) (serial : Nat) : tempName name serial ≠ name := by
  intro h
  have hlength := congrArg List.length h
  simp [tempName, Text.ofString] at hlength
  omega

theorem IsTree.ne_temp {d : Disk} (h : d.IsTree) {path : FilePath} {target place : Location}
    (hleads : d.locate false path = .ok target) (hfree : d.node? place = none)
    (hnamed : ∃ q serial, place = q ++ [tempName path.name serial]) : target ≠ place := by
  rintro rfl
  have hstart : ∃ m, d.node? (d.start path) = some (.directory m) := by
    unfold start
    split_ifs
    · exact h.root
    · exact h.home
  obtain ⟨q, serial, hplace⟩ := hnamed
  rcases h.ends hstart (locate_ok_iff.mp hleads).2 with ⟨m, hm⟩ | ⟨q', name, hr, hname⟩
  · rw [hfree] at hm
    cases hm
  · have hpath : path.name = name := by
      rw [FilePath.name, List.getLastD_eq_getLast?, hname]
      rfl
    have hlast := congrArg List.getLast? (hr.symm.trans hplace)
    simp only [List.getLast?_append, List.getLast?_singleton, Option.some_or, hpath] at hlast
    exact tempName_ne name serial (Option.some.inj hlast).symm

/-! ## What a path leads to -/

/-- The path leads where it led, and the same stands there. -/
structure Intact (old d : Disk) (path : FilePath) : Prop where
  leads : ∀ l, d.locate false path = .ok l ↔ old.locate false path = .ok l
  kept : ∀ l, old.locate false path = .ok l → old.Kept d l

/-- The path does not go through what stands at its end: it leads there also without it. -/
def Direct (d : Disk) (path : FilePath) (target : Location) : Prop :=
  (d.take target).locate false path = .ok target

theorem direct_of_not_link {d : Disk} {path : FilePath} {target : Location}
    (hleads : d.locate false path = .ok target)
    (hdirectory : ∀ m, d.node? target ≠ some (.directory m))
    (hlink : ∀ t, d.node? target ≠ some (.link t)) : d.Direct path target := by
  have hold : HasFiles (· = target) d := by
    rintro _ rfl n hn
    cases n with
    | file bytes m => exact ⟨bytes, m, rfl⟩
    | directory m => exact absurd hn (hdirectory m)
    | link t => exact absurd hn (hlink t)
  have hnew : HasFiles (· = target) (d.take target) := hasFiles_free (by simp [node?_take])
  exact ((changes_take d target).locate_iff hold hnew).mpr hleads

end Disk

/-! ## Saves -/

namespace Save

variable {s : Save} {old d : Disk} {stage : Stage}

/-- What a save that began on `old` comes to, call after call. -/
inductive Reached (s : Save) (old : Disk) : Stage → Disk → Prop
  | start : Reached s old .creating old
  | step {stage : Stage} {d : Disk} (h : Reached s old stage d) :
    Reached s old (s.step stage d).1 (s.step stage d).2

theorem Reached.holds (h : s.Reached old stage d) : s.Holds old stage d := by
  induction h with
  | start => rfl
  | step _ ih => exact step_holds _ _ ih

theorem Reached.finish {stage : Stage} {d : Disk} (h : s.Reached old stage d) :
    s.Reached old (.done (s.finish stage d).2) (s.finish stage d).1 := by
  by_cases hdone : stage.rank = 0
  · obtain ⟨r, rfl⟩ := done_of_rank hdone
    rw [Save.finish]
    exact h
  · have hrank := s.rank_step stage d hdone
    rw [finish_step hdone]
    exact h.step.finish
termination_by stage.rank

theorem intact_of_changes (htree : old.IsTree) {place : Location} (hfree : old.node? place = none)
    (hnamed : ∃ q serial, place = q ++ [Disk.tempName s.path.name serial])
    (hchanges : Disk.Changes (· = place) old d) (hfiles : Disk.HasFiles (· = place) d) :
    Disk.Intact old d s.path where
  leads := fun _ => hchanges.locate_iff (Disk.hasFiles_free hfree) hfiles
  kept := fun _ hl => hchanges.kept (htree.ne_temp hl hfree hnamed)

theorem Temp.intact {temp : FilePath} {place : Location} (htree : old.IsTree)
    (h : s.Temp old d temp place) : Disk.Intact old d s.path :=
  intact_of_changes htree h.free h.named h.changes h.hasFiles

theorem intact_refl (old : Disk) (path : FilePath) : Disk.Intact old old path :=
  ⟨fun _ => .rfl, fun _ _ => .inl rfl⟩

/-- The path of a save has its old content, or all of the new one. -/
def OldOrNew (s : Save) (old d : Disk) : Prop :=
  Disk.Intact old d s.path ∨ ∃ target, old.locate false s.path = .ok target ∧ s.Full d target

theorem Holds.oldOrNew (htree : old.IsTree) (h : s.Holds old stage d) : s.OldOrNew old d := by
  cases stage with
  | creating =>
    obtain rfl : d = old := h
    exact .inl (intact_refl d s.path)
  | opening temp place => exact .inl (Temp.intact htree h)
  | writing temp place => exact .inl (h.1.intact htree)
  | flushing temp place bytes => exact .inl (h.1.intact htree)
  | syncing temp | replacing temp | discarding temp e =>
    obtain ⟨place, htemp, -⟩ := h
    exact .inl (htemp.intact htree)
  | done r =>
    cases h with
    | notCreated => exact .inl (intact_refl _ _)
    | broken why created free named changes files =>
      exact .inl (intact_of_changes htree free named changes files)
    | saved encoded _ free named takes node => exact .inr ⟨_, takes.leads, _, encoded, node⟩

theorem Ended.spared {e : FileError} (h : s.Ended old (.error e) d)
    (hdiscard : s.faults .discard = none) (l : Location) : old.Kept d l := by
  cases h with
  | notCreated => exact .inl rfl
  | @broken _ _ place why created free named changes files gone =>
    by_cases hl : l = place
    · subst hl
      exact .inl ((gone hdiscard).trans free.symm)
    · exact changes.kept hl

theorem Ended.failed {e : FileError} (htree : old.IsTree) (h : s.Ended old (.error e) d) :
    Disk.Intact old d s.path ∧ (∀ l, old.node? l ≠ none → old.Kept d l) ∧
      (s.faults .discard = none → ∀ l, old.Kept d l) := by
  refine ⟨?_, ?_, h.spared⟩
  · cases h with
    | notCreated => exact intact_refl _ _
    | broken why created free named changes files =>
      exact intact_of_changes htree free named changes files
  · intro l hl
    cases h with
    | notCreated => exact .inl rfl
    | broken why created free named changes files =>
      apply changes.kept
      rintro rfl
      exact hl free

theorem Ended.succeeded (h : s.Ended old (.ok ()) d) :
    ∃ bytes target, Utf8.encode s.text = .ok bytes ∧ Takes old s.path target ∧
      d.node? target = some (.file bytes s.now) ∧ (∀ l, l ≠ target → old.Kept d l) ∧
      (old.Direct s.path target → d.find true s.path = .ok target) := by
  cases h with
  | @saved d place target bytes encoded _ free named takes node gone changes =>
    have hkept : ∀ l, l ≠ target → old.Kept d l := by
      intro l hl
      by_cases hplace : l = place
      · subst hplace
        exact .inl ((gone hl).trans free.symm)
      · exact changes.kept (by simp [hplace, hl])
    refine ⟨bytes, target, encoded, takes, node, hkept, fun hdirect => ?_⟩
    -- without what stood at the target the path led there too, and all it went through is kept
    have hstable : Disk.Stable (old.take target) d := by
      refine ⟨changes.home, fun l m hm => ?_, fun l t => ?_⟩
      · rw [Disk.node?_take] at hm
        split_ifs at hm with hl
        rcases hkept l hl with hsame | ⟨_, m', -, hm'⟩
        · exact ⟨m, hsame.trans hm⟩
        · exact ⟨m', hm'⟩
      · rw [Disk.node?_take]
        split_ifs with hl
        · simp [hl, node]
        · rcases hkept l hl with hsame | ⟨m, m', hm, hm'⟩
          · rw [hsame]
          · simp [hm, hm']
    have hleads := Disk.locate_ok_iff.mp (Disk.locate_stable hstable hdirect)
    rw [Disk.find_iff, Disk.locate_ok_iff]
    exact ⟨takes.checked, hleads.1, hleads.2.follows (by simp [node])⟩

/-- What stood before a save that goes through still stands, except at its target. So the
directories and links after it are those from before. -/
theorem Ended.carries (h : s.Ended old (.ok ()) d) : Disk.Carries d old := by
  obtain ⟨bytes, target, -, -, hnode, hkept, -⟩ := h.succeeded
  have hne : ∀ {l n}, d.node? l = some n → (∀ bytes m, n ≠ .file bytes m) → l ≠ target := by
    rintro l n hn hfile rfl
    rw [hnode] at hn
    exact hfile _ _ (Option.some.inj hn).symm
  constructor
  · intro l m hm
    rcases hkept l (hne hm nofun) with hsame | ⟨m', -, hm', -⟩
    · exact ⟨m, hsame.symm.trans hm⟩
    · exact ⟨m', hm'⟩
  · intro l t ht
    rcases hkept l (hne ht nofun) with hsame | ⟨_, m', -, hm'⟩
    · exact hsame.symm.trans ht
    · rw [ht] at hm'
      cases hm'

theorem Ended.home (h : s.Ended old (.ok ()) d) : d.home = old.home := by
  cases h with
  | saved _ _ _ _ _ _ _ changes => exact changes.home

theorem run_kept (s : Save) (old : Disk) (hdiscard : s.faults .discard = none) :
    (s.run old).1.home = old.home ∧ ((∀ l, old.Kept (s.run old).1 l) ∨
      ∃ target, Takes old s.path target ∧ ∀ l, l ≠ target → old.Kept (s.run old).1 l) := by
  have hended := s.run_ended old
  generalize s.run old = ran at hended ⊢
  obtain ⟨d, r⟩ := ran
  cases r with
  | ok =>
    obtain ⟨bytes, target, -, htakes, -, hkept, -⟩ := hended.succeeded
    exact ⟨hended.home, .inr ⟨target, htakes, hkept⟩⟩
  | error e =>
    refine ⟨?_, .inl (hended.spared hdiscard)⟩
    cases hended with
    | notCreated => rfl
    | broken _ _ _ _ changes => exact changes.home

theorem Ended.found_again {above : FilePath} {name : Text} (hname : name.IsPlain)
    (hpath : s.path = above.child name) (hgood : above.isAddressable = true)
    (hgood' : s.path.isAddressable = true) (h : s.Ended old (.ok ()) d)
    (habove : ∃ m, old.status above = .ok (.directory m)) (hthere : ∃ n, d.status s.path = .ok n) :
    ∃ bytes, Utf8.encode s.text = .ok bytes ∧ d.status s.path = .ok (.file bytes s.now) ∧
      ∃ m, d.status above = .ok (.directory m) := by
  obtain ⟨bytes, target, hbytes, htakes, hnode, hkept, -⟩ := h.succeeded
  obtain ⟨m, hm⟩ := habove
  obtain ⟨base, hbase, hdirectory⟩ := (Disk.status_ok_iff hgood).mp hm
  obtain ⟨n, hn⟩ := hthere
  obtain ⟨r, hr, -⟩ := (Disk.status_ok_iff hgood').mp hn
  have hstart : d.start above = old.start above := by rw [Disk.start, Disk.start, h.home]
  -- before and after, the name is looked up in the same directory
  obtain ⟨hshort, hbaseLeads⟩ := Disk.locate_ok_iff.mp hbase
  have htarget : target = base ++ [name] := by
    have hleads := htakes.leads
    rw [hpath] at hleads
    obtain ⟨links, base', hlast, hfirst⟩ := Disk.locate_before hname hleads
    rw [hbaseLeads.unique (hfirst old (.refl old))]
    exact hlast.of_name hname
  have hr' := hr
  rw [hpath] at hr'
  obtain ⟨links, base', hlast, hfirst⟩ := Disk.locate_before hname hr'
  have hsame : base' = base := by
    have hold := hfirst old h.carries
    rw [hstart] at hold
    exact hold.unique hbaseLeads
  subst hsame htarget
  obtain rfl := hlast.of_file hname hnode
  have hbase' : ∃ m, d.node? base' = some (.directory m) := by
    rcases hkept base' (by simp) with hsame | ⟨_, m', -, hm'⟩
    · exact ⟨m, hsame.trans hdirectory⟩
    · exact ⟨m', hm'⟩
  refine ⟨bytes, hbytes, (Disk.status_ok_iff hgood').mpr ⟨_, hr, hnode⟩, ?_⟩
  obtain ⟨m', hm'⟩ := hbase'
  exact ⟨m', (Disk.status_ok_iff hgood).mpr
    ⟨base', Disk.locate_ok_iff.mpr ⟨hshort, hfirst d (.refl d)⟩, hm'⟩⟩

end Save

/-! ## Writes -/

namespace CacheFile

/-- The save of a text to a file. -/
def save (f : CacheFile) (t : Text) (w : World) : Save := ⟨f.path, t, w.faults, w.now⟩

variable {f : CacheFile} {v v' : Value} {w w' : World}

theorem put_ok (h : (f.put v).exec w = (.ok v', w')) :
    v' = v ∧ ∃ t, f.encode v = .ok t ∧ (f.save t w).Ended w.disk (.ok ()) w'.disk := by
  cases hencode : f.encode v with
  | error e =>
    obtain ⟨lines, hexec⟩ := says_put_error hencode w
    cases hexec.symm.trans h
  | ok t =>
    have hended := Save.run_ended (f.save t w) w.disk
    cases hrun : (f.save t w).run w.disk with
    | mk d r =>
      rw [hrun] at hended
      obtain ⟨lines, hexec⟩ := exec_put hencode w hrun
      rw [h] at hexec
      cases r with
      | ok =>
        cases hexec
        exact ⟨rfl, t, rfl, hended⟩
      | error e => cases e <;> cases hexec

theorem put_error {e : Failure} (h : (f.put v).exec w = (.error e, w')) :
    w'.disk = w.disk ∨
      ∃ t e', f.encode v = .ok t ∧ (f.save t w).Ended w.disk (.error e') w'.disk := by
  cases hencode : f.encode v with
  | error e =>
    obtain ⟨lines, hexec⟩ := says_put_error hencode w
    cases hexec.symm.trans h
    exact .inl rfl
  | ok t =>
    have hended := Save.run_ended (f.save t w) w.disk
    cases hrun : (f.save t w).run w.disk with
    | mk d r =>
      rw [hrun] at hended
      obtain ⟨lines, hexec⟩ := exec_put hencode w hrun
      rw [h] at hexec
      cases r with
      | ok => cases hexec
      | error e' => cases e' <;> cases hexec <;> exact .inr ⟨t, _, rfl, hended⟩

/-- **Atomicity.** Whatever fails, at every point of a write the path of the file has its old
content or all of the new one: the old one if the write fails, the new one if it gives the value
back. What else was there stays, and what was not there is not there afterwards, except for the
temporary file where it cannot be taken out. -/
theorem put_atomic (f : CacheFile) (v : Value) {w : World} (htree : w.disk.IsTree) :
    (∀ t, f.encode v = .ok t →
      (∀ stage d, (f.save t w).Reached w.disk stage d → (f.save t w).OldOrNew w.disk d) ∧
      ∃ r, (f.save t w).Reached w.disk (.done r) ((f.put v).exec w).2.disk) ∧
    (∀ v' w', (f.put v).exec w = (.ok v', w') → v' = v ∧
      ∃ t bytes target, f.encode v = .ok t ∧ Utf8.encode t = .ok bytes ∧
        w.disk.locate false f.path = .ok target ∧
        w'.disk.node? target = some (.file bytes w.now) ∧
        (∀ l, l ≠ target → w.disk.Kept w'.disk l) ∧
        (w.disk.Direct f.path target → w'.disk.status f.path = .ok (.file bytes w.now))) ∧
    ∀ e w', (f.put v).exec w = (.error e, w') →
      w.disk.Intact w'.disk f.path ∧ (∀ l, w.disk.node? l ≠ none → w.disk.Kept w'.disk l) ∧
      (w.faults .discard = none → ∀ l, w.disk.Kept w'.disk l) := by
  refine ⟨fun t ht => ⟨fun stage d hd => hd.holds.oldOrNew htree, ?_⟩, ?_, ?_⟩
  · cases hrun : (f.save t w).run w.disk with
    | mk d r =>
      have hreached : (f.save t w).Reached w.disk (.done _) ((f.save t w).run w.disk).1 :=
        Save.Reached.start.finish
      rw [hrun] at hreached
      obtain ⟨lines, hexec⟩ := exec_put ht w hrun
      have hdisk : ((f.put v).exec w).2.disk = d := by
        rw [hexec]
        cases r with
        | ok => rfl
        | error e => cases e <;> rfl
      rw [hdisk]
      exact ⟨_, hreached⟩
  · intro v' w' h
    obtain ⟨hv, t, ht, hended⟩ := put_ok h
    obtain ⟨bytes, target, hbytes, htakes, hnode, hkept, hdirect⟩ := hended.succeeded
    refine ⟨hv, t, bytes, target, ht, hbytes, htakes.leads, hnode, hkept, fun hpath => ?_⟩
    have hfind : w'.disk.find true f.path = .ok target := hdirect hpath
    rw [Disk.status, hfind, Result.bind_ok, hnode]
    rfl
  · intro e w' h
    rcases put_error h with hsame | ⟨t, e', -, hended⟩
    · rw [hsame]
      exact ⟨Save.intact_refl _ _, fun _ _ => .inl rfl, fun _ _ => .inl rfl⟩
    · exact hended.failed htree

/-- A list on a disk, and a write to it whose renaming fails. -/
def sampleTree : Disk :=
  ⟨[([], .directory 0), (["cache"], .directory 0), (["cache", "list.json"], .file [0x31] 0)], []⟩

def sampleList : CacheFile := ⟨⟨"/", ["cache", "list.json"]⟩, .list .anything, Codec.tolerant⟩

def sampleBroken : World where
  disk := sampleTree
  now := 1
  faults := fun call => if call = .rename then some ⟨⟨.denied, []⟩, 0⟩ else none
  remotes := fun _ _ _ => .error .endOfInput
  server := fun _ _ => .error .endOfInput
  trace := []

theorem sampleTree_isTree : sampleTree.IsTree where
  root := ⟨0, rfl⟩
  home := ⟨0, rfl⟩
  parent := by
    intro l n hnode
    obtain ⟨entry, hfind, -⟩ := Option.map_eq_some_iff.mp hnode
    have hl : entry.1 = l := by simpa using List.find?_some hfind
    have hmem := List.mem_of_find?_eq_some hfind
    subst hl
    simp only [sampleTree, List.mem_cons, List.not_mem_nil, or_false] at hmem
    rcases hmem with rfl | rfl | rfl <;> exact ⟨0, rfl⟩

theorem sample_put_atomic : ((sampleList.put (.list [])).exec sampleBroken).1.isOk = false ∧
    ((sampleList.put (.list [])).exec sampleBroken).2.disk.node? ["cache", "list.json"] =
      some (.file [0x31] 0) := by
  have hfails : ((sampleList.put (.list [])).exec sampleBroken).1.isOk = false := by cbv
  refine ⟨hfails, ?_⟩
  cases hput : (sampleList.put (.list [])).exec sampleBroken with
  | mk r w =>
    rw [hput] at hfails
    cases r with
    | ok v => cases hfails
    | error e =>
      have hleads : sampleTree.locate false sampleList.path = .ok ["cache", "list.json"] := by cbv
      have hold : sampleTree.node? ["cache", "list.json"] = some (.file [0x31] 0) := rfl
      obtain ⟨hintact, -⟩ := (put_atomic sampleList (.list []) sampleTree_isTree).2.2 e w hput
      rcases hintact.kept _ hleads with hsame | ⟨m, m', hm, -⟩
      · exact hsame.trans hold
      · cases hold.symm.trans hm

end CacheFile

end CatalogCache
