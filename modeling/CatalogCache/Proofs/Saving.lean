import CatalogCache.Disk.Save
import CatalogCache.Proofs.Changes

/-!
# What a save does

One call of a save after the other keeps the invariant that only the temporary file has changed.
Only the last call puts the whole content where it belongs.
-/

namespace CatalogCache.Save

/-! ## The calls -/

variable {s : Save} {old d : Disk} {temp path : FilePath} {place : Location} {now : Instant}

theorem createTemp_ok {d' : Disk} (h : d.createTemp path now = .ok (temp, place, d')) :
    (∃ serial, temp = d.tempPath path serial) ∧ d.find false temp = .ok place ∧
      d.node? place = none ∧ d' = d.enter place (.file [] now) now ∧
      ∃ q serial, place = q ++ [Disk.tempName path.name serial] := by
  unfold Disk.createTemp at h
  obtain ⟨l, hl, h⟩ := Result.bind_eq_ok_iff.mp h
  cases hnode : d.node? l with
  | some n => simp [hnode] at h
  | none =>
    rw [hnode] at h
    cases h
    have hleads := (Disk.locate_ok_iff.mp (Disk.find_iff.mp hl).2).2
    obtain ⟨q, hq⟩ := hleads.ends_in_name (Disk.isPlain_tempName path.name _)
    exact ⟨⟨_, rfl⟩, hl, hnode, rfl, q, _, hq⟩

theorem unlink_ok (hfound : d.find false temp = .ok place) {bytes : List UInt8} {m : Instant}
    (hnode : d.node? place = some (.file bytes m)) :
    d.unlink temp now = .ok (d.leave place now) := by
  simp [Disk.unlink, hfound, hnode]

/-- What the system does with a file that is renamed. -/
def moved (d : Disk) (place target : Location) (bytes : List UInt8) (m now : Instant) : Disk :=
  (d.leave place now).enter target (.file bytes m) now

/-- A path that a file can be renamed to, and where it leads. -/
structure Takes (d : Disk) (path : FilePath) (target : Location) : Prop where
  checked : Disk.checkPath path.toText = .ok ()
  leads : d.locate false path = .ok target
  named : Disk.endsInName path = true
  free : ∀ m, d.node? target ≠ some (.directory m)

theorem rename_ok (hfound : d.find false temp = .ok place) {bytes : List UInt8} {m : Instant}
    (hnode : d.node? place = some (.file bytes m)) {target : Location}
    (h : Takes d path target) :
    d.rename temp path now = .ok (moved d place target bytes m now) := by
  obtain ⟨hsource, hleads⟩ := Disk.find_iff.mp hfound
  unfold Disk.rename
  rw [hsource, h.checked, hleads, h.leads]
  simp only [Result.bind_ok, h.named, hnode]
  cases htarget : d.node? target with
  | none => rfl
  | some n =>
    cases n with
    | directory m' => exact absurd htarget (h.free m')
    | file | link => rfl

theorem rename_error (hfound : d.find false temp = .ok place) {bytes : List UInt8} {m : Instant}
    (hnode : d.node? place = some (.file bytes m)) (h : ∀ target, ¬Takes d path target) :
    ∃ e, d.rename temp path now = .error e ∧
      ((∃ e', e = .system e') ∨ Disk.checkPath path.toText = .error e) := by
  obtain ⟨hsource, hleads⟩ := Disk.find_iff.mp hfound
  unfold Disk.rename
  rw [hsource, hleads]
  cases hcheck : Disk.checkPath path.toText with
  | error e => exact ⟨e, rfl, .inr rfl⟩
  | ok =>
    cases hto : d.locate false path with
    | error errno => exact ⟨_, rfl, .inl ⟨_, rfl⟩⟩
    | ok target =>
      simp only [Result.bind_ok, hnode]
      by_cases hnamed : Disk.endsInName path = true
      · cases htarget : d.node? target with
        | some n =>
          cases n with
          | directory m' => simp [hnamed]
          | file | link => exact absurd ⟨hcheck, hto, hnamed, by simp [htarget]⟩ (h target)
        | none => exact absurd ⟨hcheck, hto, hnamed, by simp [htarget]⟩ (h target)
      · simp [hnamed]

theorem changes_moved (d : Disk) (place target : Location) (bytes : List UInt8) (m now : Instant) :
    Disk.Changes (fun l => l = place ∨ l = target) d (moved d place target bytes m now) :=
  ((Disk.changes_leave d place now).mono fun _ => .inl).trans
    ((Disk.changes_enter _ target _ now).mono fun _ => .inr)

theorem node?_moved_target (d : Disk) (place target : Location) (bytes : List UInt8)
    (m now : Instant) : (moved d place target bytes m now).node? target = some (.file bytes m) :=
  Disk.node?_enter_self _ target _ now

theorem node?_moved_source {target : Location} (bytes : List UInt8) (m : Instant)
    (hne : place ≠ target) : (moved d place target bytes m now).node? place = none := by
  have hleft := Disk.node?_leave_self d place now
  have hchanges := Disk.changes_enter (d.leave place now) target (.file bytes m) now
  rcases hchanges.kept hne with hsame | ⟨m', _, hm', -⟩
  · exact hsame.trans hleft
  · exact absurd (hleft.symm.trans hm') (nofun)

/-! ## The invariant -/

/-- A temporary file is made, at a place. -/
def Creates (s : Save) (old : Disk) (place : Location) : Prop :=
  ∃ temp d, s.faults.guard .createTemp (old.createTemp s.path s.now) = .ok (temp, place, d)

/-- The temporary file of a save that began on `old` stands at `place`, and nothing else changed. -/
structure Temp (s : Save) (old d : Disk) (temp : FilePath) (place : Location) : Prop where
  created : s.Creates old place
  free : old.node? place = none
  named : ∃ q serial, place = q ++ [Disk.tempName s.path.name serial]
  found : d.find false temp = .ok place
  changes : Disk.Changes (· = place) old d
  file : ∃ bytes m, d.node? place = some (.file bytes m)

def Full (s : Save) (d : Disk) (place : Location) : Prop :=
  ∃ bytes, Utf8.encode s.text = .ok bytes ∧ d.node? place = some (.file bytes s.now)

/-- Why a save breaks off: the text has no bytes, or the system fails before or after that. -/
inductive Breaks (s : Save) : FileError → Prop
  | unopened (e : SystemError) (fault : Fault) (h : s.faults .openTemp = some fault) :
    Breaks s (.system e)
  | unencodable (u : Unencodable) (opened : s.faults .openTemp = none)
    (h : Utf8.encode s.text = .error u) : Breaks s (.unencodable u)
  | system (e : SystemError) (bytes : List UInt8) (h : Utf8.encode s.text = .ok bytes) :
    Breaks s (.system e)

/-- How a save that began on `old` ends. -/
inductive Ended (s : Save) (old : Disk) : Except FileError Unit → Disk → Prop
  | notCreated {e : FileError}
    (h : s.faults.guard .createTemp (old.createTemp s.path s.now) = .error e) :
    Ended s old (.error e) old
  | broken {e : FileError} {d : Disk} {place : Location}
    (why : s.Breaks e ∨ Disk.checkPath s.path.toText = .error e) (created : s.Creates old place)
    (free : old.node? place = none)
    (named : ∃ q serial, place = q ++ [Disk.tempName s.path.name serial])
    (changes : Disk.Changes (· = place) old d) (files : Disk.HasFiles (· = place) d)
    (gone : s.faults .discard = none → d.node? place = none) : Ended s old (.error e) d
  | saved {d : Disk} {place target : Location} {bytes : List UInt8}
    (encoded : Utf8.encode s.text = .ok bytes) (created : s.Creates old place)
    (free : old.node? place = none)
    (named : ∃ q serial, place = q ++ [Disk.tempName s.path.name serial])
    (takes : Takes old s.path target) (node : d.node? target = some (.file bytes s.now))
    (gone : place ≠ target → d.node? place = none)
    (changes : Disk.Changes (fun l => l = place ∨ l = target) old d) : Ended s old (.ok ()) d

/-- What holds at each stage of a save that began on `old`. -/
def Holds (s : Save) (old : Disk) : Stage → Disk → Prop
  | .creating, d => d = old
  | .opening temp place, d => s.Temp old d temp place
  | .writing temp place, d => s.Temp old d temp place ∧ s.faults .openTemp = none
  | .flushing temp place bytes, d => s.Temp old d temp place ∧
    Utf8.encode s.text = .ok bytes ∧ d.node? place = some (.file bytes s.now)
  | .syncing temp, d | .replacing temp, d =>
    ∃ place, s.Temp old d temp place ∧ s.Full d place
  | .discarding temp e, d => ∃ place, s.Temp old d temp place ∧
    (s.Breaks e ∨ Disk.checkPath s.path.toText = .error e)
  | .done r, d => s.Ended old r d

theorem Temp.hasFiles (h : s.Temp old d temp place) : Disk.HasFiles (· = place) d := by
  obtain ⟨bytes, m, hfile⟩ := h.file
  exact Disk.hasFiles_single hfile

theorem Temp.put (h : s.Temp old d temp place) (bytes : List UInt8) (m : Instant) :
    s.Temp old (d.put place (.file bytes m)) temp place := by
  have hput := Disk.changes_put d place (.file bytes m)
  have hnode : (d.put place (.file bytes m)).node? place = some (.file bytes m) := by
    rw [Disk.node?_put, if_pos rfl]
  have hfound : (d.put place (.file bytes m)).find false temp = .ok place := by
    have hold := Disk.find_iff.mp h.found
    rw [Disk.find_iff, hput.locate_iff h.hasFiles (Disk.hasFiles_single hnode)]
    exact hold
  exact ⟨h.created, h.free, h.named, hfound, h.changes.trans hput, bytes, m, hnode⟩

theorem Temp.takes (h : s.Temp old d temp place) {target : Location} (ht : Takes d path target) :
    Takes old path target where
  checked := ht.checked
  leads := (h.changes.locate_iff (Disk.hasFiles_free h.free) h.hasFiles).mp ht.leads
  named := ht.named
  free := by
    intro m hm
    have hframe := h.changes.frame (Disk.hasFiles_free h.free) h.hasFiles
    obtain ⟨m', hm'⟩ := hframe.directory target m hm
    exact ht.free m' hm'

/-! ## The calls keep the invariant -/

theorem holds_creating :
    s.Holds old (s.step .creating old).1 (s.step .creating old).2 := by
  simp only [step]
  cases hguard : s.faults.guard .createTemp (old.createTemp s.path s.now) with
  | error e => exact .notCreated hguard
  | ok r =>
    obtain ⟨temp, place, d⟩ := r
    obtain ⟨-, hfound, hfree, rfl, hnamed⟩ := createTemp_ok (Disk.guard_ok hguard)
    have hchanges := Disk.changes_enter old place (.file [] s.now) s.now
    have hnode := Disk.node?_enter_self old place (.file [] s.now) s.now
    have hfound' : (old.enter place (.file [] s.now) s.now).find false temp = .ok place := by
      rw [Disk.find_iff, hchanges.locate_iff (Disk.hasFiles_free hfree)
        (Disk.hasFiles_single hnode)]
      exact Disk.find_iff.mp hfound
    exact ⟨⟨temp, _, hguard⟩, hfree, hnamed, hfound', hchanges, [], s.now, hnode⟩

theorem holds_opening (h : s.Holds old (.opening temp place) d) :
    s.Holds old (s.step (.opening temp place) d).1 (s.step (.opening temp place) d).2 := by
  simp only [step, Faults.guard]
  cases hfault : s.faults .openTemp with
  | some fault => exact ⟨place, h, .inl (.unopened _ fault hfault)⟩
  | none => exact ⟨h, hfault⟩

theorem holds_writing (h : s.Holds old (.writing temp place) d) :
    s.Holds old (s.step (.writing temp place) d).1 (s.step (.writing temp place) d).2 := by
  obtain ⟨htemp, hopened⟩ := h
  simp only [step]
  cases hencode : Utf8.encode s.text with
  | error u => exact ⟨place, htemp, .inl (.unencodable u hopened hencode)⟩
  | ok bytes =>
    cases s.faults .writeTemp with
    | some fault => exact ⟨place, htemp.put _ _, .inl (.system _ bytes hencode)⟩
    | none =>
      refine ⟨htemp.put _ _, hencode, ?_⟩
      rw [Disk.node?_put, if_pos rfl]

theorem holds_flushing {bytes : List UInt8} (h : s.Holds old (.flushing temp place bytes) d) :
    s.Holds old (s.step (.flushing temp place bytes) d).1
      (s.step (.flushing temp place bytes) d).2 := by
  obtain ⟨htemp, hencode, hnode⟩ := h
  simp only [step]
  cases s.faults .flush with
  | some fault => exact ⟨place, htemp.put _ _, .inl (.system _ bytes hencode)⟩
  | none => exact ⟨place, htemp, bytes, hencode, hnode⟩

theorem holds_syncing (h : s.Holds old (.syncing temp) d) :
    s.Holds old (s.step (.syncing temp) d).1 (s.step (.syncing temp) d).2 := by
  obtain ⟨place, htemp, bytes, hencode, hnode⟩ := h
  simp only [step, Faults.guard]
  cases s.faults .sync with
  | some fault => exact ⟨place, htemp, .inl (.system _ bytes hencode)⟩
  | none => exact ⟨place, htemp, bytes, hencode, hnode⟩

theorem holds_replacing (h : s.Holds old (.replacing temp) d) :
    s.Holds old (s.step (.replacing temp) d).1 (s.step (.replacing temp) d).2 := by
  obtain ⟨place, htemp, bytes, hencode, hnode⟩ := h
  simp only [step, Faults.guard]
  cases s.faults .rename with
  | some fault => exact ⟨place, htemp, .inl (.system _ bytes hencode)⟩
  | none =>
    by_cases htakes : ∃ target, Takes d s.path target
    · obtain ⟨target, htakes⟩ := htakes
      simp only [rename_ok htemp.found hnode htakes]
      exact .saved hencode htemp.created htemp.free htemp.named (htemp.takes htakes)
        (node?_moved_target d place target bytes s.now s.now)
        (node?_moved_source bytes s.now)
        ((htemp.changes.mono fun _ => .inl).trans (changes_moved d place target bytes s.now s.now))
    · obtain ⟨e, hrename, hwhy⟩ : ∃ e, d.rename temp s.path s.now = .error e ∧ _ :=
        rename_error htemp.found hnode (not_exists.mp htakes)
      simp only [hrename]
      refine ⟨place, htemp, hwhy.imp ?_ id⟩
      rintro ⟨e', rfl⟩
      exact .system e' bytes hencode

theorem holds_discarding {e : FileError} (h : s.Holds old (.discarding temp e) d) :
    s.Holds old (s.step (.discarding temp e) d).1 (s.step (.discarding temp e) d).2 := by
  obtain ⟨place, htemp, hwhy⟩ := h
  obtain ⟨bytes, m, hnode⟩ := htemp.file
  simp only [step, Faults.guard]
  cases hfault : s.faults .discard with
  | some fault =>
    exact .broken hwhy htemp.created htemp.free htemp.named htemp.changes htemp.hasFiles
      (fun hnone => absurd (hfault.symm.trans hnone) (Option.some_ne_none fault))
  | none =>
    simp only [unlink_ok htemp.found hnode]
    have hgone := Disk.node?_leave_self d place s.now
    exact .broken hwhy htemp.created htemp.free htemp.named
      (htemp.changes.trans (Disk.changes_leave d place s.now)) (Disk.hasFiles_free hgone)
      (fun _ => hgone)

theorem step_holds (stage : Stage) (d : Disk) (h : s.Holds old stage d) :
    s.Holds old (s.step stage d).1 (s.step stage d).2 := by
  cases stage with
  | creating =>
    obtain rfl : d = old := h
    exact holds_creating
  | opening => exact holds_opening h
  | writing => exact holds_writing h
  | flushing => exact holds_flushing h
  | syncing => exact holds_syncing h
  | replacing => exact holds_replacing h
  | discarding => exact holds_discarding h
  | done r => exact h

theorem done_of_rank {stage : Stage} (h : stage.rank = 0) : ∃ r, stage = .done r := by
  cases stage with
  | done r => exact ⟨r, rfl⟩
  | _ => simp [Stage.rank] at h

theorem finish_step {stage : Stage} (h : stage.rank ≠ 0) (d : Disk) :
    s.finish stage d = s.finish (s.step stage d).1 (s.step stage d).2 := by
  cases stage with
  | done r => simp [Stage.rank] at h
  | _ => rw [finish]

/-- **All calls.** A whole save ends in one of the three ways. -/
theorem finish_ended (stage : Stage) (d : Disk) (h : s.Holds old stage d) :
    s.Ended old (s.finish stage d).2 (s.finish stage d).1 := by
  by_cases hdone : stage.rank = 0
  · obtain ⟨r, rfl⟩ := done_of_rank hdone
    rw [finish]
    exact h
  · have hrank := s.rank_step stage d hdone
    rw [finish_step hdone]
    exact finish_ended _ _ (step_holds stage d h)
termination_by stage.rank

theorem run_ended (s : Save) (d : Disk) : s.Ended d (s.run d).2 (s.run d).1 :=
  finish_ended .creating d rfl

/-! ## Saves whose paths are good -/

/-- Every code point of the paths that a save makes up is good. -/
structure Good (s : Save) (d : Disk) : Prop where
  path : s.path.isAddressable = true
  home : d.hasGoodHome = true
  name : s.path.name.isAddressable = true

theorem isAddressable_tempPath (h : s.Good d) (serial : Nat) :
    (d.tempPath s.path serial).isAddressable = true :=
  FilePath.isAddressable_child
    (Disk.isAddressable_absolute h.home (FilePath.isAddressable_parent h.path))
    (Disk.isAddressable_tempName h.name serial)

theorem createTemp_error (h : s.Good d) {now : Instant} {e : FileError}
    (hcreate : d.createTemp s.path now = .error e) : ∃ e', e = .system e' := by
  have hgood := isAddressable_tempPath h (d.freeSerial s.path)
  unfold Disk.createTemp at hcreate
  cases hfind : d.find false (d.tempPath s.path (d.freeSerial s.path)) with
  | error e' =>
    simp only [hfind, Result.bind_error] at hcreate
    cases hcreate
    exact Disk.find_error hgood hfind
  | ok l =>
    simp only [hfind, Result.bind_ok] at hcreate
    cases hnode : d.node? l with
    | none => simp [hnode] at hcreate
    | some n =>
      simp only [hnode, Result.throw_eq] at hcreate
      exact ⟨_, (Except.error.inj hcreate).symm⟩

/-- The path of a save leads to no link, also once the disk has grown. -/
def NoLink (s : Save) (old : Disk) : Prop :=
  ∀ d, Disk.Stable old d → ∀ l t, d.locate false s.path = .ok l → d.node? l ≠ some (.link t)

/-- How a save ends that began on `old` and has good paths. -/
inductive Outcome (s : Save) (old : Disk) : Except FileError Unit → Disk → Prop
  | notCreated (e : SystemError)
    (h : s.faults.guard .createTemp (old.createTemp s.path s.now) = .error (.system e)) :
    Outcome s old (.error (.system e)) old
  | broken {e : FileError} {d : Disk} {place : Location} (why : s.Breaks e)
    (created : ∃ r, s.faults.guard .createTemp (old.createTemp s.path s.now) = .ok r)
    (named : ∃ q serial, place = q ++ [Disk.tempName s.path.name serial])
    (frame : Disk.Frame (· = place) old d) : Outcome s old (.error e) d
  | saved {d : Disk} {place target : Location} {bytes : List UInt8}
    (encoded : Utf8.encode s.text = .ok bytes)
    (named : ∃ q serial, place = q ++ [Disk.tempName s.path.name serial])
    (node : d.node? target = some (.file bytes s.now))
    (frame : s.NoLink old → d.locate false s.path = .ok target ∧
      Disk.Frame (fun l => l = place ∨ l = target) old d) : Outcome s old (.ok ()) d

theorem frame_of_saved {target : Location} {bytes : List UInt8} (hfree : old.node? place = none)
    (htakes : Takes old s.path target) (hnolink : ∀ t, old.node? target ≠ some (.link t))
    (hnode : d.node? target = some (.file bytes s.now))
    (hgone : place ≠ target → d.node? place = none)
    (hchanges : Disk.Changes (fun l => l = place ∨ l = target) old d) :
    Disk.Frame (fun l => l = place ∨ l = target) old d := by
  apply hchanges.frame
  · rintro l (rfl | rfl) n hn
    · simp [hfree] at hn
    · cases n with
      | file bytes m => exact ⟨bytes, m, rfl⟩
      | directory m => exact absurd hn (htakes.free m)
      | link t => exact absurd hn (hnolink t)
  · rintro l (rfl | rfl) n hn
    · by_cases hne : l = target
      · subst hne
        exact ⟨bytes, s.now, Option.some.inj (hn.symm.trans hnode)⟩
      · simp [hgone hne] at hn
    · exact ⟨bytes, s.now, Option.some.inj (hn.symm.trans hnode)⟩

theorem Ended.outcome {r : Except FileError Unit} (hgood : s.Good old) (h : s.Ended old r d) :
    s.Outcome old r d := by
  cases h with
  | notCreated h =>
    obtain ⟨e, rfl⟩ := Disk.guard_error (fun e he => createTemp_error hgood he) h
    exact .notCreated e h
  | broken why created free named changes files gone =>
    obtain ⟨temp, d', hcreated⟩ := created
    refine .broken ?_ ⟨_, hcreated⟩ named (changes.frame (Disk.hasFiles_free free) files)
    rcases why with why | hcheck
    · exact why
    · rw [Disk.checkPath_toText_iff.mpr hgood.path] at hcheck
      cases hcheck
  | @saved _ place target bytes encoded _ free named takes node gone changes =>
    refine .saved encoded named node fun hnolink => ?_
    have hframe := frame_of_saved free takes (fun t => hnolink old (.refl old) target t takes.leads)
      node gone changes
    exact ⟨Disk.locate_stable hframe.stable takes.leads, hframe⟩

theorem run_outcome (hgood : s.Good d) : s.Outcome d (s.run d).2 (s.run d).1 :=
  (run_ended s d).outcome hgood

end CatalogCache.Save
