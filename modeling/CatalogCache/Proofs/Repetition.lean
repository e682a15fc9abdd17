import CatalogCache.Proofs.SaveAgreement
import CatalogCache.Proofs.Trees

/-!
# The same save again

A save that is made once more at the same time leaves the disk as it is. It comes to the same end,
or the system fails it because what the path went through is a file now.
-/

namespace CatalogCache

/-! ## Nodes that are set twice -/

namespace Disk

variable {d : Disk} {k l : Location} {n : Node} {now : Instant}

theorem put_self (h : d.node? l = some n) : d.put l n = d := by
  obtain ⟨nodes, home⟩ := d
  have hnodes : putNode nodes l n = nodes := by
    unfold node? at h
    dsimp only at h
    induction nodes with
    | nil => cases h
    | cons entry rest ih =>
      rw [putNode]
      by_cases hentry : entry.1 = l
      · rw [List.find?_cons_of_pos (by simpa using hentry)] at h
        obtain rfl : entry.2 = n := Option.some.inj h
        rw [if_pos hentry, ← hentry]
      · rw [List.find?_cons_of_neg (by simpa using hentry)] at h
        rw [if_neg hentry, ih h]
  rw [put, hnodes]

theorem put_comm (hne : k ≠ l) (h : d.node? k ≠ none) (x n : Node) :
    (d.put k x).put l n = (d.put l n).put k x := by
  obtain ⟨nodes, home⟩ := d
  have hnodes : putNode (putNode nodes k x) l n = putNode (putNode nodes l n) k x := by
    unfold node? at h
    dsimp only at h
    induction nodes with
    | nil => exact absurd rfl h
    | cons entry rest ih =>
      by_cases hk : entry.1 = k
      · have hl : entry.1 ≠ l := hk ▸ hne
        simp [putNode, hk, hne]
      · rw [List.find?_cons_of_neg (by simpa using hk)] at h
        by_cases hl : entry.1 = l
        · simp [putNode, hl, hne.symm]
        · simp [putNode, hk, hl, ih h]
  simp only [put, hnodes]

theorem take_put (d : Disk) (l : Location) (n : Node) : (d.put l n).take l = d.take l := by
  obtain ⟨nodes, home⟩ := d
  have hnodes : (putNode nodes l n).filter (·.1 ≠ l) = nodes.filter (·.1 ≠ l) := by
    induction nodes with
    | nil => simp [putNode]
    | cons entry rest ih =>
      by_cases hentry : entry.1 = l
      · simp [putNode, hentry]
      · simp only [putNode, hentry, if_false, List.filter_cons, ih]
  simp only [take, put, hnodes]

theorem take_put_of_ne (d : Disk) (hne : k ≠ l) (x : Node) :
    (d.put k x).take l = (d.take l).put k x := by
  obtain ⟨nodes, home⟩ := d
  have hnodes : (putNode nodes k x).filter (·.1 ≠ l) = putNode (nodes.filter (·.1 ≠ l)) k x := by
    induction nodes with
    | nil => simp [putNode, hne]
    | cons entry rest ih =>
      by_cases hk : entry.1 = k
      · simp [putNode, hk, hne]
      · by_cases hl : entry.1 = l
        · simp only [putNode, hk, if_false, List.filter_cons, ih]
          simp [hl]
        · simp only [putNode, hk, if_false, List.filter_cons, ih]
          simp [hl, putNode, hk]
  simp only [take, put, hnodes]

theorem take_of_none (h : d.node? l = none) : d.take l = d := by
  obtain ⟨nodes, home⟩ := d
  have hnodes : nodes.filter (·.1 ≠ l) = nodes := by
    rw [List.filter_eq_self]
    intro entry hentry
    have hall := List.find?_eq_none.mp (Option.map_eq_none_iff.mp h)
    simpa using hall entry hentry
  rw [take, hnodes]

/-! ## Times that are set twice -/

theorem dropLast_ne (hl : l ≠ []) : l.dropLast ≠ l := by
  intro h
  have hlength := congrArg List.length h
  have hpos := List.length_pos_iff.mpr hl
  rw [List.length_dropLast] at hlength
  omega

/-- The directory that holds a place has the time already. -/
def Stamped (d : Disk) (l : Location) (now : Instant) : Prop :=
  ∀ m, d.node? l.dropLast = some (.directory m) → m = now

theorem Stamped.stamp_eq (h : d.Stamped l now) : d.stamp l now = d := by
  unfold stamp
  split
  · next m hm =>
    split_ifs
    · rfl
    · rw [h m hm] at hm
      exact put_self hm
  · rfl

theorem stamped_stamp (d : Disk) (hl : l ≠ []) (now : Instant) : (d.stamp l now).Stamped l now := by
  intro m
  unfold stamp
  split
  · next m' hm' =>
    rw [if_neg hl, node?_put, if_pos rfl]
    rintro ⟨⟩
    rfl
  · next hno => exact fun hm => absurd hm (hno m)

theorem Stamped.stamp (h : d.Stamped l now) (k : Location) : (d.stamp k now).Stamped l now := by
  intro m
  unfold Disk.stamp
  split
  · split_ifs
    · exact h m
    · rw [node?_put]
      split_ifs
      · rintro ⟨⟩
        rfl
      · exact h m
  · exact h m

theorem Stamped.enter (h : d.Stamped l now) (k : Location) (bytes : List UInt8) (m : Instant) :
    (d.enter k (.file bytes m) now).Stamped l now := by
  refine Stamped.stamp ?_ k
  intro m'
  rw [node?_put]
  split_ifs
  · rintro ⟨⟩
  · exact h m'

theorem node?_stamp_eq_none (d : Disk) (l k : Location) (now : Instant) :
    (d.stamp l now).node? k = none ↔ d.node? k = none := by
  unfold stamp
  split
  · next m hm =>
    split_ifs
    · rfl
    · rw [node?_put]
      split_ifs with hk
      · simp [hk, hm]
      · rfl
  · rfl

theorem stamp_stamp (d : Disk) (hl : l ≠ []) (now : Instant) :
    (d.stamp l now).stamp l now = d.stamp l now :=
  (d.stamped_stamp hl now).stamp_eq

theorem put_stamp (d : Disk) (hl : l ≠ []) (n : Node) (now : Instant) :
    (d.stamp l now).put l n = (d.put l n).stamp l now := by
  have hparent : (d.put l n).node? l.dropLast = d.node? l.dropLast := by
    rw [node?_put, if_neg (dropLast_ne hl)]
  unfold stamp
  rw [hparent]
  split
  · next m hm =>
    rw [if_neg hl, if_neg hl]
    exact put_comm (dropLast_ne hl) (by simp [hm]) _ _
  · rfl

theorem take_stamp (d : Disk) (hl : l ≠ []) (now : Instant) :
    (d.stamp l now).take l = (d.take l).stamp l now := by
  have hparent : (d.take l).node? l.dropLast = d.node? l.dropLast := by
    rw [node?_take, if_neg (dropLast_ne hl)]
  unfold stamp
  rw [hparent]
  split
  · rw [if_neg hl, if_neg hl]
    exact take_put_of_ne d (dropLast_ne hl) _
  · rfl

theorem enter_stamp (d : Disk) (hl : l ≠ []) (n : Node) (now : Instant) :
    (d.stamp l now).enter l n now = d.enter l n now := by
  rw [enter, put_stamp d hl, stamp_stamp _ hl, enter]

theorem leave_put (d : Disk) (l : Location) (n : Node) (now : Instant) :
    (d.put l n).leave l now = d.leave l now := by
  rw [leave, take_put, leave]

theorem leave_enter (hl : l ≠ []) (h : d.node? l = none) (n : Node) (now : Instant) :
    (d.enter l n now).leave l now = d.stamp l now := by
  rw [leave, enter, take_stamp _ hl, take_put, take_of_none h, stamp_stamp d hl]

theorem enter_self (h : d.node? l = some n) (hstamped : d.Stamped l now) :
    d.enter l n now = d := by
  rw [enter, put_self h, hstamped.stamp_eq]

/-! ## Temporary files that are made twice -/

variable {d' d₁ : Disk} {p path temp : FilePath} {base place : Location} {name : Text}

theorem locate_child (hleads : Leads d true Walk.maxLinks (d.start p) p.parts base)
    (hbase : ∃ m, d.node? base = some (.directory m)) (hname : name.IsPlain) :
    d.locate false (p.child name) =
      if Walk.maxPath < Walk.byteLength (p.child name).toText then .error .nameTooLong
      else if Walk.maxName < Walk.byteLength name then .error .nameTooLong
      else .ok (base ++ [name]) := by
  obtain ⟨m, hm⟩ := hbase
  obtain ⟨links, hwalk⟩ := hleads.walk_append hm
  have hlast := hwalk false [name] (by simp)
  show (if Walk.maxPath < Walk.byteLength (p.child name).toText then .error .nameTooLong
    else Walk.walk d false Walk.maxLinks (d.start (p.child name)) (p.parts ++ [name])) = _
  rw [start_child, hlast]
  congr 1
  split_ifs with hlong
  · exact Walk.walk_long hname hlong
  · have hshort := Nat.not_lt.mp hlong
    apply walk_of_leads
    cases hnode : d.node? (base ++ [name]) with
    | none => exact .last hname hshort (by simp [hnode])
    | some n =>
      cases n with
      | file bytes m => exact .last hname hshort (by simp [hnode])
      | directory m => exact .directory hname hshort hnode (.nil ..)
      | link t => exact .unfollowed hname hshort hnode rfl

/-- Temporary files for the path go to the same directory of both disks, where the same names are
free for them. -/
structure TempsAlike (d d' : Disk) (path : FilePath) (base : Location) : Prop where
  home : d'.home = d.home
  leads : Leads d true Walk.maxLinks [] (d.absolute path.parent).parts base
  leads' : Leads d' true Walk.maxLinks [] (d.absolute path.parent).parts base
  there : ∃ m, d.node? base = some (.directory m)
  there' : ∃ m, d'.node? base = some (.directory m)
  free : ∀ serial, d'.node? (base ++ [tempName path.name serial]) = none ↔
    d.node? (base ++ [tempName path.name serial]) = none

namespace TempsAlike

theorem tempPath_eq (h : TempsAlike d d' path base) (serial : Nat) :
    d'.tempPath path serial = d.tempPath path serial := by
  rw [tempPath, tempPath, absolute_home h.home]

theorem locate_eq (h : TempsAlike d d' path base) (serial : Nat) :
    d'.locate false (d.tempPath path serial) = d.locate false (d.tempPath path serial) := by
  have hstart : d.start (d.absolute path.parent) = [] := d.start_absolute _
  have hstart' : d'.start (d.absolute path.parent) = [] := by
    rw [← absolute_home h.home, d'.start_absolute]
  have hname := isPlain_tempName path.name serial
  unfold tempPath
  rw [locate_child (hstart.symm ▸ h.leads) h.there hname,
    locate_child (hstart'.symm ▸ h.leads') h.there' hname]

theorem isNone_eq (h : TempsAlike d d' path base) {serial : Nat}
    (hplace : d.locate false (d.tempPath path serial) = .ok place) :
    (d'.node? place).isNone = (d.node? place).isNone := by
  have hstart : d.start (d.absolute path.parent) = [] := d.start_absolute _
  unfold tempPath at hplace
  rw [locate_child (hstart.symm ▸ h.leads) h.there (isPlain_tempName path.name serial)] at hplace
  split_ifs at hplace
  obtain rfl := Except.ok.inj hplace
  rw [Bool.eq_iff_iff, Option.isNone_iff_eq_none, Option.isNone_iff_eq_none]
  exact h.free serial

theorem freeSerial_eq (h : TempsAlike d d' path base) : d'.freeSerial path = d.freeSerial path := by
  apply freeSerial_congr
  intro serial
  rw [h.tempPath_eq, isFree, isFree, h.locate_eq]
  cases hl : d.locate false (d.tempPath path serial) with
  | error errno => rfl
  | ok l => exact h.isNone_eq hl

theorem createTemp_eq (h : TempsAlike d d' path base)
    (hcreate : d.createTemp path now = .ok (temp, place, d₁)) :
    d'.createTemp path now = .ok (temp, place, d'.enter place (.file [] now) now) := by
  unfold createTemp at hcreate ⊢
  rw [h.freeSerial_eq, h.tempPath_eq]
  obtain ⟨l, hl, hcreate⟩ := Result.bind_eq_ok_iff.mp hcreate
  have hl' : d'.find false (d.tempPath path (d.freeSerial path)) = .ok l := by
    rw [find_iff] at hl ⊢
    exact ⟨hl.1, (h.locate_eq _).trans hl.2⟩
  have hsame := h.isNone_eq (find_iff.mp hl).2
  cases hnone : d.node? l with
  | some n => simp [hnone] at hcreate
  | none =>
    rw [hnone] at hcreate hsame
    cases hcreate
    have hnone' : d'.node? place = none := Option.isNone_iff_eq_none.mp hsame
    simp only [hl', Result.bind_ok, hnone']
    rfl

end TempsAlike

end Disk

/-! ## Saves without faults -/

namespace Save

variable {s : Save} {d : Disk} {temp : FilePath} {place : Location}

theorem run_eq (hfaults : s.faults = Faults.none) (d : Disk) :
    s.run d = match d.createTemp s.path s.now with
      | .error e => (d, .error e)
      | .ok (temp, place, d₁) => s.finish (.opening temp place) d₁ := by
  rw [run, finish_step (by simp [Stage.rank])]
  simp only [step, hfaults, Faults.guard, Faults.none]
  cases d.createTemp s.path s.now with
  | error e => rw [finish]
  | ok r => rfl

theorem finish_opening (hfaults : s.faults = Faults.none) (temp : FilePath) (place : Location)
    (d : Disk) : s.finish (.opening temp place) d = match Utf8.encode s.text with
      | .error u => s.finish (.discarding temp (.unencodable u)) d
      | .ok bytes => s.finish (.replacing temp) (d.put place (.file bytes s.now)) := by
  rw [finish_step (by simp [Stage.rank])]
  simp only [step, hfaults, Faults.guard, Faults.none]
  rw [finish_step (by simp [Stage.rank])]
  simp only [step, hfaults, Faults.none]
  cases Utf8.encode s.text with
  | error u => rfl
  | ok bytes =>
    dsimp only
    rw [finish_step (by simp [Stage.rank])]
    simp only [step, hfaults, Faults.none]
    rw [finish_step (by simp [Stage.rank])]
    simp only [step, hfaults, Faults.guard, Faults.none]

theorem finish_replacing (hfaults : s.faults = Faults.none) (temp : FilePath) (d : Disk) :
    s.finish (.replacing temp) d = match d.rename temp s.path s.now with
      | .error e => s.finish (.discarding temp e) d
      | .ok d' => (d', .ok ()) := by
  rw [finish_step (by simp [Stage.rank])]
  simp only [step, hfaults, Faults.guard, Faults.none]
  cases d.rename temp s.path s.now with
  | error e => rfl
  | ok d' =>
    dsimp only
    rw [finish]

theorem finish_discarding (hfaults : s.faults = Faults.none)
    (hfound : d.find false temp = .ok place)
    (hfile : ∃ bytes m, d.node? place = some (.file bytes m)) (e : FileError) :
    s.finish (.discarding temp e) d = (d.leave place s.now, .error e) := by
  obtain ⟨bytes, m, hnode⟩ := hfile
  rw [finish_step (by simp [Stage.rank])]
  simp only [step, hfaults, Faults.guard, Faults.none, unlink_ok hfound hnode]
  rw [finish]

/-- How a save without faults comes about. -/
inductive Ran (s : Save) (d : Disk) : Disk × Except FileError Unit → Prop
  | notCreated {e : FileError} (h : d.createTemp s.path s.now = .error e) : Ran s d (d, .error e)
  | broken {e : FileError} {temp : FilePath} {place : Location}
    (created : d.createTemp s.path s.now =
      .ok (temp, place, d.enter place (.file [] s.now) s.now)) :
    Ran s d (d.stamp place s.now, .error e)
  | saved {temp : FilePath} {place target : Location} {bytes : List UInt8}
    (created : d.createTemp s.path s.now =
      .ok (temp, place, d.enter place (.file [] s.now) s.now))
    (encoded : Utf8.encode s.text = .ok bytes) (takes : Takes d s.path target) :
    Ran s d ((d.stamp place s.now).enter target (.file bytes s.now) s.now, .ok ())

theorem ran_run (hfaults : s.faults = Faults.none) (d : Disk) : s.Ran d (s.run d) := by
  rw [run_eq hfaults]
  cases hcreate : d.createTemp s.path s.now with
  | error e => exact .notCreated hcreate
  | ok r =>
    obtain ⟨temp, place, d₁⟩ := r
    obtain ⟨-, -, hfree, rfl, hnamed⟩ := createTemp_ok hcreate
    have htemp : s.Temp d (d.enter place (.file [] s.now) s.now) temp place := by
      have hholds : s.Holds d (s.step .creating d).1 (s.step .creating d).2 := s.holds_creating
      simp only [step, hfaults, Faults.guard, Faults.none, hcreate] at hholds
      exact hholds
    have hplace : place ≠ [] := by
      obtain ⟨q, serial, rfl⟩ := hnamed
      simp
    have hleft := Disk.leave_enter hplace hfree (.file [] s.now) s.now
    dsimp only
    rw [finish_opening hfaults]
    cases hencode : Utf8.encode s.text with
    | error u =>
      dsimp only
      rw [finish_discarding hfaults htemp.found htemp.file, hleft]
      exact .broken hcreate
    | ok bytes =>
      dsimp only
      rw [finish_replacing hfaults]
      have hput := htemp.put bytes s.now
      have hnode : ((d.enter place (.file [] s.now) s.now).put place (.file bytes s.now)).node?
          place = some (.file bytes s.now) := by
        rw [Disk.node?_put, if_pos rfl]
      by_cases htakes : ∃ target, Takes ((d.enter place (.file [] s.now) s.now).put place
          (.file bytes s.now)) s.path target
      · obtain ⟨target, htakes⟩ := htakes
        rw [rename_ok hput.found hnode htakes, moved, Disk.leave_put, hleft]
        exact .saved hcreate hencode (hput.takes htakes)
      · have hrename : ∃ e, ((d.enter place (.file [] s.now) s.now).put place
            (.file bytes s.now)).rename temp s.path s.now = .error e := by
          obtain ⟨e, hrename, -⟩ := rename_error hput.found hnode (not_exists.mp htakes)
          exact ⟨e, hrename⟩
        obtain ⟨e, hrename⟩ := hrename
        rw [hrename]
        dsimp only
        rw [finish_discarding hfaults hput.found hput.file, Disk.leave_put, hleft]
        exact .broken hcreate

theorem error_of_run (hgood : s.Good d) {bytes : List UInt8}
    (hencode : Utf8.encode s.text = .ok bytes) {e : FileError} (h : (s.run d).2 = .error e) :
    ∃ e', e = .system e' := by
  have houtcome := run_outcome hgood
  generalize s.run d = ran at h houtcome
  obtain ⟨d', r⟩ := ran
  obtain rfl : r = .error e := h
  cases houtcome with
  | notCreated e => exact ⟨e, rfl⟩
  | broken why =>
    cases why with
    | unopened e | system e => exact ⟨e, rfl⟩
    | unencodable u _ hu => cases hu.symm.trans hencode

/-! ## The save again -/

theorem base_of_createTemp (htree : d.IsTree) {path : FilePath} {now : Instant} {d₁ : Disk}
    (h : d.createTemp path now = .ok (temp, place, d₁)) :
    ∃ base, Leads d true Walk.maxLinks [] (d.absolute path.parent).parts base ∧
      (∃ m, d.node? base = some (.directory m)) ∧
      ∀ d', Disk.Carries d d' →
        Leads d' true Walk.maxLinks [] (d.absolute path.parent).parts base := by
  obtain ⟨⟨serial, rfl⟩, hfound, -⟩ := createTemp_ok h
  have hlocate := (Disk.find_iff.mp hfound).2
  obtain ⟨links, base, -, hfirst⟩ := Disk.locate_before (p := d.absolute path.parent)
    (Disk.isPlain_tempName path.name serial) hlocate
  rw [d.start_absolute] at hfirst
  obtain ⟨-, hleads⟩ := Disk.locate_ok_iff.mp hlocate
  rw [Disk.tempPath, Disk.start_child, d.start_absolute] at hleads
  obtain ⟨base', m, hfront, hm⟩ := hleads.front htree htree.root
  obtain rfl := hfront.unique (hfirst d (.refl d))
  exact ⟨base', hfront, ⟨m, hm⟩, hfirst⟩

section

variable {d' : Disk} {target target' place' : Location} {above : FilePath} {name : Text}

theorem Takes.in_name (hname : name.IsPlain) (hpath : s.path = above.child name)
    (h : Takes d s.path target) : ∃ base, target = base ++ [name] ∧
      ∀ d', Disk.Carries d d' → Leads d' true Walk.maxLinks (d.start above) above.parts base := by
  have hleads := h.leads
  rw [hpath] at hleads
  obtain ⟨links, base, hlast, hfirst⟩ := Disk.locate_before hname hleads
  exact ⟨base, hlast.of_name hname, hfirst⟩

theorem target_again (hname : name.IsPlain) (hpath : s.path = above.child name)
    (hended : s.Ended d (.ok ()) d') (h : Takes d s.path target) (h' : Takes d' s.path target') :
    target' = target := by
  obtain ⟨base, rfl, hfirst⟩ := h.in_name hname hpath
  obtain ⟨base', rfl, hfirst'⟩ := h'.in_name hname hpath
  have hback := hfirst' d hended.carries
  rw [Disk.start, hended.home, ← Disk.start] at hback
  rw [hback.unique (hfirst d (.refl d))]

theorem place_again (hname : name.IsPlain) (hpath : s.path = above.child name) (htree : d.IsTree)
    (htree' : d'.IsTree) (hended : s.Ended d (.ok ()) d') {temp' : FilePath} {d₁ d₁' : Disk}
    (h : d.createTemp s.path s.now = .ok (temp, place, d₁))
    (h' : d'.createTemp s.path s.now = .ok (temp', place', d₁')) : place' = place := by
  obtain ⟨base, hleads, hbase, -⟩ := base_of_createTemp htree h
  obtain ⟨base', hleads', hbase', hfirst⟩ := base_of_createTemp htree' h'
  rw [Disk.absolute_home hended.home] at hleads' hfirst
  obtain rfl := hleads.unique (hfirst d hended.carries)
  obtain ⟨-, target, -, htakes, -, hkept, -⟩ := hended.succeeded
  obtain ⟨above', rfl, -⟩ := htakes.in_name hname hpath
  have hfree : ∀ serial, d'.node? (base ++ [Disk.tempName s.path.name serial]) = none ↔
      d.node? (base ++ [Disk.tempName s.path.name serial]) = none := by
    intro serial
    have hne : base ++ [Disk.tempName s.path.name serial] ≠ above' ++ [name] := by
      intro hsame
      have hlast := congrArg List.getLast? hsame
      simp only [List.getLast?_append, List.getLast?_singleton, Option.some_or] at hlast
      apply Disk.tempName_ne s.path.name serial
      rw [Option.some.inj hlast, hpath, FilePath.name, FilePath.child]
      simp
    rcases hkept _ hne with hsame | ⟨m, m', hm, hm'⟩
    · rw [hsame]
    · simp [hm, hm']
  have halike : Disk.TempsAlike d d' s.path base :=
    ⟨hended.home, hleads, hleads', hbase, hbase', hfree⟩
  have hsame := halike.createTemp_eq h
  rw [h'] at hsame
  cases hsame
  rfl

theorem createTemp_again (htree : d.IsTree) {temp : FilePath}
    (h : d.createTemp s.path s.now =
      .ok (temp, place, d.enter place (.file [] s.now) s.now)) :
    (d.stamp place s.now).createTemp s.path s.now =
      .ok (temp, place, d.enter place (.file [] s.now) s.now) := by
  obtain ⟨-, -, -, -, q, serial, hplace⟩ := createTemp_ok h
  obtain ⟨base, hleads, ⟨m, hm⟩, -⟩ := base_of_createTemp htree h
  have hframe : Disk.Frame Disk.Nowhere d (d.stamp place s.now) := Disk.frame_stamp d place s.now
  rw [← Disk.enter_stamp d (by simp [hplace])]
  have halike : Disk.TempsAlike d (d.stamp place s.now) s.path base :=
    ⟨hframe.home, hleads, hleads.stable hframe.stable, ⟨m, hm⟩, hframe.directory base m hm,
      fun _ => d.node?_stamp_eq_none ..⟩
  exact halike.createTemp_eq h

theorem run_saved_again (hname : name.IsPlain) (hpath : s.path = above.child name)
    (hfaults : s.faults = Faults.none) (hgood : s.Good d) (htree : d.IsTree) (htree' : d'.IsTree)
    {temp : FilePath} {bytes : List UInt8}
    (created : d.createTemp s.path s.now =
      .ok (temp, place, d.enter place (.file [] s.now) s.now))
    (encoded : Utf8.encode s.text = .ok bytes) (takes : Takes d s.path target)
    (hd' : (d.stamp place s.now).enter target (.file bytes s.now) s.now = d')
    (hended : s.Ended d (.ok ()) d') :
    ∃ r, s.run d' = (d', r) ∧ (r = .ok () ∨ ∃ e, r = .error (.system e)) := by
  obtain ⟨-, -, -, -, q, serial, hplace⟩ := createTemp_ok created
  obtain ⟨base, htarget, -⟩ := takes.in_name hname hpath
  have hstamped : d'.Stamped place s.now := by
    rw [← hd']
    exact (d.stamped_stamp (by simp [hplace]) s.now).enter target bytes s.now
  have hself : d'.enter target (.file bytes s.now) s.now = d' := by
    apply Disk.enter_self
    · rw [← hd']
      exact Disk.node?_enter_self _ target _ s.now
    · rw [← hd']
      exact Disk.stamped_stamp _ (by simp [htarget]) s.now
  have hgood' : s.Good d' := by
    refine ⟨hgood.path, ?_, hgood.name⟩
    rw [Disk.hasGoodHome, hended.home]
    exact hgood.home
  have hsystem : ∀ e, (s.run d').2 = .error e → ∃ e', e = .system e' :=
    fun e => error_of_run hgood' encoded
  have hsecond := ran_run hfaults d'
  generalize s.run d' = second at hsecond hsystem ⊢
  cases hsecond with
  | @notCreated e =>
    obtain ⟨e', rfl⟩ := hsystem e rfl
    exact ⟨_, rfl, .inr ⟨e', rfl⟩⟩
  | @broken e _ place' created' =>
    obtain rfl := place_again hname hpath htree htree' hended created created'
    obtain ⟨e', rfl⟩ := hsystem e rfl
    rw [hstamped.stamp_eq]
    exact ⟨_, rfl, .inr ⟨e', rfl⟩⟩
  | @saved _ place' target' bytes' created' encoded' takes' =>
    obtain rfl := place_again hname hpath htree htree' hended created created'
    obtain rfl := target_again hname hpath hended takes takes'
    obtain rfl := Except.ok.inj (encoded.symm.trans encoded')
    rw [hstamped.stamp_eq, hself]
    exact ⟨_, rfl, .inl rfl⟩

/-- **Again.** The disk stays as the first save has left it. -/
theorem run_again (hname : name.IsPlain) (hpath : s.path = above.child name)
    (hfaults : s.faults = Faults.none) (hgood : s.Good d) (htree : d.IsTree) :
    ∃ r, s.run (s.run d).1 = ((s.run d).1, r) ∧
      (r = (s.run d).2 ∨ (s.run d).2 = .ok () ∧ ∃ e, r = .error (.system e)) := by
  have hran := ran_run hfaults d
  have hended := s.run_ended d
  have htree' := isTree_run htree s (by rw [hfaults]; rfl)
  generalize hrun : s.run d = first at hran hended htree'
  cases hran with
  | notCreated => exact ⟨_, hrun, .inl rfl⟩
  | @broken e temp place created =>
    refine ⟨.error e, ?_, .inl rfl⟩
    dsimp only
    rw [← hrun, run_eq hfaults (d.stamp place s.now), run_eq hfaults d,
      createTemp_again htree created, created]
  | saved created encoded takes =>
    obtain ⟨r, hagain, hends⟩ :=
      run_saved_again hname hpath hfaults hgood htree htree' created encoded takes rfl hended
    refine ⟨r, hagain, ?_⟩
    rcases hends with rfl | hsystem
    · exact .inl rfl
    · exact .inr ⟨rfl, hsystem⟩

end

end Save

end CatalogCache
