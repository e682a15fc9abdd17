import CatalogCache.Proofs.AccountPlaces
import CatalogCache.Proofs.Saving

/-!
# Saves of an account

On two disks that agree about an account a save of the account takes the same calls and ends the
same way, and the disks agree ever after. A save of another account makes no difference.
-/

namespace CatalogCache

/-! ## Free temporary names -/

namespace Disk

variable {d d' : Disk} {p : FilePath}

theorem tempName_injective (name : Text) : Function.Injective (tempName name) := by
  intro serial serial' h
  have hserial : Text.padZeros 8 (Text.ofNat serial) = Text.padZeros 8 (Text.ofNat serial') := by
    simpa [tempName] using h
  rw [← Text.number_padZeros 8 serial, hserial, Text.number_padZeros]

theorem mem_nodes_of_node? {l : Location} {n : Node} (h : d.node? l = some n) :
    l ∈ d.nodes.map (·.1) := by
  obtain ⟨entry, hfind, -⟩ := Option.map_eq_some_iff.mp h
  have hl : entry.1 = l := by simpa using List.find?_some hfind
  exact List.mem_map.mpr ⟨entry, List.mem_of_find?_eq_some hfind, hl⟩

theorem exists_free (d : Disk) (p : FilePath) :
    ∃ serial < d.nodes.length + 1, d.isFree (d.tempPath p serial) = true := by
  by_contra hall
  simp only [not_exists, not_and, Bool.not_eq_true] at hall
  have hplace : ∀ serial < d.nodes.length + 1, ∃ q,
      q ++ [tempName p.name serial] ∈ d.nodes.map (·.1) := by
    intro serial hserial
    have htaken := hall serial hserial
    unfold isFree at htaken
    cases hl : d.locate false (d.tempPath p serial) with
    | error e => simp [hl] at htaken
    | ok l =>
      obtain ⟨q, rfl⟩ := (locate_ok_iff.mp hl).2.ends_in_name (isPlain_tempName p.name serial)
      cases hnode : d.node? (q ++ [tempName p.name serial]) with
      | none => simp [hl, hnode] at htaken
      | some n => exact ⟨q, mem_nodes_of_node? hnode⟩
  choose! q hq using hplace
  have hnodup : ((List.range (d.nodes.length + 1)).map
      fun serial => q serial ++ [tempName p.name serial]).Nodup := by
    apply List.Nodup.map_on _ List.nodup_range
    intro serial _ serial' _ hsame
    have hlast := congrArg List.getLast? hsame
    simp only [List.getLast?_append, List.getLast?_singleton, Option.some_or] at hlast
    exact tempName_injective p.name (Option.some.inj hlast)
  have hsub : (List.range (d.nodes.length + 1)).map
      (fun serial => q serial ++ [tempName p.name serial]) ⊆ d.nodes.map (·.1) := by
    intro l hl
    obtain ⟨serial, hserial, rfl⟩ := List.mem_map.mp hl
    exact hq serial (List.mem_range.mp hserial)
  have hlength := (hnodup.subperm hsub).length_le
  simp at hlength

theorem freeSerial_spec (d : Disk) (p : FilePath) :
    d.isFree (d.tempPath p (d.freeSerial p)) = true ∧
      ∀ serial < d.freeSerial p, d.isFree (d.tempPath p serial) = false := by
  obtain ⟨serial, hserial, hfree⟩ := d.exists_free p
  unfold freeSerial
  cases hfind : (List.range (d.nodes.length + 1)).find? fun serial =>
      d.isFree (d.tempPath p serial) with
  | none =>
    rw [List.find?_eq_none] at hfind
    exact absurd hfree (hfind serial (List.mem_range.mpr hserial))
  | some first =>
    rw [List.find?_range_eq_some] at hfind
    obtain ⟨hfirst, -, hbefore⟩ := hfind
    exact ⟨hfirst, fun serial hserial => by simpa using hbefore serial hserial⟩

theorem freeSerial_congr
    (h : ∀ serial, d'.isFree (d'.tempPath p serial) = d.isFree (d.tempPath p serial)) :
    d'.freeSerial p = d.freeSerial p := by
  obtain ⟨hfree, hbefore⟩ := d.freeSerial_spec p
  obtain ⟨hfree', hbefore'⟩ := d'.freeSerial_spec p
  rcases Nat.lt_trichotomy (d'.freeSerial p) (d.freeSerial p) with hlt | heq | hlt
  · rw [h, hbefore _ hlt] at hfree'
    cases hfree'
  · exact heq
  · rw [← h, hbefore' _ hlt] at hfree
    cases hfree

end Disk

/-! ## Disks with the directory of the account -/

namespace Store

variable {s : Store} {ρ : Root} {d d' e e' : Disk} {a x : Text} {c : Catalog} {p : FilePath}
  {l : Location}

/-- The disks agree about an account, and both have its directory. -/
structure Twin (s : Store) (ρ : Root) (a : Text) (d e : Disk) : Prop extends s.Agree ρ a d e where
  valid : isAccountName a = true
  openFirst : ∃ m, d.status (s.root.child a) = .ok (.directory m)
  openSecond : ∃ m, e.status (s.root.child a) = .ok (.directory m)

namespace Twin

theorem kept (h : s.Twin ρ a d e) (x : Text) : ∀ k < (ρ.missing ++ [a, x]).length,
    d.Kept e (ρ.base ++ (ρ.missing ++ [a, x]).take (k + 1)) := by
  have hplain := isPlain_of_isAccountName h.valid
  have hgood := h.first.good_child h.valid
  obtain ⟨-, -, hway⟩ := (h.first.goes_child hplain).way_of_status hgood h.openFirst
  obtain ⟨-, -, hway'⟩ := (h.second.goes_child hplain).way_of_status hgood h.openSecond
  have hsplit : ρ.missing ++ [a, x] = (ρ.missing ++ [a]) ++ [x] := by simp
  intro k hk
  rw [hsplit] at hk ⊢
  by_cases hshort : k < (ρ.missing ++ [a]).length
  · obtain ⟨m, hm⟩ := hway k hshort
    obtain ⟨m', hm'⟩ := hway' k hshort
    rw [List.take_append_of_le_length hshort]
    exact .inr ⟨m, m', hm, hm'⟩
  · rw [List.take_of_length_le (by simp at hk hshort ⊢; omega), ← List.append_assoc]
    exact .inl (h.below [x] (by simp))

theorem locate_eq (h : s.Twin ρ a d e) (hd : d.Goes p ρ.base (ρ.missing ++ [a, x]))
    (he : e.Goes p ρ.base (ρ.missing ++ [a, x])) (follow : Bool) :
    e.locate follow p = d.locate follow p :=
  (hd.locate_congr he (by simp) (h.kept x) follow).symm

theorem find_eq (h : s.Twin ρ a d e) (hd : d.Goes p ρ.base (ρ.missing ++ [a, x]))
    (he : e.Goes p ρ.base (ρ.missing ++ [a, x])) (follow : Bool) :
    e.find follow p = d.find follow p := by
  rw [Disk.find, Disk.find, h.locate_eq hd he]

theorem place_eq (hd : d.Goes p ρ.base (ρ.missing ++ [a, x])) {follow : Bool}
    (hl : d.locate follow p = .ok l) : l = ρ.account a ++ [x] := by
  rw [hd.place (by simp) hl, Root.account]
  simp

theorem node_eq (h : s.Twin ρ a d e) (x : Text) :
    e.node? (ρ.account a ++ [x]) = d.node? (ρ.account a ++ [x]) :=
  h.below [x] (by simp)

theorem inside_eq (h : s.Twin ρ a d e) (x : Text) : s.inside a e x = s.inside a d x := by
  rw [inside, inside, Disk.absolute_home h.home]

theorem goes_inside (h : s.Twin ρ a d e) (hx : x.IsPlain) :
    d.Goes (s.inside a d x) ρ.base (ρ.missing ++ [a, x]) ∧
      e.Goes (s.inside a d x) ρ.base (ρ.missing ++ [a, x]) := by
  have hplain := isPlain_of_isAccountName h.valid
  exact ⟨h.first.goes_inside hplain hx, h.inside_eq x ▸ h.second.goes_inside hplain hx⟩

theorem goes_slot (h : s.Twin ρ a d e) (c : Catalog) :
    d.Goes (s.slot a c) ρ.base (ρ.missing ++ [a, c.fileName]) ∧
      e.Goes (s.slot a c) ρ.base (ρ.missing ++ [a, c.fileName]) := by
  have hplain := isPlain_of_isAccountName h.valid
  exact ⟨h.first.goes_slot hplain c, h.second.goes_slot hplain c⟩

theorem frame_single (hrooted : s.Rooted ρ d) (hgrounded : ρ.Grounded a d)
    (hopen : ∃ m, d.status (s.root.child a) = .ok (.directory m)) (ha : isAccountName a = true)
    (hchanges : Disk.Changes (· = ρ.account a ++ [x]) d d')
    (hold : Disk.HasFiles (· = ρ.account a ++ [x]) d)
    (hnew : Disk.HasFiles (· = ρ.account a ++ [x]) d') :
    s.Rooted ρ d' ∧ ρ.Grounded a d' ∧ d.Kept d' (ρ.account a) ∧
      ∃ m, d'.status (s.root.child a) = .ok (.directory m) := by
  have hframe := hchanges.frame hold hnew
  have hkept : d.Kept d' (ρ.account a) := hchanges.kept (by simp)
  refine ⟨hrooted.frame hframe ?_, hgrounded.stable hframe.stable hkept, hkept, ?_⟩
  · intro k hk hsame
    apply Root.not_within_way (a := a) (b := a) (Nat.le_of_lt hk)
    rw [List.take_append_of_le_length hk]
    exact ⟨x, hsame⟩
  · obtain ⟨m, hm⟩ := hopen
    exact hframe.stable.status_directory (hrooted.good_child ha) hm

theorem single (h : s.Twin ρ a d e) (hd : Disk.Changes (· = ρ.account a ++ [x]) d d')
    (he : Disk.Changes (· = ρ.account a ++ [x]) e e')
    (hnode : e'.node? (ρ.account a ++ [x]) = d'.node? (ρ.account a ++ [x]))
    (hold : Disk.HasFiles (· = ρ.account a ++ [x]) d)
    (hnew : Disk.HasFiles (· = ρ.account a ++ [x]) d') : s.Twin ρ a d' e' := by
  have hold' : Disk.HasFiles (· = ρ.account a ++ [x]) e := by
    rintro _ rfl n hn
    exact hold _ rfl n ((h.node_eq x).symm.trans hn)
  have hnew' : Disk.HasFiles (· = ρ.account a ++ [x]) e' := by
    rintro _ rfl n hn
    exact hnew _ rfl n (hnode.symm.trans hn)
  obtain ⟨hfirst, hground, hkept, hopen⟩ :=
    frame_single h.first h.groundedFirst h.openFirst h.valid hd hold hnew
  obtain ⟨hsecond, hground', hkept', hopen'⟩ :=
    frame_single h.second h.groundedSecond h.openSecond h.valid he hold' hnew'
  have hbelow : ∀ {d d' : Disk}, Disk.Changes (· = ρ.account a ++ [x]) d d' → ∀ rest, rest ≠ [] →
      rest ≠ [x] → d'.node? (ρ.account a ++ rest) = d.node? (ρ.account a ++ rest) := by
    intro d d' hchanges rest hrest hne
    apply hchanges.node_eq
    · simpa using hne
    · rintro _ rfl
      simpa using hrest
  refine ⟨⟨hfirst, hsecond, ?_, hground, hground', ?_, ?_⟩, h.valid, hopen, hopen'⟩
  · rw [he.home, hd.home]
    exact h.home
  · exact (hkept.symm.trans h.here).trans hkept'
  · intro rest hrest
    by_cases hx : rest = [x]
    · rw [hx]
      exact hnode
    · rw [hbelow hd rest hrest hx, hbelow he rest hrest hx]
      exact h.below rest hrest

end Twin

end Store

/-! ## The calls of a save on both disks -/

namespace Save

variable {s : Store} {ρ : Root} {d e : Disk} {a x : Text} {c : Catalog} {v : Save}
  {temp : FilePath} {place : Location} {stage : Stage} {now : Instant}

/-- The temporary file is in the directory of the account. -/
structure Placed (s : Store) (ρ : Root) (a : Text) (d : Disk) (temp : FilePath) (place : Location) :
    Prop where
  name : ∃ x, x.IsPlain ∧ temp = s.inside a d x ∧ place = ρ.account a ++ [x]
  file : ∃ bytes m, d.node? place = some (.file bytes m)

theorem createTemp_paired (h : s.Twin ρ a d e) (c : Catalog) (now : Instant) :
    (∃ err, d.createTemp (s.slot a c) now = .error err ∧
      e.createTemp (s.slot a c) now = .error err) ∨
    ∃ temp place d' e', d.createTemp (s.slot a c) now = .ok (temp, place, d') ∧
      e.createTemp (s.slot a c) now = .ok (temp, place, e') ∧ s.Twin ρ a d' e' ∧
      Placed s ρ a d' temp place := by
  have hsame : ∀ serial, e.tempPath (s.slot a c) serial = d.tempPath (s.slot a c) serial := by
    intro serial
    rw [s.tempPath_slot, s.tempPath_slot, h.inside_eq]
  have hfree : ∀ serial, e.isFree (e.tempPath (s.slot a c) serial) =
      d.isFree (d.tempPath (s.slot a c) serial) := by
    intro serial
    rw [hsame, s.tempPath_slot]
    obtain ⟨hd, he⟩ := h.goes_inside (Disk.isPlain_tempName c.fileName serial)
    rw [Disk.isFree, Disk.isFree, h.locate_eq hd he]
    cases hl : d.locate false (s.inside a d (Disk.tempName c.fileName serial)) with
    | error errno => rfl
    | ok l =>
      obtain rfl := Store.Twin.place_eq hd hl
      dsimp only
      rw [h.node_eq]
  have hserial : e.freeSerial (s.slot a c) = d.freeSerial (s.slot a c) :=
    Disk.freeSerial_congr hfree
  unfold Disk.createTemp
  rw [hserial, hsame, s.tempPath_slot]
  dsimp only
  generalize d.freeSerial (s.slot a c) = serial
  have hplain := Disk.isPlain_tempName c.fileName serial
  obtain ⟨hd, he⟩ := h.goes_inside hplain
  rw [h.find_eq hd he]
  cases hfind : d.find false (s.inside a d (Disk.tempName c.fileName serial)) with
  | error err => exact .inl ⟨err, rfl, rfl⟩
  | ok l =>
    obtain rfl := Store.Twin.place_eq hd (Disk.find_iff.mp hfind).2
    rw [Result.bind_ok, Result.bind_ok, h.node_eq]
    generalize hx : Disk.tempName c.fileName serial = x at *
    cases hnode : d.node? (ρ.account a ++ [x]) with
    | some n => exact .inl ⟨_, rfl, rfl⟩
    | none =>
      have hnew := Disk.node?_enter_self d (ρ.account a ++ [x]) (.file [] now) now
      have hnew' := Disk.node?_enter_self e (ρ.account a ++ [x]) (.file [] now) now
      have hchanges := Disk.changes_enter d (ρ.account a ++ [x]) (.file [] now) now
      have htwin := h.single hchanges (Disk.changes_enter e _ (.file [] now) now)
        (hnew'.trans hnew.symm) (Disk.hasFiles_free hnode) (Disk.hasFiles_single hnew)
      refine .inr ⟨_, _, _, _, rfl, rfl, htwin, ⟨x, hplain, ?_, rfl⟩, [], now, hnew⟩
      rw [Store.inside, Store.inside, Disk.absolute_home hchanges.home]

theorem put_paired (h : s.Twin ρ a d e) (hplaced : Placed s ρ a d temp place)
    (bytes : List UInt8) (m : Instant) :
    s.Twin ρ a (d.put place (.file bytes m)) (e.put place (.file bytes m)) ∧
      Placed s ρ a (d.put place (.file bytes m)) temp place := by
  obtain ⟨⟨x, hplain, rfl, rfl⟩, b, m', hfile⟩ := hplaced
  have hnew : ∀ d : Disk, (d.put (ρ.account a ++ [x]) (.file bytes m)).node? (ρ.account a ++ [x]) =
      some (.file bytes m) := by
    intro d
    rw [Disk.node?_put, if_pos rfl]
  have htwin := h.single (Disk.changes_put d _ (.file bytes m))
    (Disk.changes_put e _ (.file bytes m)) ((hnew e).trans (hnew d).symm)
    (Disk.hasFiles_single hfile) (Disk.hasFiles_single (hnew d))
  exact ⟨htwin, ⟨x, hplain, rfl, rfl⟩, bytes, m, hnew d⟩

theorem leave_paired (h : s.Twin ρ a d e) (hplaced : Placed s ρ a d temp place) (now : Instant) :
    s.Twin ρ a (d.leave place now) (e.leave place now) := by
  obtain ⟨⟨x, -, -, rfl⟩, b, m, hfile⟩ := hplaced
  have hgone := Disk.node?_leave_self d (ρ.account a ++ [x]) now
  have hgone' := Disk.node?_leave_self e (ρ.account a ++ [x]) now
  exact h.single (Disk.changes_leave d _ now) (Disk.changes_leave e _ now)
    (hgone'.trans hgone.symm) (Disk.hasFiles_single hfile) (Disk.hasFiles_free hgone)

/-- Calls that end alike: with the same error, or on disks that agree. -/
inductive Alike (s : Store) (ρ : Root) (a : Text) :
    Except FileError Disk → Except FileError Disk → Prop
  | error (err : FileError) : Alike s ρ a (.error err) (.error err)
  | ok {d e : Disk} (h : s.Twin ρ a d e) : Alike s ρ a (.ok d) (.ok e)

theorem unlink_paired (h : s.Twin ρ a d e) (hplaced : Placed s ρ a d temp place) (now : Instant) :
    Alike s ρ a (d.unlink temp now) (e.unlink temp now) := by
  have hleave := leave_paired h hplaced now
  obtain ⟨⟨x, hplain, rfl, rfl⟩, b, m, hfile⟩ := hplaced
  obtain ⟨hd, he⟩ := h.goes_inside hplain
  unfold Disk.unlink
  rw [h.find_eq hd he]
  cases hfind : d.find false (s.inside a d x) with
  | error err => exact .error err
  | ok l =>
    obtain rfl := Store.Twin.place_eq hd (Disk.find_iff.mp hfind).2
    rw [Result.bind_ok, Result.bind_ok, h.node_eq, hfile]
    exact .ok hleave

theorem hasFiles_leave {k l : Location} (h : Disk.HasFiles (· = k) d) (now : Instant) :
    Disk.HasFiles (· = k) (d.leave l now) := by
  intro j hj n hn
  by_cases hsame : j = l
  · subst hsame
    cases (Disk.node?_leave_self d j now).symm.trans hn
  · rcases (Disk.changes_leave d l now).kept hsame with hkept | ⟨m, m', hm, -⟩
    · exact h j hj n (hkept.symm.trans hn)
    · obtain ⟨bytes, m'', hfile⟩ := h j hj _ hm
      cases hfile

theorem moved_paired (h : s.Twin ρ a d e) (hplaced : Placed s ρ a d temp place)
    (htarget : Disk.HasFiles (· = ρ.account a ++ [x]) d) (bytes : List UInt8) (m now : Instant) :
    s.Twin ρ a ((d.leave place now).enter (ρ.account a ++ [x]) (.file bytes m) now)
      ((e.leave place now).enter (ρ.account a ++ [x]) (.file bytes m) now) := by
  have hnew := Disk.node?_enter_self (d.leave place now) (ρ.account a ++ [x]) (.file bytes m) now
  have hnew' := Disk.node?_enter_self (e.leave place now) (ρ.account a ++ [x]) (.file bytes m) now
  exact (leave_paired h hplaced now).single (Disk.changes_enter _ _ _ now)
    (Disk.changes_enter _ _ _ now) (hnew'.trans hnew.symm) (hasFiles_leave htarget now)
    (Disk.hasFiles_single hnew)

theorem rename_paired (h : s.Twin ρ a d e) (hplaced : Placed s ρ a d temp place) (c : Catalog)
    (now : Instant) :
    Alike s ρ a (d.rename temp (s.slot a c) now) (e.rename temp (s.slot a c) now) := by
  have hmoved := fun x htarget => moved_paired (x := x) h hplaced htarget
  obtain ⟨⟨x, hplain, rfl, rfl⟩, b, m, hfile⟩ := hplaced
  obtain ⟨hd, he⟩ := h.goes_inside hplain
  obtain ⟨hslot, hslot'⟩ := h.goes_slot c
  unfold Disk.rename
  rw [h.locate_eq hd he, h.locate_eq hslot hslot']
  cases Disk.checkPath (s.inside a d x).toText with
  | error err => exact .error err
  | ok =>
    cases Disk.checkPath (s.slot a c).toText with
    | error err => exact .error err
    | ok =>
      cases hl : d.locate false (s.inside a d x) with
      | error errno => exact .error _
      | ok l =>
        cases hm : d.locate false (s.slot a c) with
        | error errno => exact .error _
        | ok target =>
          obtain rfl := Store.Twin.place_eq hd hl
          obtain rfl := Store.Twin.place_eq hslot hm
          simp only [Result.bind_ok, h.node_eq, hfile]
          by_cases hnamed : Disk.endsInName (s.slot a c) = true
          · cases hnode : d.node? (ρ.account a ++ [c.fileName]) with
            | none =>
              simp only [hnamed]
              exact .ok (hmoved c.fileName (Disk.hasFiles_free hnode) b m now)
            | some n =>
              cases n with
              | file bytes m' =>
                simp only [hnamed]
                exact .ok (hmoved c.fileName (Disk.hasFiles_single hnode) b m now)
              | directory m' =>
                simp only [hnamed]
                exact .error _
              | link t =>
                have hlink := hslot.linkless (ρ.missing ++ [a, c.fileName]).length t
                rw [List.take_of_length_le (by simp)] at hlink
                rw [Root.account, List.append_assoc] at hnode
                exact absurd (by simpa using hnode) hlink
          · simp only [hnamed]
            exact .error _

/-! ## Whole saves -/

/-- The temporary file of a stage is in the directory of the account. -/
def Inside (s : Store) (ρ : Root) (a : Text) (d : Disk) : Stage → Prop
  | .creating | .done _ => True
  | .opening temp place | .writing temp place | .flushing temp place _ => Placed s ρ a d temp place
  | .syncing temp | .replacing temp | .discarding temp _ => ∃ place, Placed s ρ a d temp place

/-- What a call comes to on both disks. -/
structure Paired (s : Store) (ρ : Root) (a : Text) (after after' : Stage × Disk) : Prop where
  stage : after'.1 = after.1
  disks : s.Twin ρ a after.2 after'.2
  inside : Inside s ρ a after.2 after.1

theorem broken_paired (h : s.Twin ρ a d e) (hplaced : Placed s ρ a d temp place) (fault : Fault)
    (bytes : List UInt8) :
    Paired s ρ a (v.broken fault temp place bytes d) (v.broken fault temp place bytes e) := by
  obtain ⟨htwin, hplaced⟩ := put_paired h hplaced (bytes.take fault.kept) v.now
  exact ⟨rfl, htwin, place, hplaced⟩

theorem step_paired (hpath : v.path = s.slot a c) (h : s.Twin ρ a d e)
    (hin : Inside s ρ a d stage) : Paired s ρ a (v.step stage d) (v.step stage e) := by
  cases stage with
  | creating =>
    simp only [step, hpath, Faults.guard]
    cases v.faults .createTemp with
    | some fault => exact ⟨rfl, h, trivial⟩
    | none =>
      rcases createTemp_paired h c v.now with ⟨err, hd, he⟩ |
        ⟨temp, place, d', e', hd, he, htwin, hplaced⟩
      · simp only [hd, he]
        exact ⟨rfl, h, trivial⟩
      · simp only [hd, he]
        exact ⟨rfl, htwin, hplaced⟩
  | opening temp place =>
    simp only [step, Faults.guard]
    cases v.faults .openTemp with
    | some fault => exact ⟨rfl, h, place, hin⟩
    | none => exact ⟨rfl, h, hin⟩
  | writing temp place =>
    simp only [step]
    cases Utf8.encode v.text with
    | error u => exact ⟨rfl, h, place, hin⟩
    | ok bytes =>
      cases v.faults .writeTemp with
      | some fault => exact broken_paired h hin fault bytes
      | none =>
        obtain ⟨htwin, hplaced⟩ := put_paired h hin bytes v.now
        exact ⟨rfl, htwin, hplaced⟩
  | flushing temp place bytes =>
    simp only [step]
    cases v.faults .flush with
    | some fault => exact broken_paired h hin fault bytes
    | none => exact ⟨rfl, h, place, hin⟩
  | syncing temp =>
    simp only [step, Faults.guard]
    cases v.faults .sync with
    | some fault => exact ⟨rfl, h, hin⟩
    | none => exact ⟨rfl, h, hin⟩
  | replacing temp =>
    obtain ⟨place, hplaced⟩ := hin
    simp only [step, hpath, Faults.guard]
    cases v.faults .rename with
    | some fault => exact ⟨rfl, h, place, hplaced⟩
    | none =>
      have hrename := rename_paired h hplaced c v.now
      generalize d.rename temp (s.slot a c) v.now = r at hrename
      generalize e.rename temp (s.slot a c) v.now = r' at hrename
      cases hrename with
      | error err => exact ⟨rfl, h, place, hplaced⟩
      | ok htwin => exact ⟨rfl, htwin, trivial⟩
  | discarding temp err =>
    obtain ⟨place, hplaced⟩ := hin
    simp only [step, Faults.guard]
    cases v.faults .discard with
    | some fault => exact ⟨rfl, h, trivial⟩
    | none =>
      have hunlink := unlink_paired h hplaced v.now
      generalize d.unlink temp v.now = r at hunlink
      generalize e.unlink temp v.now = r' at hunlink
      cases hunlink with
      | error err => exact ⟨rfl, h, trivial⟩
      | ok htwin => exact ⟨rfl, htwin, trivial⟩
  | done r => exact ⟨rfl, h, trivial⟩

/-- **All calls.** The save ends the same way on both disks, and they agree still. -/
theorem finish_paired (hpath : v.path = s.slot a c) (stage : Stage) (d e : Disk)
    (h : s.Twin ρ a d e) (hin : Inside s ρ a d stage) :
    (v.finish stage e).2 = (v.finish stage d).2 ∧
      s.Twin ρ a (v.finish stage d).1 (v.finish stage e).1 := by
  by_cases hdone : stage.rank = 0
  · obtain ⟨r, rfl⟩ := done_of_rank hdone
    rw [finish, finish]
    exact ⟨rfl, h⟩
  · have hrank := v.rank_step stage d hdone
    obtain ⟨hstage, htwin, hinside⟩ := step_paired hpath h hin
    have ih := finish_paired hpath (v.step stage d).1 (v.step stage d).2 (v.step stage e).2 htwin
      hinside
    rw [finish_step hdone, finish_step hdone, hstage]
    exact ih
termination_by stage.rank

theorem run_paired (hpath : v.path = s.slot a c) (h : s.Twin ρ a d e) :
    (v.run e).2 = (v.run d).2 ∧ s.Twin ρ a (v.run d).1 (v.run e).1 :=
  finish_paired hpath .creating d e h trivial

end Save

namespace Store

variable {s : Store} {ρ : Root} {d e : Disk} {a b : Text} {c : Catalog} {v : Save}
  {place : Location}

/-! ## Saves of other accounts -/

namespace Rooted

theorem within_of_creates (h : s.Rooted ρ d) (hb : isAccountName b = true)
    (hpath : v.path = s.slot b c) (hcreates : v.Creates d place) : ρ.Within b place := by
  obtain ⟨temp, d', hcreated⟩ := hcreates
  obtain ⟨⟨serial, rfl⟩, hfound, -⟩ := Save.createTemp_ok (Disk.guard_ok hcreated)
  rw [hpath, s.tempPath_slot] at hfound
  have hgoes := h.goes_inside (isPlain_of_isAccountName hb)
    (Disk.isPlain_tempName c.fileName serial)
  exact ⟨_, Twin.place_eq hgoes (Disk.find_iff.mp hfound).2⟩

theorem within_of_takes (h : s.Rooted ρ d) (hb : isAccountName b = true)
    (htakes : Save.Takes d (s.slot b c) place) :
    ρ.Within b place ∧ ∀ t, d.node? place ≠ some (.link t) := by
  have hgoes := h.goes_slot (isPlain_of_isAccountName hb) c
  refine ⟨⟨_, Twin.place_eq hgoes htakes.leads⟩, ?_⟩
  intro t
  have hlink := hgoes.linkless (ρ.missing ++ [b, c.fileName]).length t
  rw [List.take_of_length_le (by simp)] at hlink
  rwa [hgoes.place (by simp) htakes.leads]

theorem run_within (h : s.Rooted ρ d) (hb : isAccountName b = true) (hpath : v.path = s.slot b c) :
    Disk.Frame (ρ.Within b) d (v.run d).1 ∧ Disk.Changes (ρ.Within b) d (v.run d).1 := by
  have hended := v.run_ended d
  generalize v.run d = ran at hended ⊢
  obtain ⟨d', r⟩ := ran
  cases hended with
  | notCreated => exact ⟨.refl _, .refl _⟩
  | @broken _ _ temp _ created free _ changes files =>
    have hplaces : ∀ l, l = temp → ρ.Within b l := by
      rintro l rfl
      exact h.within_of_creates hb hpath created
    exact ⟨(changes.frame (Disk.hasFiles_free free) files).mono hplaces, changes.mono hplaces⟩
  | @saved _ temp target _ _ created free _ takes node gone changes =>
    rw [hpath] at takes
    obtain ⟨htarget, hnolink⟩ := h.within_of_takes hb takes
    have hplaces : ∀ l, l = temp ∨ l = target → ρ.Within b l := by
      rintro l (rfl | rfl)
      · exact h.within_of_creates hb hpath created
      · exact htarget
    have htakes : Save.Takes d v.path target := hpath ▸ takes
    exact ⟨(Save.frame_of_saved free htakes hnolink node gone changes).mono hplaces,
      changes.mono hplaces⟩

theorem run_spares (h : s.Rooted ρ d) (hb : isAccountName b = true) (hne : a ≠ b)
    (hpath : v.path = s.slot b c) : s.Spares ρ a d (v.run d).1 := by
  obtain ⟨hframe, hchanges⟩ := h.run_within hb hpath
  exact .of_within h hframe hchanges hne

end Rooted

namespace Agree

/-! ## From agreement to a directory on both disks -/

theorem twin_of_make (h : s.Agree ρ a d e) (ha : isAccountName a = true) {now : Instant}
    (hok : (s.make a now d).2 = .ok ()) : s.Twin ρ a (s.make a now d).1 (s.make a now e).1 := by
  have hok' := (h.make_ok_iff ha now).mp hok
  refine ⟨h.make ha now, ha, ?_, ?_⟩
  · exact (Disk.ensureDirectories_spec (h.first.good_child ha) rfl).2.1 hok rfl
  · exact (Disk.ensureDirectories_spec (h.second.good_child ha) rfl).2.1 hok' rfl

theorem twin_of_status (h : s.Agree ρ a d e) (ha : isAccountName a = true) {n : Node}
    (hn : d.status (s.slot a c) = .ok n) : s.Twin ρ a d e := by
  have hplain := isPlain_of_isAccountName ha
  have hgood := h.first.good_child ha
  have hslot : (s.slot a c).isAddressable = true :=
    FilePath.isAddressable_child hgood c.isAddressable_fileName
  obtain ⟨l, hl, -⟩ := (Disk.status_ok_iff hslot).mp hn
  have hshort := FilePath.short_of_child (Disk.locate_ok_iff.mp hl).1
  have hgoes := h.first.goes_slot hplain c
  rw [show ρ.missing ++ [a, c.fileName] = (ρ.missing ++ [a]) ++ [c.fileName] by simp] at hgoes
  obtain ⟨hshorts, hway⟩ := hgoes.way_of_locate hl
  -- the account has its directory on the second disk too, so that is grounded
  have hall : (ρ.missing ++ [a]).take (ρ.missing.length + 1) = ρ.missing ++ [a] :=
    List.take_of_length_le (by simp)
  have hhere : ∃ m, e.node? (ρ.base ++ (ρ.missing ++ [a])) = some (.directory m) := by
    obtain ⟨m, hm⟩ := hway ρ.missing.length (by simp)
    rw [hall] at hm
    rcases h.here with hsame | ⟨_, m', -, hm'⟩
    · exact ⟨m, hsame.trans hm⟩
    · exact ⟨m', hm'⟩
  have hway' : ∀ k < (ρ.missing ++ [a]).length,
      ∃ m, e.node? (ρ.base ++ (ρ.missing ++ [a]).take (k + 1)) = some (.directory m) := by
    intro k hk
    by_cases hmissing : k < ρ.missing.length
    · rw [List.take_append_of_le_length hmissing]
      apply h.groundedSecond _ k hmissing
      obtain ⟨m, hm⟩ := hhere
      simp [Root.account, hm]
    · obtain rfl : k = ρ.missing.length := by
        simp at hk
        omega
      rwa [hall]
  refine ⟨h, ha, ?_, ?_⟩
  · exact (h.first.goes_child hplain).status_of_way hgood (by simp) hshort hshorts hway
  · exact (h.second.goes_child hplain).status_of_way hgood (by simp) hshort hshorts hway'

end Agree

theorem Twin.status_eq (h : s.Twin ρ a d e) (c : Catalog) :
    e.status (s.slot a c) = d.status (s.slot a c) := by
  obtain ⟨hd, he⟩ := h.goes_slot c
  unfold Disk.status
  rw [h.find_eq hd he]
  cases hfind : d.find true (s.slot a c) with
  | error err => rfl
  | ok l =>
    obtain rfl := Twin.place_eq hd (Disk.find_iff.mp hfind).2
    rw [Result.bind_ok, Result.bind_ok, h.node_eq]

theorem Agree.status_iff (h : s.Agree ρ a d e) (ha : isAccountName a = true) (c : Catalog)
    (n : Node) : d.status (s.slot a c) = .ok n ↔ e.status (s.slot a c) = .ok n := by
  constructor
  · intro hn
    rwa [(h.twin_of_status ha hn).status_eq]
  · intro hn
    rwa [(h.symm.twin_of_status ha hn).status_eq]

end Store

end CatalogCache
