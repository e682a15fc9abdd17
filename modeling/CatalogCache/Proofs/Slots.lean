import CatalogCache.Proofs.CachedCalls

/-!
# Where catalogs are kept

In a store that is empty at first, every catalog of every account has a place of its own. Calls make
directories and temporary files, but none of them ever leads a catalog to another place.
-/

namespace CatalogCache

/-! ## Files by place -/

namespace Disk

variable {d d' : Disk} {l : Location} {places : Location → Prop}

/-- The content of a file, and when it was written. -/
def file? (d : Disk) (l : Location) : Option (List UInt8 × Instant) :=
  match d.node? l with
  | some (.file bytes m) => some (bytes, m)
  | _ => none

theorem file?_eq_some_iff {bytes : List UInt8} {m : Instant} :
    d.file? l = some (bytes, m) ↔ d.node? l = some (.file bytes m) := by
  unfold file?
  split
  · next h => simp [h]
  · next hno =>
    constructor
    · exact nofun
    · intro h
      exact absurd h (hno _ _)

theorem Frame.file?_eq (h : Frame places d d') (hl : ¬places l) : d'.file? l = d.file? l := by
  have hfile := h.file l hl
  cases hnew : d'.file? l with
  | some found =>
    obtain ⟨bytes, m⟩ := found
    exact (file?_eq_some_iff.mpr ((hfile bytes m).mp (file?_eq_some_iff.mp hnew))).symm
  | none =>
    cases hold : d.file? l with
    | none => rfl
    | some found =>
      obtain ⟨bytes, m⟩ := found
      rw [file?_eq_some_iff.mpr ((hfile bytes m).mpr (file?_eq_some_iff.mp hold))] at hnew
      cases hnew

theorem Kept.file?_eq (h : d.Kept d' l) : d'.file? l = d.file? l := by
  rcases h with hsame | ⟨m, m', hm, hm'⟩
  · rw [file?, file?, hsame]
  · rw [file?, file?, hm, hm']

theorem Stable.status_directory (h : Stable d d') {p : FilePath} (hp : p.isAddressable = true)
    {m : Instant} (hstatus : d.status p = .ok (.directory m)) :
    ∃ m', d'.status p = .ok (.directory m') := by
  obtain ⟨l, hl, hnode⟩ := (status_ok_iff hp).mp hstatus
  obtain ⟨m', hnode'⟩ := h.directory l m hnode
  exact ⟨m', (status_ok_iff hp).mpr ⟨l, locate_stable h hl, hnode'⟩⟩

end Disk

/-! ## The places of catalogs -/

/-- The place of a catalog of an account, in a store whose root is at `l`. -/
def slotAt (l : Location) (name : Text) (c : Catalog) : Location := l ++ [name, c.fileName]

theorem slotAt_injective {l : Location} {name name' : Text} {c c' : Catalog}
    (h : slotAt l name c = slotAt l name' c') : name = name' ∧ c = c' := by
  have hlast := List.append_cancel_left h
  simp only [List.cons.injEq, and_true] at hlast
  exact ⟨hlast.1, Catalog.fileName_injective hlast.2⟩

theorem slotAt_ne_temp (l q : Location) (name base : Text) (c : Catalog) (serial : Nat) :
    slotAt l name c ≠ q ++ [Disk.tempName base serial] := by
  intro h
  have hlast := congrArg List.getLast? h
  rw [slotAt, List.getLast?_append, List.getLast?_append] at hlast
  have hname : c.fileName = Disk.tempName base serial := by simpa using hlast
  have hhead := congrArg List.head? hname
  rw [Disk.head?_tempName] at hhead
  cases c <;> exact absurd hhead (by decide)

namespace Store

variable {s : Store} {l : Location} {d d' : Disk}

def slot (s : Store) (name : Text) (c : Catalog) : FilePath := (s.root.child name).child c.fileName

/-- The root of a store is at `l`: now and however the disk grows, the path of a catalog leads
nowhere but to the place of the catalog. -/
structure LiesAt (s : Store) (l : Location) (d : Disk) : Prop where
  root : s.root.isAddressable = true
  home : d.hasGoodHome = true
  place : ∀ {d' follow name c r}, Disk.Stable d d' → isAccountName name = true →
    d'.locate follow (s.slot name c) = .ok r →
      r = slotAt l name c ∧ ∀ t, d'.node? r ≠ some (.link t)

theorem LiesAt.stable (h : s.LiesAt l d) (hd : Disk.Stable d d') : s.LiesAt l d' where
  root := h.root
  home := by rw [Disk.hasGoodHome, hd.home]; exact h.home
  place := fun hd' => h.place (hd.trans hd')

/-- The root of a store is at `l`, and it is empty: a directory without entries, or nothing at all
in a directory that is there. -/
structure IsEmpty (s : Store) (l : Location) (d : Disk) : Prop where
  root : s.root.isAddressable = true
  home : d.hasGoodHome = true
  leads : ∃ found missing base m, s.root.parts = found ++ missing ∧ l = base ++ missing ∧
    Leads d true Walk.maxLinks (d.start s.root) found base ∧
    d.node? base = some (.directory m) ∧ (∀ part ∈ missing, part.IsPlain) ∧
    ∀ k n, d.node? k = some n → base ++ missing.take 1 <+: k → missing = [] ∧ k = base

theorem node?_of_isEmpty {base missing : Location} (parts : List Text) (hparts : parts ≠ [])
    (hbelow : ∀ k n, d.node? k = some n → base ++ missing.take 1 <+: k → missing = [] ∧ k = base)
    (k : Nat) : d.node? (base ++ (missing ++ parts).take (k + 1)) = none := by
  cases hnode : d.node? (base ++ (missing ++ parts).take (k + 1)) with
  | none => rfl
  | some n =>
    have hprefix : base ++ missing.take 1 <+: base ++ (missing ++ parts).take (k + 1) := by
      rw [List.prefix_append_right_inj]
      cases missing <;> simp
    obtain ⟨rfl, hbase⟩ := hbelow _ n hnode hprefix
    rw [List.append_right_eq_self, List.nil_append, List.take_eq_nil_iff] at hbase
    exact absurd hbase (by simp [hparts])

theorem IsEmpty.liesAt (h : s.IsEmpty l d) : s.LiesAt l d where
  root := h.root
  home := h.home
  place := by
    intro d' follow name c r hd hname hr
    obtain ⟨found, missing, base, m, hparts, rfl, hfound, hbase, hplain, hbelow⟩ := h.leads
    have hnolink : ∀ k t, d'.node? (base ++ (missing ++ [name, c.fileName]).take (k + 1)) ≠
        some (.link t) := by
      intro k t hnode
      have hnone := node?_of_isEmpty [name, c.fileName] (by simp) hbelow k
      exact absurd (((hd.link _ t).mp hnode).symm.trans hnone) nofun
    have hslot : (s.slot name c).parts = found ++ (missing ++ [name, c.fileName]) := by
      simp [slot, FilePath.child, hparts]
    have hstart : d'.start (s.slot name c) = d.start s.root := by
      simp only [Disk.start, hd.home]
      rfl
    have hall := (Disk.locate_ok_iff.mp hr).2
    rw [hslot, hstart] at hall
    obtain ⟨m', hbase'⟩ := hd.directory base m hbase
    obtain ⟨links, hgoes⟩ := Leads.from_directory follow (hfound.stable hd) hbase'
    have hnames : ∀ part ∈ missing ++ [name, c.fileName], part.IsPlain := by
      simp only [List.mem_append, List.mem_cons, List.not_mem_nil, or_false]
      rintro part (hpart | rfl | rfl)
      · exact hplain part hpart
      · exact isPlain_of_isAccountName hname
      · exact c.isPlain_fileName
    have hr' : r = base ++ (missing ++ [name, c.fileName]) :=
      (hgoes (by simp) hall).of_plain hnames hnolink
    refine ⟨by rw [hr', slotAt, List.append_assoc], fun t => ?_⟩
    have hlast := hnolink (missing ++ [name, c.fileName]).length t
    rwa [List.take_of_length_le (Nat.le_succ _), ← hr'] at hlast

theorem IsEmpty.file?_slotAt (h : s.IsEmpty l d) (name : Text) (c : Catalog) :
    d.file? (slotAt l name c) = none := by
  obtain ⟨found, missing, base, m, hparts, rfl, hfound, hbase, hplain, hbelow⟩ := h.leads
  have hnone := node?_of_isEmpty [name, c.fileName] (by simp) hbelow
    (missing ++ [name, c.fileName]).length
  rw [List.take_of_length_le (Nat.le_succ _)] at hnone
  rw [Disk.file?, slotAt, List.append_assoc, hnone]

end Store

/-! ## What calls do to their files -/

def Event.isSaved : Event → Bool
  | saved _ => true
  | _ => false

/-- What a call leaves behind in a store at `l`: some events, and either the files of all catalogs
as they were or one of them with new entries. -/
inductive Leaves (s : Cached) (name : Text) (l : Location) (w after : World) (events : List Event) :
    Option (Catalog × List Value) → Prop
  | same (stable : Disk.Stable w.disk after.disk) (trace : after.trace = w.trace ++ events)
    (unsaved : events.any Event.isSaved = false)
    (files : ∀ k c', after.disk.file? (slotAt l k c') = w.disk.file? (slotAt l k c')) :
    Leaves s name l w after events none
  | stored {c : Catalog} {vs packed : List Value} {t : Text} {bytes : List UInt8}
    (stable : Disk.Stable w.disk after.disk) (trace : after.trace = w.trace ++ events)
    (saved : events.any Event.isSaved = true) (writes : c.Writes vs packed t)
    (encoded : Utf8.encode t = .ok bytes)
    (file : after.disk.file? (slotAt l name c) = some (bytes, w.now))
    (files : ∀ k c', slotAt l k c' ≠ slotAt l name c →
      after.disk.file? (slotAt l k c') = w.disk.file? (slotAt l k c'))
    (path : after.disk.locate true (s.store.slot name c) = .ok (slotAt l name c))
    (directory : w.faults .checkDirectory = none →
      ∃ m, after.disk.status (s.directory name) = .ok (.directory m)) :
    Leaves s name l w after events (some (c, vs))

namespace Cached

variable {s : Cached} {name : Text} {l : Location} {c : Catalog} {vs : List Value}
  {w after : World} {r : Except Failure Unit} {events : List Event}

theorem isSaved_logs (lines : List LogLine) : (lines.map Event.log).any Event.isSaved = false := by
  simp [Event.isSaved]

theorem leaves_after {w' : World} {first events : List Event}
    {stored? : Option (Catalog × List Value)} (h : Leaves s name l w' after events stored?)
    (hframe : Disk.Frame Disk.Nowhere w.disk w'.disk) (htrace : w'.trace = w.trace ++ first)
    (hunsaved : first.any Event.isSaved = false) (hnow : w'.now = w.now)
    (hfaults : w'.faults = w.faults) :
    Leaves s name l w after (first ++ events) stored? := by
  have hfile : ∀ k c', w'.disk.file? (slotAt l k c') = w.disk.file? (slotAt l k c') :=
    fun k c' => hframe.file?_eq id
  cases h with
  | same stable trace unsaved files =>
    refine .same (hframe.stable.trans stable) ?_ ?_ fun k c' => (files k c').trans (hfile k c')
    · rw [trace, htrace, List.append_assoc]
    · rw [List.any_append, hunsaved, unsaved, Bool.or_self]
  | stored stable trace saved writes encoded file files path directory =>
    refine .stored (hframe.stable.trans stable) ?_ ?_ writes encoded (hnow ▸ file)
      (fun k c' hne => (files k c' hne).trans (hfile k c')) path (hfaults ▸ directory)
    · rw [trace, htrace, List.append_assoc]
    · rw [List.any_append, saved, Bool.or_true]

theorem files_of_temp {d d' : Disk} {place : Location} {base : Text}
    (hnamed : ∃ q serial, place = q ++ [Disk.tempName base serial])
    (hframe : Disk.Frame (· = place) d d') (k : Text) (c' : Catalog) :
    d'.file? (slotAt l k c') = d.file? (slotAt l k c') := by
  obtain ⟨q, serial, rfl⟩ := hnamed
  exact hframe.file?_eq (slotAt_ne_temp l q k base c' serial)

theorem leaves_of_saved (hname : Store.isAccountName name = true)
    (hlies : s.store.LiesAt l w.disk)
    (hdirectory : w.faults .checkDirectory = none →
      ∃ m, w.disk.status (s.directory name) = .ok (.directory m))
    {packed : List Value} {t : Text} {d : Disk} (hwrites : c.Writes vs packed t)
    (houtcome : Save.Outcome ⟨(s.slot name c).path, t, w.faults, w.now⟩ w.disk (.ok ()) d)
    (lines : List LogLine) :
    Leaves s name l w (((w.on d).logged lines).record (.saved (s.slot name c).path))
      (lines.map .log ++ [.saved (s.slot name c).path]) (some (c, vs)) := by
  cases houtcome with
  | @saved _ place target bytes hbytes hnamed hnode hframe =>
    have hnolink : Save.NoLink ⟨(s.slot name c).path, t, w.faults, w.now⟩ w.disk :=
      fun d hd k target hk => (hlies.place hd hname hk).2 target
    obtain ⟨hlocate, hframe⟩ := hframe hnolink
    obtain ⟨rfl, hplain⟩ := hlies.place hframe.stable hname hlocate
    refine .stored hframe.stable (List.append_assoc ..) (by simp [Event.isSaved]) hwrites hbytes
      (Disk.file?_eq_some_iff.mpr hnode) ?_ ?_ ?_
    · rintro k c' hne
      obtain ⟨q, serial, rfl⟩ := hnamed
      refine hframe.file?_eq ?_
      rintro (htemp | htarget)
      · exact slotAt_ne_temp l q k _ c' serial htemp
      · exact hne htarget
    · rw [Disk.locate_ok_iff] at hlocate ⊢
      exact ⟨hlocate.1, hlocate.2.follows hplain⟩
    · intro hcheck
      obtain ⟨m, hm⟩ := hdirectory hcheck
      exact hframe.stable.status_directory
        (FilePath.isAddressable_child hlies.root (Store.isAddressable_of_isAccountName hname)) hm

theorem Keeps.leaves (hname : Store.isAccountName name = true) (hlies : s.store.LiesAt l w.disk)
    (hdirectory : w.faults .checkDirectory = none →
      ∃ m, w.disk.status (s.directory name) = .ok (.directory m))
    (hentries : c.Entries vs) (hkeeps : Keeps c (s.slot name c) vs w r after) :
    ∃ events stored?, Leaves s name l w after events stored? ∧
      ∀ stored ∈ stored?, stored = (c, vs) := by
  have hlogged : ∀ {d} (lines : List LogLine), Disk.Stable w.disk d →
      (∀ k c', d.file? (slotAt l k c') = w.disk.file? (slotAt l k c')) →
      ∃ events stored?, Leaves s name l w ((w.on d).logged lines) events stored? ∧
        ∀ stored ∈ stored?, stored = (c, vs) :=
    fun lines hstable hfiles => ⟨_, none, .same hstable rfl (isSaved_logs lines) hfiles, nofun⟩
  cases hkeeps with
  | unpacked => exact ⟨[], none, .same (.refl _) (by simp) rfl (fun _ _ => rfl), nofun⟩
  | unwritten lines | tooDeep lines => exact hlogged lines (.refl _) fun _ _ => rfl
  | broken lines packs encodes outcome =>
    cases outcome with
    | notCreated => exact hlogged lines (.refl _) fun _ _ => rfl
    | broken _ _ hnamed hframe => exact hlogged lines hframe.stable (files_of_temp hnamed hframe)
  | unencodable lines packs encodes outcome =>
    cases outcome with
    | broken _ _ hnamed hframe => exact hlogged lines hframe.stable (files_of_temp hnamed hframe)
  | saved lines packs encodes outcome =>
    obtain ⟨hwrites, -⟩ := hentries.writes packs encodes
    exact ⟨_, _, leaves_of_saved hname hlies hdirectory hwrites outcome lines,
      fun _ h => (Option.some.inj h).symm⟩

theorem Entered.leaves {f? : Option CacheFile} {d : Disk} (h : s.Entered name c w f? d)
    (lines : List LogLine) : Leaves s name l w ((w.on d).logged lines) (lines.map .log) none :=
  .same h.frame.stable rfl (isSaved_logs lines) fun _ _ => h.frame.file?_eq id

theorem Entered.leaves_asked {f? : Option CacheFile} {d : Disk} (h : s.Entered name c w f? d)
    (lines : List LogLine) (remote : Text) (q : Request) :
    Leaves s name l w (((w.on d).logged lines).record (.asked remote q))
      (lines.map .log ++ [.asked remote q]) none :=
  .same h.frame.stable (List.append_assoc ..) (by simp [Event.isSaved])
    fun _ _ => h.frame.file?_eq id

theorem Collects.leaves {remote : Text} {result : Except Failure Answer} (h : s.Of name w.disk)
    (hlies : s.store.LiesAt l w.disk)
    (hentries : ∀ vs, reply w remote c = .ok vs → c.Entries vs)
    (hcall : s.Collects name c remote w result after) :
    ∃ events stored?, Leaves s name l w after events stored? ∧
      ∀ stored ∈ stored?, stored.1 = c ∧ reply w remote c = .ok stored.2 := by
  cases hcall with
  | hit lines entered => exact ⟨_, none, entered.leaves lines, nofun⟩
  | unread lines entered => exact ⟨_, none, entered.leaves lines, nofun⟩
  | unanswered lines entered => exact ⟨_, none, entered.leaves_asked lines _ _, nofun⟩
  | unkept lines entered => exact ⟨_, none, entered.leaves_asked lines _ _, nofun⟩
  | @kept d vs r after lines entered missed fetched keeps =>
    have hdirectory : w.faults .checkDirectory = none →
        ∃ m, d.status (s.directory name) = .ok (.directory m) := by
      rcases entered.file with hnone | ⟨-, hthere⟩
      · cases hnone
      · exact hthere
    obtain ⟨events, stored?, hleaves, hstored⟩ := keeps.leaves h.valid
      (hlies.stable entered.frame.stable) hdirectory (hentries vs fetched)
    refine ⟨lines.map .log ++ [.asked remote (.collection c)] ++ events, stored?, ?_, ?_⟩
    · have hunsaved : (lines.map Event.log ++ [Event.asked remote (.collection c)]).any
          Event.isSaved = false := by simp [Event.isSaved]
      exact leaves_after hleaves entered.frame (List.append_assoc ..) hunsaved rfl rfl
    · rintro stored hmem
      obtain rfl := hstored stored hmem
      exact ⟨rfl, fetched⟩

theorem Picks.leaves {remote : Text} {uri : Value} {result : Except Failure Answer}
    (hcall : s.Picks name c uri remote w result after) :
    ∃ events, Leaves s name l w after events none := by
  cases hcall with
  | hit lines entered => exact ⟨_, entered.leaves lines⟩
  | unread lines entered => exact ⟨_, entered.leaves lines⟩
  | asked lines entered => exact ⟨_, entered.leaves_asked lines _ _⟩

/-- **Effects.** Whatever a cached client is asked, it stores at most the entries of the catalog
that it was asked for, as they were fetched. -/
theorem answer_leaves (remote : Text) (h : s.Of name w.disk) (hlies : s.store.LiesAt l w.disk)
    (hentries : ∀ c vs, reply w remote c = .ok vs → c.Entries vs) (r : Request) :
    ∃ events stored?, Leaves s name l w
        (((Client.cached s (.remote remote)).answer r).exec w).2 events stored? ∧
      ∀ stored ∈ stored?, r = .collection stored.1 ∧ reply w remote stored.1 = .ok stored.2 := by
  have hask : ∀ q, Leaves s name l w ((Action.ask remote q).exec w).2 [.asked remote q] none := by
    intro q
    rw [Action.exec_ask]
    exact .same (.refl _) rfl rfl fun _ _ => rfl
  cases r with
  | collection c =>
    obtain ⟨events, stored?, hleaves, hstored⟩ :=
      (exec_collection h c remote).leaves h hlies (hentries c)
    refine ⟨events, stored?, hleaves, fun stored hmem => ?_⟩
    obtain ⟨rfl, hreply⟩ := hstored stored hmem
    exact ⟨rfl, hreply⟩
  | item c uri =>
    obtain ⟨events, hleaves⟩ := (exec_item h c uri remote).leaves (l := l)
    exact ⟨events, none, hleaves, nofun⟩
  | linkTypes | fields | serverInfo => exact ⟨_, none, hask _, nofun⟩

end Cached

end CatalogCache
