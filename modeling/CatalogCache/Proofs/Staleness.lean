import CatalogCache.Proofs.Runs

/-!
# How old an answer may be

A cached client answers without asking if and only if the last entries that were stored for the
account are young enough, and then it answers with those.
-/

namespace CatalogCache

/-! ## What has been stored -/

/-- The catalog that an operation needs all entries of. -/
def Operation.catalog? : Operation → Option Catalog
  | request (.collection c) | find c _ => some c
  | request _ => none

theorem Operation.question_of_catalog? {o : Operation} {c : Catalog} :
    o.catalog? = some c ↔ o.question = .collection c := by
  cases o with
  | request r => cases r <;> simp [catalog?, question]
  | find c' name => simp [catalog?, question]

def TurnReport.events (report : TurnReport) : List Event :=
  report.after.trace.drop report.before.trace.length

/-- In the turn the entries of a catalog were fetched for an account, and stored. -/
def TurnReport.persisted (report : TurnReport) (account : Text) (c : Catalog) : Bool :=
  report.turn.account = account && report.turn.operation.catalog? = some c &&
    report.events.any Event.isSaved

/-- The last turn in which the entries of a catalog were stored for an account. -/
def lastPersisted (history : List TurnReport) (account : Text) (c : Catalog) : Option TurnReport :=
  (history.filter (·.persisted account c)).getLast?

theorem lastPersisted_append (history : List TurnReport) (report : TurnReport) (account : Text)
    (c : Catalog) : lastPersisted (history ++ [report]) account c =
      if report.persisted account c then some report else lastPersisted history account c := by
  rw [lastPersisted, List.filter_append]
  cases h : report.persisted account c <;> simp [lastPersisted, h]

/-- What was stored at an instant does not seem too old in the turn. It may seem to come from the
future, but not by much. -/
def Turn.FindsYoung (t : Turn) (c : Catalog) (stored : Instant) : Prop :=
  ∃ age, Duration.since? t.now stored = .ok age ∧
    -(2 * Duration.microsPerSecond) ≤ age.micros ∧ max age.micros 0 < (t.lifetimes c).micros

theorem Turn.findsYoung_iff {t : Turn} {c : Catalog} {stored : Instant} {age : Duration}
    (hage : Duration.since? t.now stored = .ok age) :
    CacheFile.isYoung age (t.lifetimes c) = true ↔ t.FindsYoung c stored := by
  rw [CacheFile.isYoung_iff]
  constructor
  · exact fun hyoung => ⟨age, hage, hyoung⟩
  · rintro ⟨age', hage', hyoung⟩
    obtain rfl := Except.ok.inj (hage.symm.trans hage')
    exact hyoung

theorem Turn.findsYoung_near {t : Turn} {c : Catalog} {stored : Instant} (hnow : t.now.IsNear)
    (hstored : stored.IsNear) : t.FindsYoung c stored ↔
      -(2 * Duration.microsPerSecond) ≤ t.now - stored ∧
        max (t.now - stored) 0 < (t.lifetimes c).micros := by
  rw [← Turn.findsYoung_iff (Duration.since?_near hnow hstored), CacheFile.isYoung_iff]

/-- The account is valid, and what a remote lists are records of the catalog. The calls to the disk
that make directories and look at files do not fail. -/
structure Turn.Sound (t : Turn) : Prop where
  account : Store.isAccountName t.account = true
  entries : ∀ (c : Catalog) history vs,
    t.remotes t.remote history (.collection c) >>= Answer.collect = .ok vs → c.Entries vs
  makeDirectory : t.faults .makeDirectory = none
  checkDirectory : t.faults .checkDirectory = none
  status : t.faults .status = none
  read : t.faults .read = none

theorem sample_sound (now : Instant) (operation : Operation) :
    (sampleTurn now operation).Sound where
  account := rfl
  entries := by
    rintro c history vs ⟨⟩
    exact sampleLists_entries c
  makeDirectory := rfl
  checkDirectory := rfl
  status := rfl
  read := rfl

/-- The entries that were fetched in a turn, as a file has them from then on. -/
structure Holds (store : Store) (l : Location) (d : Disk) (name : Text) (c : Catalog)
    (last : TurnReport) : Prop where
  valid : Store.isAccountName name = true
  file : ∃ vs packed t bytes, Cached.reply last.before last.turn.remote c = .ok vs ∧
    c.Writes vs packed t ∧ Utf8.encode t = .ok bytes ∧
    d.file? (slotAt l name c) = some (bytes, last.turn.now)
  path : d.locate true (store.slot name c) = .ok (slotAt l name c)
  directory : ∃ m, d.status (store.root.child name) = .ok (.directory m)

theorem Holds.stable {store : Store} {l : Location} {d d' : Disk} {name : Text} {c : Catalog}
    {last : TurnReport} (h : Holds store l d name c last) (hlies : store.LiesAt l d)
    (hd : Disk.Stable d d') (hfile : d'.file? (slotAt l name c) = d.file? (slotAt l name c)) :
    Holds store l d' name c last where
  valid := h.valid
  file := hfile ▸ h.file
  path := Disk.locate_stable hd h.path
  directory := by
    obtain ⟨m, hm⟩ := h.directory
    exact hd.status_directory
      (FilePath.isAddressable_child hlies.root (Store.isAddressable_of_isAccountName h.valid)) hm

/-- The store at `l` has what was stored last in a history, for every catalog and account. -/
structure Remembers (store : Store) (l : Location) (history : List TurnReport) (d : Disk) :
    Prop where
  lies : store.LiesAt l d
  never : ∀ name c, lastPersisted history name c = none → d.file? (slotAt l name c) = none
  last : ∀ name c last, lastPersisted history name c = some last → Holds store l d name c last

/-! ## What a call asks for -/

namespace Cached

variable {s : Cached} {name : Text} {c : Catalog} {w after : World} {remote : Text}
  {vs : List Value}

theorem Keeps.trace {f : CacheFile} {r : Except Failure Unit} (h : Keeps c f vs w r after) :
    ∃ events, after.trace = w.trace ++ events := by
  cases h with
  | unpacked => exact ⟨[], (List.append_nil _).symm⟩
  | unwritten lines | tooDeep lines | broken lines | unencodable lines => exact ⟨_, rfl⟩
  | saved lines => exact ⟨_, List.append_assoc ..⟩

theorem Collects.asks {result : Except Failure Answer}
    (h : s.Collects name c remote w result after) :
    ∃ f? d events, s.Entered name c w f? d ∧ after.trace = w.trace ++ events ∧
      ((∀ remote' q, .asked remote' q ∉ events) ↔ s.looked c (w.on d) f? ≠ .ok none) ∧
      ∀ items, s.looked c (w.on d) f? = .ok (some items) →
        result = .ok (.value (.list (items.map Stored.toAnswered))) := by
  have hlog : ∀ (lines : List LogLine) remote' q, .asked remote' q ∉ lines.map Event.log := by
    intro lines remote' q hmem
    obtain ⟨line, -, ⟨⟩⟩ := List.mem_map.mp hmem
  cases h with
  | hit lines entered found =>
    refine ⟨_, _, _, entered, rfl, iff_of_true (hlog lines) (found ▸ nofun), ?_⟩
    intro items hitems
    obtain rfl := Option.some.inj (Except.ok.inj (found.symm.trans hitems))
    rfl
  | unread lines entered failed =>
    refine ⟨_, _, _, entered, rfl, iff_of_true (hlog lines) (failed ▸ nofun), ?_⟩
    exact fun items hitems => absurd (failed.symm.trans hitems) nofun
  | unanswered lines entered missed =>
    refine ⟨_, _, _, entered, List.append_assoc .., iff_of_false ?_ (· missed), ?_⟩
    · exact fun hno => hno remote (.collection c) (by simp)
    · exact fun items hitems => absurd (missed.symm.trans hitems) nofun
  | unkept lines entered =>
    refine ⟨_, _, _, entered, List.append_assoc .., iff_of_false ?_ (· rfl), nofun⟩
    exact fun hno => hno remote (.collection c) (by simp)
  | kept lines entered missed fetched keeps =>
    obtain ⟨events, htrace⟩ := keeps.trace
    refine ⟨_, _, lines.map .log ++ (.asked remote (.collection c) :: events), entered, ?_,
      iff_of_false ?_ (· missed), ?_⟩
    · simp [htrace, World.record, World.logged, World.on]
    · exact fun hno => hno remote (.collection c) (by simp)
    · exact fun items hitems => absurd (missed.symm.trans hitems) nofun

end Cached

/-! ## One turn -/

section

variable {store : Store} {l : Location} {history : List TurnReport} {w : World} {t : Turn}
  {c : Catalog}

theorem Remembers.of_isEmpty {d : Disk} (h : store.IsEmpty l d) : Remembers store l [] d :=
  ⟨h.liesAt, fun name c _ => h.file?_slotAt name c, fun _ _ _ hlast => nomatch hlast⟩

theorem Remembers.of (h : Remembers store l history w.disk) (hsound : t.Sound) :
    (t.cached store).Of t.account (t.enter w).disk :=
  ⟨rfl, hsound.account, h.lies.root, h.lies.home⟩

theorem TurnReport.events_eq {report : TurnReport} {events : List Event}
    (htrace : report.after.trace = report.before.trace ++ events) : report.events = events := by
  rw [TurnReport.events, htrace, List.drop_left]

theorem Remembers.same (h : Remembers store l history w.disk) {report : TurnReport}
    (hunsaved : report.events.any Event.isSaved = false)
    (hstable : Disk.Stable w.disk report.after.disk)
    (hfiles : ∀ name c,
      report.after.disk.file? (slotAt l name c) = w.disk.file? (slotAt l name c)) :
    Remembers store l (history ++ [report]) report.after.disk := by
  have hlast : ∀ name c, lastPersisted (history ++ [report]) name c =
      lastPersisted history name c := by
    intro name c
    rw [lastPersisted_append, TurnReport.persisted, hunsaved, Bool.and_false]
    rfl
  refine ⟨h.lies.stable hstable, ?_, ?_⟩
  · intro name c hnone
    rw [hlast] at hnone
    exact (hfiles name c).trans (h.never name c hnone)
  · intro name c last hsome
    rw [hlast] at hsome
    exact (h.last name c last hsome).stable h.lies hstable (hfiles name c)

theorem Remembers.stored (h : Remembers store l history w.disk) {report : TurnReport}
    (hsaved : report.events.any Event.isSaved = true)
    (hcatalog : report.turn.operation.catalog? = some c)
    (hstable : Disk.Stable w.disk report.after.disk)
    (hfiles : ∀ name c', slotAt l name c' ≠ slotAt l report.turn.account c →
      report.after.disk.file? (slotAt l name c') = w.disk.file? (slotAt l name c'))
    (hholds : Holds store l report.after.disk report.turn.account c report) :
    Remembers store l (history ++ [report]) report.after.disk := by
  have hlast : ∀ name c', lastPersisted (history ++ [report]) name c' =
      if report.turn.account = name ∧ c = c' then some report
      else lastPersisted history name c' := by
    intro name c'
    rw [lastPersisted_append, TurnReport.persisted, hsaved, hcatalog]
    simp
  have hother : ∀ {name c'}, ¬(report.turn.account = name ∧ c = c') →
      report.after.disk.file? (slotAt l name c') = w.disk.file? (slotAt l name c') := by
    intro name c' hne
    refine hfiles name c' fun hslot => hne ?_
    obtain ⟨rfl, rfl⟩ := slotAt_injective hslot
    exact ⟨rfl, rfl⟩
  refine ⟨h.lies.stable hstable, ?_, ?_⟩
  · intro name c' hnone
    rw [hlast] at hnone
    split_ifs at hnone with hne
    exact (hother hne).trans (h.never name c' hnone)
  · intro name c' last hsome
    rw [hlast] at hsome
    split_ifs at hsome with hne
    · obtain ⟨rfl, rfl⟩ := hne
      obtain rfl := Option.some.inj hsome
      exact hholds
    · exact (h.last name c' last hsome).stable h.lies hstable (hother hne)

/-- **One turn.** What was stored last is remembered after it. -/
theorem Remembers.play (h : Remembers store l history w.disk) (hsound : t.Sound) :
    Remembers store l (history ++ [t.play (t.client store) w])
      (t.play (t.client store) w).after.disk := by
  obtain ⟨events, stored?, hleaves, hstored⟩ := Cached.answer_leaves t.remote (h.of hsound) h.lies
    (fun c vs hvs => hsound.entries c _ vs hvs) t.operation.question
  replace hleaves : Leaves (t.cached store) t.account l (t.enter w)
      (t.play (t.client store) w).after events stored? := by
    rw [t.after_play]
    exact hleaves
  cases hleaves with
  | same stable trace unsaved files =>
    rw [← TurnReport.events_eq trace] at unsaved
    exact h.same unsaved stable files
  | stored stable trace saved writes encoded file files path directory =>
    obtain ⟨hquestion, hreply⟩ := hstored _ rfl
    rw [← TurnReport.events_eq trace] at saved
    refine h.stored saved (Operation.question_of_catalog?.mpr hquestion) stable files ?_
    exact ⟨hsound.account, ⟨_, _, _, _, hreply, writes, encoded, file⟩, path,
      directory hsound.checkDirectory⟩

theorem Remembers.looked_never (h : Remembers store l history w.disk) (hsound : t.Sound)
    (hnever : lastPersisted history t.account c = none)
    (htimely : (t.cached store).AtFile c (t.enter w) CacheFile.Timely) {f? : Option CacheFile}
    {d : Disk} (hentered : (t.cached store).Entered t.account c (t.enter w) f? d) :
    (t.cached store).looked c ((t.enter w).on d) f? = .ok none := by
  have hgood := (h.of hsound).slot_good c
  rcases hentered.file with rfl | ⟨rfl, -⟩
  · rfl
  refine CacheFile.look_of_no_file hgood ?_ ?_
  · exact (hentered.atFile_iff fun _ _ _ => .rfl).mp htimely _ rfl
  · intro bytes m hstatus
    obtain ⟨r, hr, hnode⟩ := (Disk.status_ok_iff hgood).mp hstatus
    obtain ⟨rfl, -⟩ := h.lies.place hentered.frame.stable hsound.account hr
    have hnone := (hentered.frame.file?_eq id).trans (h.never t.account c hnever)
    exact absurd (hnone.symm.trans (Disk.file?_eq_some_iff.mpr hnode)) nofun

theorem Holds.looked {last : TurnReport} (h : Holds store l w.disk t.account c last)
    (hof : (t.cached store).Of t.account (t.enter w).disk) (hsound : t.Sound)
    (htimely : (t.cached store).AtFile c (t.enter w) CacheFile.Timely) {f? : Option CacheFile}
    {d : Disk} (hentered : (t.cached store).Entered t.account c (t.enter w) f? d) :
    ∃ vs packed, Cached.reply last.before last.turn.remote c = .ok vs ∧
      List.Forall₂ (Stored.Packed c.stored) vs packed ∧
      (t.FindsYoung c last.turn.now →
        (t.cached store).looked c ((t.enter w).on d) f? = .ok (some packed)) ∧
      (¬t.FindsYoung c last.turn.now →
        (t.cached store).looked c ((t.enter w).on d) f? = .ok none) := by
  obtain ⟨-, ⟨vs, packed, text, bytes, hreply, hwrites, hencode, hfile⟩, hpath, m, hthere⟩ := h
  have hexec := Cached.exec_file?_there hof hsound.makeDirectory hsound.checkDirectory hthere c
  obtain ⟨lines, hends⟩ := hentered.ends
  -- the directory is there, so the file is asked for on the disk as it was
  obtain ⟨hf, hworld⟩ := Prod.mk.inj (hends.symm.trans hexec)
  obtain rfl := Except.ok.inj hf
  obtain rfl : d = (t.enter w).disk := congrArg World.disk hworld
  have hstatus : (t.enter w).disk.status ((t.cached store).slot t.account c).path =
      .ok (.file bytes last.turn.now) :=
    (Disk.status_ok_iff (hof.slot_good c)).mpr ⟨_, hpath, Disk.file?_eq_some_iff.mp hfile⟩
  have hguard : (t.enter w).faults.guard .status ((t.enter w).disk.status
      ((t.cached store).slot t.account c).path) = .ok (.file bytes last.turn.now) := by
    rw [Faults.guard, show (t.enter w).faults .status = none from hsound.status]
    exact hstatus
  obtain ⟨age, hage⟩ := htimely _ _ hexec _ hguard
  have hyoung := Turn.findsYoung_iff (c := c) hage
  refine ⟨vs, packed, hreply, hwrites.records, fun hfinds => ?_, fun hfinds => ?_⟩
  · exact CacheFile.look_of_young hsound.status hsound.read hstatus hage (hyoung.mpr hfinds)
      (hwrites.decode hencode _)
  · exact CacheFile.look_of_old hsound.status hstatus hage
      (Bool.eq_false_iff.mpr fun h => hfinds (hyoung.mp h))

/-- **One call.** It asks unless what was stored last is young, and then it gives that. -/
theorem Remembers.asks (h : Remembers store l history w.disk) (hsound : t.Sound)
    (htimely : (t.play (t.client store) w).Timely store) (hc : t.operation.catalog? = some c) :
    ((∀ remote q, .asked remote q ∉ (t.play (t.client store) w).events) ↔
      ∃ last, lastPersisted history t.account c = some last ∧ t.FindsYoung c last.turn.now) ∧
    ∀ last, lastPersisted history t.account c = some last → t.FindsYoung c last.turn.now →
      ∃ vs, Cached.reply last.before last.turn.remote c = .ok vs ∧
        (t.play (t.client store) w).result = t.operation.finish (.ok (.value (.list vs))) := by
  obtain ⟨f?, d, events, hentered, htrace, hasks, hgives⟩ :=
    (Cached.exec_collection (h.of hsound) c t.remote).asks
  have hquestion := Operation.question_of_catalog?.mp hc
  have hcall : (t.client store).answer (.collection c) =
      (t.cached store).collection c (Action.ask t.remote (.collection c)) := rfl
  have hafter := t.after_play (t.client store) w
  have hresult := t.result_play (t.client store) w
  rw [hquestion, hcall] at hafter hresult
  have hevents : (t.play (t.client store) w).events = events := by
    rw [TurnReport.events, hafter, htrace]
    exact List.drop_left
  rw [hevents, hasks, hresult]
  cases hlast : lastPersisted history t.account c with
  | none =>
    have hlooked := h.looked_never hsound hlast (htimely c) hentered
    exact ⟨iff_of_false (· hlooked) (by simp), fun last hsome => absurd hsome (by simp)⟩
  | some last =>
    obtain ⟨vs, packed, hreply, hpacked, hfound, hmissed⟩ :=
      (h.last t.account c last hlast).looked (h.of hsound) hsound (htimely c) hentered
    by_cases hyoung : t.FindsYoung c last.turn.now
    · refine ⟨iff_of_true ?_ ⟨last, rfl, hyoung⟩, ?_⟩
      · rw [hfound hyoung]
        simp
      · rintro _ ⟨⟩ -
        exact ⟨vs, hreply, by rw [hgives packed (hfound hyoung), Stored.answers_of_packed hpacked]⟩
    · refine ⟨iff_of_false (· (hmissed hyoung)) ?_, ?_⟩
      · rintro ⟨_, ⟨⟩, hfinds⟩
        exact hyoung hfinds
      · rintro _ ⟨⟩ hfinds
        exact absurd hfinds hyoung

theorem asks_iff {turns : List Turn} (hempty : store.IsEmpty l w.disk)
    (hsound : ∀ t ∈ turns, t.Sound) {earlier later : List TurnReport} {report : TurnReport}
    (hrun : reports (Turn.client store) w turns = earlier ++ report :: later)
    (htimely : report.Timely store) (hc : report.turn.operation.catalog? = some c) :
    ((∀ remote q, .asked remote q ∉ report.events) ↔
      ∃ last, lastPersisted earlier report.turn.account c = some last ∧
        report.turn.FindsYoung c last.turn.now) ∧
    ∀ last, lastPersisted earlier report.turn.account c = some last →
      report.turn.FindsYoung c last.turn.now →
        ∃ vs, Cached.reply last.before last.turn.remote c = .ok vs ∧
          report.result = report.turn.operation.finish (.ok (.value (.list vs))) := by
  obtain ⟨w', t, hremembers, ht, rfl⟩ := invariant_reports
    (fun history w => Remembers store l history w.disk)
    (fun history w t hinv ht => hinv.play ht) (.of_isEmpty hempty) hsound hrun
  exact hremembers.asks ht htimely hc

/-- **Staleness.** From an empty store on, in every run, a call for all entries of a catalog asks no
remote if and only if the entries that were stored last for the account seem young. It gives what
was fetched then. Near the epoch they seem as young as they are. -/
theorem asks_no_remote_iff {turns : List Turn} (hempty : store.IsEmpty l w.disk)
    (hsound : ∀ t ∈ turns, t.Sound) {earlier later : List TurnReport} {report : TurnReport}
    (hrun : reports (Turn.client store) w turns = earlier ++ report :: later)
    (htimely : report.Timely store) (hc : report.turn.operation.catalog? = some c) :
    ((∀ remote q, .asked remote q ∉ report.events) ↔
      ∃ last, lastPersisted earlier report.turn.account c = some last ∧
        report.turn.FindsYoung c last.turn.now) ∧
    (∀ last, lastPersisted earlier report.turn.account c = some last →
      report.turn.FindsYoung c last.turn.now →
        ∃ vs, Cached.reply last.before last.turn.remote c = .ok vs ∧
          report.result = report.turn.operation.finish (.ok (.value (.list vs)))) ∧
    ∀ last, lastPersisted earlier report.turn.account c = some last →
      report.turn.now.IsNear → last.turn.now.IsNear →
        ((∀ remote q, .asked remote q ∉ report.events) ↔
          -(2 * Duration.microsPerSecond) ≤ report.turn.now - last.turn.now ∧
            max (report.turn.now - last.turn.now) 0 < (report.turn.lifetimes c).micros) := by
  obtain ⟨hasks, hgives⟩ := asks_iff hempty hsound hrun htimely hc
  refine ⟨hasks, hgives, fun last hlast hnow hstored => ?_⟩
  rw [hasks, ← Turn.findsYoung_near hnow hstored]
  constructor
  · rintro ⟨last', hlast', hyoung⟩
    obtain rfl := Option.some.inj (hlast.symm.trans hlast')
    exact hyoung
  · exact fun hyoung => ⟨last, hlast, hyoung⟩

end

theorem lastPersisted_firstReport :
    lastPersisted [firstReport] "ana" .resolutions = some firstReport := by
  have hpersisted : firstReport.persisted "ana" .resolutions = true := by cbv
  simp [lastPersisted, hpersisted]

theorem secondReport_asks_nobody :
    (∀ remote q, .asked remote q ∉ secondReport.events) ∧
      ∃ vs, Cached.reply firstReport.before "jira" .resolutions = .ok vs ∧
        secondReport.result =
          (Operation.find .resolutions (.text "Done")).finish (.ok (.value (.list vs))) := by
  have hsound : ∀ t ∈ [firstTurn, secondTurn], t.Sound := by
    simp only [List.forall_mem_cons]
    exact ⟨sample_sound _ _, sample_sound _ _, nofun⟩
  have hrun : reports (Turn.client Cached.sampleStore) (Cached.sampleWorld sampleLists)
      [firstTurn, secondTurn] = [firstReport] ++ secondReport :: [] := reports_sample
  obtain ⟨-, hgives, hnear⟩ := asks_no_remote_iff (c := .resolutions) sampleStore_isEmpty hsound
    hrun timely_secondReport rfl
  refine ⟨(hnear firstReport lastPersisted_firstReport (by decide) (by decide)).mpr (by decide), ?_⟩
  exact hgives firstReport lastPersisted_firstReport
    ((Turn.findsYoung_near (by decide) (by decide)).mpr (by decide))

/-- A turn so far from the first one that the seconds of its clock come in steps of more than ten
milliseconds. The entries are asked for two milliseconds after the end of a second, and they live
for one millisecond more than that. -/
def farTurn : Turn :=
  { sampleTurn (2 ^ 46 * 1000000 + 2000) (.request (.collection .resolutions)) with
    lifetimes := fun _ => ⟨2 ^ 46 * 1000000 + 1000⟩ }

def farReport : TurnReport := farTurn.play (farTurn.client Cached.sampleStore) firstReport.after

theorem since?_farTurn : Duration.since? farTurn.now 0 = .ok ⟨2 ^ 46 * 1000000⟩ := by
  decide +kernel

theorem reports_far : reports (Turn.client Cached.sampleStore) (Cached.sampleWorld sampleLists)
    [firstTurn, farTurn] = [firstReport, farReport] := rfl

theorem sound_far : ∀ t ∈ [firstTurn, farTurn], t.Sound := by
  have hfar := sample_sound farTurn.now farTurn.operation
  simp only [List.forall_mem_cons]
  exact ⟨sample_sound _ _, ⟨hfar.account, hfar.entries, rfl, rfl, rfl, rfl⟩, nofun⟩

theorem timely_farReport : farReport.Timely Cached.sampleStore :=
  timely_of_firstReport ⟨2 ^ 46 * 1000000 + 1000⟩ rfl rfl rfl ⟨_, since?_farTurn⟩

/-- The far turn asks nobody, although the entries are older than they may be. -/
theorem farReport_asks_nobody :
    Cached.sampleStore.IsEmpty ["store"] (Cached.sampleWorld sampleLists).disk ∧
    (∀ t ∈ [firstTurn, farTurn], t.Sound) ∧
    reports (Turn.client Cached.sampleStore) (Cached.sampleWorld sampleLists)
      [firstTurn, farTurn] = [firstReport, farReport] ∧
    firstReport.Timely Cached.sampleStore ∧ farReport.Timely Cached.sampleStore ∧
    farTurn.operation.catalog? = some .resolutions ∧
    lastPersisted [firstReport] "ana" .resolutions = some firstReport ∧
    (∀ remote q, .asked remote q ∉ farReport.events) ∧
    (farTurn.lifetimes .resolutions).micros < farTurn.now - firstTurn.now := by
  have hrun : reports (Turn.client Cached.sampleStore) (Cached.sampleWorld sampleLists)
      [firstTurn, farTurn] = [firstReport] ++ farReport :: [] := reports_far
  have hyoung : farTurn.FindsYoung .resolutions firstReport.turn.now :=
    ⟨_, since?_farTurn, by decide, by decide⟩
  obtain ⟨hasks, -⟩ :=
    asks_iff (c := .resolutions) sampleStore_isEmpty sound_far hrun timely_farReport rfl
  exact ⟨sampleStore_isEmpty, sound_far, reports_far, timely_firstReport, timely_farReport, rfl,
    lastPersisted_firstReport, hasks.mpr ⟨firstReport, lastPersisted_firstReport, hyoung⟩,
    by decide⟩

end CatalogCache
