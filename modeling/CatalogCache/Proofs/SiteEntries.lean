import CatalogCache.Proofs.Atomicity
import CatalogCache.Proofs.BuiltRecords
import CatalogCache.Proofs.Contents
import CatalogCache.Proofs.SiteCalls
import CatalogCache.Proofs.Staleness

/-!
# Lists of a site, served again

A list that was fetched from a site and stored is served from the file from then on, if and only if
the site had texts where members are taken as they are. If it had not, the file is discarded and the
site is asked again.
-/

namespace CatalogCache

/-! ## What a site is asked -/

namespace Site

/-- The list that a site answers with to a request for a catalog. -/
def listing (site : Site) (c : Catalog) (w : World) : Reply := do
  let j ← w.server w.sent (.text (site.url (catalogPath c))) >>= accept
  .value <$> records (catalogPath c) (Payload.build c.entryClass) none j

def asking (site : Site) (c : Catalog) : List Event :=
  [.log ⟨.debug, .site, List.flatten ["GET ", (Value.text (site.url (catalogPath c))).display]⟩,
    .sent (.text (site.url (catalogPath c))) .null]

theorem exec_collection (site : Site) (c : Catalog) (w : World) :
    ((Client.site site).answer (.collection c)).exec w =
      (site.listing c w, { w with trace := w.trace ++ site.asking c }) := by
  rw [exec_answer]
  refine Prod.ext ?_ rfl
  rw [listing, address]
  dsimp only
  cases w.server w.sent (.text (site.url (catalogPath c))) >>= accept <;> rfl

theorem listing_logged (site : Site) (c : Catalog) (w : World) (d : Disk) (lines : List LogLine) :
    site.listing c ((w.on d).logged lines) = site.listing c w := by
  unfold listing
  rw [World.sent_logged]
  rfl

theorem isSaved_asking (site : Site) (c : Catalog) : (site.asking c).any Event.isSaved = false := by
  simp [asking, Event.isSaved]

end Site

namespace Cached

variable {s : Cached} {name : Text} {c : Catalog} {w after : World} {vs packed : List Value}
  {site : Site} {t : Text} {d : Disk}

/-! ## The call that stores the list -/

/-- A call has fetched entries and stored them. -/
structure Stores (s : Cached) (name : Text) (c : Catalog) (w after : World) (vs packed : List Value)
    (t : Text) (d : Disk) : Prop where
  entered : s.Entered name c w (some (s.slot name c)) d
  packs : vs.mapM (Stored.ofAnswered c.stored) = .ok packed
  encodes : (s.slot name c).encode (.list packed) = .ok t
  ended : Save.Ended ⟨(s.slot name c).path, t, w.faults, w.now⟩ d (.ok ()) after.disk
  now : after.now = w.now
  faults : after.faults = w.faults

theorem any_drop {events : List Event} (h : after.trace = w.trace ++ events) (p : Event → Bool) :
    (after.trace.drop w.trace.length).any p = events.any p := by
  rw [h, List.drop_left]

theorem Keeps.saved_of_any {f : CacheFile} {r : Except Failure Unit} (h : Keeps c f vs w r after)
    (hsaved : (after.trace.drop w.trace.length).any Event.isSaved = true) :
    ∃ packed t d lines, vs.mapM (Stored.ofAnswered c.stored) = .ok packed ∧
      f.encode (.list packed) = .ok t ∧ Save.run ⟨f.path, t, w.faults, w.now⟩ w.disk = (d, .ok ()) ∧
      after = ((w.on d).logged lines).record (.saved f.path) := by
  have hlogs : ∀ (lines : List LogLine) (after : World), after.trace = w.trace ++ lines.map .log →
      (after.trace.drop w.trace.length).any Event.isSaved ≠ true := by
    intro lines after htrace
    rw [any_drop htrace, isSaved_logs]
    exact nofun
  cases h with
  | unpacked => exact absurd hsaved (hlogs [] _ (List.append_nil _).symm)
  | unwritten lines | tooDeep lines | broken lines | unencodable lines =>
    exact absurd hsaved (hlogs lines _ rfl)
  | saved lines packs encodes outcome ran => exact ⟨_, _, _, lines, packs, encodes, ran, rfl⟩

theorem fetched_trace (h : s.Of name w.disk) {f? : Option CacheFile}
    (hfile : f? = none ∨ f? = some (s.slot name c)) (site : Site) :
    ∃ events, ((s.fetched c f? ((Client.site site).answer (.collection c))).exec w).2.trace =
      w.trace ++ (site.asking c ++ events) := by
  rw [exec_fetched s c f? (site.exec_collection c w)]
  cases site.listing c w >>= Answer.collect with
  | error e => exact ⟨[], by rw [List.append_nil]⟩
  | ok vs =>
    rcases hfile with rfl | rfl
    · exact ⟨[], by rw [List.append_nil]⟩
    · have hof : s.Of name ({ w with trace := w.trace ++ site.asking c } : World).disk := h
      obtain ⟨events, htrace⟩ := (exec_keep hof c vs).trace
      exact ⟨events, by rw [← List.append_assoc]; exact htrace⟩

theorem stores_of_fetched (h : s.Of name w.disk) {f? : Option CacheFile}
    (hfile : f? = none ∨ f? = some (s.slot name c))
    (hexec : (s.fetched c f? ((Client.site site).answer (.collection c))).exec w =
      (.ok (.value (.list vs)), after))
    (hsaved : (after.trace.drop w.trace.length).any Event.isSaved = true) :
    f? = some (s.slot name c) ∧ site.listing c w >>= Answer.collect = .ok vs ∧
      ∃ packed t, vs.mapM (Stored.ofAnswered c.stored) = .ok packed ∧
        (s.slot name c).encode (.list packed) = .ok t ∧
        Save.Ended ⟨(s.slot name c).path, t, w.faults, w.now⟩ w.disk (.ok ()) after.disk ∧
        after.now = w.now ∧ after.faults = w.faults := by
  rw [exec_fetched s c f? (site.exec_collection c w)] at hexec
  cases hlisting : site.listing c w >>= Answer.collect with
  | error e =>
    rw [hlisting] at hexec
    cases hexec
  | ok vs' =>
    rw [hlisting] at hexec
    dsimp only at hexec
    rcases hfile with rfl | rfl
    · cases hexec
      rw [any_drop rfl, site.isSaved_asking] at hsaved
      cases hsaved
    · dsimp only at hexec
      generalize hw' : ({ w with trace := w.trace ++ site.asking c } : World) = w' at hexec
      have hof : s.Of name w'.disk := hw' ▸ h
      have hkeeps := exec_keep hof c vs'
      generalize (s.keep c (s.slot name c) vs').exec w' = kept at hexec hkeeps
      obtain ⟨r, after'⟩ := kept
      cases r with
      | error e => cases hexec
      | ok =>
        obtain ⟨hvs, hafter⟩ := Prod.mk.inj hexec
        dsimp only at hafter hkeeps
        rw [hafter] at hkeeps
        obtain rfl : vs = vs' := by cases hvs; rfl
        obtain ⟨events, htrace⟩ := hkeeps.trace
        have hall : after.trace = w.trace ++ (site.asking c ++ events) := by
          rw [htrace, ← hw', List.append_assoc]
        rw [any_drop hall, List.any_append, site.isSaved_asking, Bool.false_or,
          ← any_drop htrace] at hsaved
        obtain ⟨packed, t, d, lines, hpacks, hencodes, hran, rfl⟩ := hkeeps.saved_of_any hsaved
        subst hw'
        have hended := Save.run_ended ⟨(s.slot name c).path, t, w.faults, w.now⟩ w.disk
        have hran' : Save.run ⟨(s.slot name c).path, t, w.faults, w.now⟩ w.disk =
            (d, .ok ()) := hran
        rw [hran'] at hended
        exact ⟨rfl, rfl, packed, t, hpacks, hencodes, hended, rfl, rfl⟩

theorem stores_of_call (h : s.Of name w.disk)
    (hcall : ((Client.cached s (.site site)).answer (.collection c)).exec w =
      (.ok (.value (.list vs)), after))
    (hsaved : (after.trace.drop w.trace.length).any Event.isSaved = true) :
    site.listing c w >>= Answer.collect = .ok vs ∧
      ∃ packed t d, s.Stores name c w after vs packed t d := by
  obtain ⟨f?, d, hentered⟩ := entered_file? h c
  obtain ⟨lines, hexec⟩ :=
    exec_collection_eq hentered.ends ((Client.site site).answer (.collection c))
  have hcall' : (s.collection c ((Client.site site).answer (.collection c))).exec w =
      (.ok (.value (.list vs)), after) := hcall
  rw [hcall'] at hexec
  cases hlooked : s.looked c (w.on d) f? with
  | error e =>
    rw [hlooked] at hexec
    cases hexec
  | ok items? =>
    rw [hlooked] at hexec
    cases items? with
    | some items =>
      cases hexec
      rw [any_drop rfl, isSaved_logs] at hsaved
      cases hsaved
    | none =>
      dsimp only at hexec
      have hfile : f? = none ∨ f? = some (s.slot name c) := hentered.file.imp id And.left
      have hof : s.Of name ((w.on d).logged lines).disk := h.frame hentered.frame
      obtain ⟨events, htrace⟩ := fetched_trace hof hfile site
      rw [← hexec] at htrace
      have hall : after.trace = w.trace ++ (lines.map Event.log ++ (site.asking c ++ events)) := by
        rw [← List.append_assoc]
        exact htrace
      rw [any_drop hall, List.any_append, isSaved_logs, Bool.false_or, ← any_drop htrace] at hsaved
      obtain ⟨rfl, hlisting, packed, t, hpacks, hencodes, hended, hnow, hfaults⟩ :=
        stores_of_fetched hof hfile hexec.symm hsaved
      rw [site.listing_logged] at hlisting
      exact ⟨hlisting, packed, t, d, hentered, hpacks, hencodes, hended, hnow, hfaults⟩

/-! ## A call that finds the list -/

theorem exec_isFresh_young {f : CacheFile} {lifetime age : Duration}
    (hage : f.ageIn w = .ok (some age)) (hyoung : CacheFile.isYoung age lifetime = true) :
    (f.isFresh lifetime).exec w = (.ok true, w) := by
  have hbound : ¬age.micros < -CacheFile.tolerance.micros := by
    rw [CacheFile.isYoung, Bool.and_eq_true, decide_eq_true_iff] at hyoung
    omega
  unfold CacheFile.isFresh
  rw [Action.exec_bind_ok (Action.exec_get w), hage]
  dsimp only
  rw [if_neg hbound, hyoung]
  rfl

theorem exec_read (f : CacheFile) (w : World) : f.read.exec w = (f.readIn w,
    w.logged [⟨.debug, .cacheFile, List.flatten ["Reading cache ", f.path.toText]⟩]) := by
  unfold CacheFile.read
  rw [Action.exec_bind_ok (Action.exec_log ..), Action.exec_bind_ok (Action.exec_get _),
    Action.exec_ofExcept]
  rfl

/-- The lines that a call leaves in the log if it finds the list. -/
def hitLines (s : Cached) (c : Catalog) (f : CacheFile) : List LogLine :=
  [⟨.debug, .cacheFile, List.flatten ["Reading cache ", f.path.toText]⟩,
    ⟨.debug, .cachedClient, List.flatten ["Cache hit for ", c.label, " (", s.who, ")"]⟩]

theorem exec_collection_hit {f : CacheFile} {age : Duration} {items : List Value}
    (hfile : (s.file? c).exec w = (.ok (some f), w)) (hage : f.ageIn w = .ok (some age))
    (hyoung : CacheFile.isYoung age (s.lifetimes c) = true)
    (hread : f.readIn w = .ok (.list items)) (fetch : Action Answer) :
    (s.collection c fetch).exec w =
      (.ok (.value (.list (items.map Stored.toAnswered))), w.logged (s.hitLines c f)) := by
  have hfresh : (s.fresh? c (some f)).exec w = (.ok (some items),
      w.logged [⟨.debug, .cacheFile, List.flatten ["Reading cache ", f.path.toText]⟩]) := by
    unfold fresh?
    dsimp only
    rw [Action.exec_bind_ok (exec_isFresh_young hage hyoung), if_pos rfl,
      Action.exec_bind_ok (Action.exec_attempt f.read w), exec_read, hread]
    rfl
  unfold collection
  rw [Action.exec_bind_ok hfile, Action.exec_bind_ok hfresh]
  dsimp only
  rw [Action.exec_bind_ok (Action.exec_log ..), World.logged_logged]
  rfl

/-! ## The same call again -/

end Cached

/-- No request goes out, and nothing is warned of. -/
def Event.isQuiet : Event → Bool
  | log line => line.level ≠ .warning
  | saved _ => true
  | asked .. | sent .. => false

/-- A request for a catalog is answered with values that equal the given ones, and quietly. -/
structure AnsweredAgain (client : Client) (c : Catalog) (w : World) (vs : List Value) : Prop where
  answer : ∃ again, ((client.answer (.collection c)).exec w).1 = .ok (.value (.list again)) ∧
    (Value.list again).equal (.list vs) = true
  quiet : ∃ events, ((client.answer (.collection c)).exec w).2.trace = w.trace ++ events ∧
    events.all Event.isQuiet = true

namespace Cached

variable {s : Cached} {name : Text} {c : Catalog} {w after : World} {vs packed : List Value}
  {site : Site} {t : Text} {d : Disk}

theorem Stores.of (h : s.Of name w.disk) (hstores : s.Stores name c w after vs packed t d) :
    s.Of name after.disk where
  account := h.account
  valid := h.valid
  root := h.root
  home := by
    rw [Disk.hasGoodHome, hstores.ended.home, hstores.entered.frame.home]
    exact h.home

theorem Stores.answered (h : s.Of name w.disk) (hfaults : w.faults = Faults.none)
    (hlifetime : 0 < (s.lifetimes c).micros) (hstores : s.Stores name c w after vs packed t d)
    (hthere : ∃ n, after.disk.status (s.slot name c).path = .ok n) (hentries : c.Entries vs) :
    AnsweredAgain (.cached s (.site site)) c after vs := by
  obtain ⟨hwrites, -⟩ := hentries.writes hstores.packs hstores.encodes
  have hnone : ∀ call, after.faults call = none := by
    rw [hstores.faults, hfaults]
    exact fun _ => rfl
  have habove : ∃ m, d.status (s.directory name) = .ok (.directory m) := by
    rcases hstores.entered.file with hno | ⟨-, hthere⟩
    · cases hno
    · exact hthere (by rw [hfaults]; rfl)
  obtain ⟨bytes, hbytes, hfile, m, hdirectory⟩ := hstores.ended.found_again c.isPlain_fileName rfl
    h.directory_good (h.slot_good c) habove hthere
  have hage : (s.slot name c).ageIn after = .ok (some .zero) := by
    have hsince : Duration.since? after.now w.now = .ok .zero := by
      rw [hstores.now, Duration.since?_self]
    simp [CacheFile.ageIn, Faults.guard, hnone, hfile, Node.modified, hsince]
  have hyoung : CacheFile.isYoung .zero (s.lifetimes c) = true := by
    simp [CacheFile.isYoung, Duration.zero, CacheFile.tolerance, hlifetime]
  have hread : (s.slot name c).readIn after = .ok (.list packed) := by
    have hcontent : after.disk.read (s.slot name c).path = .ok bytes := by simp [Disk.read, hfile]
    have hdecode : (s.slot name c).decode bytes = .ok (.list packed) := hwrites.decode hbytes _
    simp [CacheFile.readIn, Faults.guard, hnone, hcontent, hdecode]
  have hfile := exec_file?_there (hstores.of h) (hnone _) (hnone _) hdirectory c
  have hexec := exec_collection_hit hfile hage hyoung hread
    ((Client.site site).answer (.collection c))
  have hself : (Value.list vs).equal (.list vs) = true := by
    rw [Value.equal]
    exact Value.equalItems_self fun v hv => c.equal_self_of_entry (hentries v hv)
  constructor
  · refine ⟨vs, ?_, hself⟩
    show ((s.collection c _).exec after).1 = _
    rw [hexec, Stored.answers_of_packed hwrites.records]
  · refine ⟨(s.hitLines c (s.slot name c)).map .log, ?_, rfl⟩
    show ((s.collection c _).exec after).2.trace = _
    rw [hexec]
    rfl

theorem entries_of_answered (h : s.Of name w.disk)
    (hagain : AnsweredAgain (.cached s (.site site)) c w vs) :
    ∃ again, c.Entries again ∧ (Value.list again).equal (.list vs) = true := by
  obtain ⟨again, hanswer, hequal⟩ := hagain.answer
  obtain ⟨events, htrace, hquiet⟩ := hagain.quiet
  obtain ⟨f?, d, hentered⟩ := entered_file? h c
  obtain ⟨lines, hexec⟩ :=
    exec_collection_eq hentered.ends ((Client.site site).answer (.collection c))
  have hcall : (Client.cached s (.site site)).answer (.collection c) =
      s.collection c ((Client.site site).answer (.collection c)) := rfl
  rw [hcall, hexec] at hanswer htrace
  cases hlooked : s.looked c (w.on d) f? with
  | error e =>
    rw [hlooked] at hanswer
    cases hanswer
  | ok items? =>
    rw [hlooked] at hanswer htrace
    cases items? with
    | some items =>
      obtain rfl : items.map Stored.toAnswered = again := by cases hanswer; rfl
      refine ⟨_, ?_, hequal⟩
      rcases hentered.file with rfl | ⟨rfl, -⟩
      · cases hlooked
      obtain ⟨bytes, m, age, -, -, -, hdecode⟩ := CacheFile.young_of_look hlooked
      have hdecodes := (s.slot name c).decodes bytes
      rw [hdecode] at hdecodes
      cases hdecodes with
      | value hinhabits =>
        cases hinhabits with
        | list hitems =>
          intro v hv
          obtain ⟨item, hitem, rfl⟩ := List.mem_map.mp hv
          exact Stored.inhabits_toAnswered c (hitems item hitem)
    | none =>
      dsimp only at htrace
      have hof : s.Of name ((w.on d).logged lines).disk := h.frame hentered.frame
      obtain ⟨more, hmore⟩ := fetched_trace hof (hentered.file.imp id And.left) site
      have hall : w.trace ++ events =
          w.trace ++ (lines.map Event.log ++ (site.asking c ++ more)) := by
        rw [← htrace, hmore]
        exact List.append_assoc ..
      have hsent := List.append_cancel_left hall
      rw [hsent, List.all_append, List.all_append] at hquiet
      simp [Site.asking, Event.isQuiet] at hquiet

theorem built_of_listing {body url : Text} {items : List Json}
    (hserver : w.server w.sent (.text (site.url (Site.catalogPath c))) = .ok ⟨200, body, url⟩)
    (hbody : Json.read body = .ok (.list items))
    (hlisting : site.listing c w >>= Answer.collect = .ok vs) :
    List.Forall₂ (fun j v => Payload.build c.entryClass j = .ok v) (items.filter Site.isObject)
      vs := by
  have haccept : Site.accept ⟨200, body, url⟩ = .ok (.list items) := by
    simp [Site.accept, Site.isError, Site.document, hbody]
  rw [Site.listing, hserver, Result.bind_ok, haccept, Result.bind_ok] at hlisting
  simp only [Site.records, Site.unwrap] at hlisting
  rw [← Result.mapM_eq_ok_iff]
  cases hbuilt : (items.filter Site.isObject).mapM (Payload.build c.entryClass) with
  | error e =>
    rw [hbuilt] at hlisting
    cases hlisting
  | ok built =>
    rw [hbuilt] at hlisting
    cases hlisting
    rfl

theorem object_of_mem {items : List Json} {j : Json} (hj : j ∈ items.filter Site.isObject) :
    j ∈ items ∧ ∃ members, j = .object members := by
  rw [List.mem_filter] at hj
  refine ⟨hj.1, ?_⟩
  cases j with
  | object members => exact ⟨members, rfl⟩
  | _ => exact absurd hj.2 nofun

theorem entries_of_texts {items : List Json} (htexts : ∀ item ∈ items, c.hasTexts item = true)
    (hbuilt : List.Forall₂ (fun j v => Payload.build c.entryClass j = .ok v)
      (items.filter Site.isObject) vs) : c.Entries vs := by
  have hobjects : ∀ j ∈ items.filter Site.isObject,
      c.hasTexts j = true ∧ ∃ members, j = .object members := by
    intro j hj
    obtain ⟨hmem, hobject⟩ := object_of_mem hj
    exact ⟨htexts j hmem, hobject⟩
  generalize items.filter Site.isObject = objects at hbuilt hobjects
  induction hbuilt with
  | nil => exact nofun
  | cons hbuild _ ih =>
    rw [List.forall_mem_cons] at hobjects
    obtain ⟨⟨hj, members, rfl⟩, hrest⟩ := hobjects
    exact List.forall_mem_cons.mpr ⟨c.entries_of_hasTexts hbuild hj, ih hrest⟩

theorem texts_of_entries {items : List Json} {again : List Value} (hentries : c.Entries again)
    (hequal : (Value.list again).equal (.list vs) = true)
    (hbuilt : List.Forall₂ (fun j v => Payload.build c.entryClass j = .ok v)
      (items.filter Site.isObject) vs) : ∀ item ∈ items, c.hasTexts item = true := by
  have hpairs : List.Forall₂ (fun v' v => v'.equal v = true) again vs := by
    rw [Value.equal] at hequal
    exact Value.forall₂_of_equalItems hequal
  have hobjects : ∀ j ∈ items.filter Site.isObject, c.hasTexts j = true := by
    have hall : ∀ j ∈ items.filter Site.isObject, ∃ members, j = .object members :=
      fun j hj => (object_of_mem hj).2
    generalize items.filter Site.isObject = objects at hbuilt hall
    clear hequal
    induction hbuilt generalizing again with
    | nil => exact List.forall_mem_nil _
    | cons hbuild _ ih =>
      cases hpairs with
      | cons hpair hpairs =>
        rw [Catalog.Entries, List.forall_mem_cons] at hentries
        rw [List.forall_mem_cons] at hall ⊢
        obtain ⟨⟨members, rfl⟩, hrest⟩ := hall
        exact ⟨c.hasTexts_of_equal hbuild hentries.1 hpair, ih hentries.2 hpairs hrest⟩
  intro item hitem
  by_cases hobject : Site.isObject item = true
  · exact hobjects item (List.mem_filter.mpr ⟨hitem, hobject⟩)
  · cases item with
    | object members => exact absurd rfl hobject
    | _ => rfl

/-- **Served again.** A list that was fetched from a site and stored is served again without a
request, if and only if the objects in it have texts where members are taken as they are. -/
theorem answered_again_iff (h : s.Of name w.disk) (hfaults : w.faults = Faults.none)
    (hlifetime : 0 < (s.lifetimes c).micros) {body url : Text} {items : List Json}
    (hserver : w.server w.sent (.text (site.url (Site.catalogPath c))) = .ok ⟨200, body, url⟩)
    (hbody : Json.read body = .ok (.list items))
    (hcall : ((Client.cached s (.site site)).answer (.collection c)).exec w =
      (.ok (.value (.list vs)), after))
    (hsaved : (after.trace.drop w.trace.length).any Event.isSaved = true)
    (hthere : ∃ n, after.disk.status (s.slot name c).path = .ok n) :
    AnsweredAgain (.cached s (.site site)) c after vs ↔
      ∀ item ∈ items, c.hasTexts item = true := by
  obtain ⟨hlisting, packed, t, d, hstores⟩ := stores_of_call h hcall hsaved
  have hbuilt := built_of_listing hserver hbody hlisting
  constructor
  · intro hagain
    obtain ⟨again, hentries, hequal⟩ := entries_of_answered (hstores.of h) hagain
    exact texts_of_entries hentries hequal hbuilt
  · intro htexts
    exact hstores.answered h hfaults hlifetime hthere (entries_of_texts htexts hbuilt)

/-! ## A resolution with a number for a name -/

def sampleSite : Site := ⟨"https://jira.example.com", [], []⟩

def sampleBody : Text := "[\x7b\"self\": \"/1\", \"id\": \"1\", \"name\": 5\x7d]"

def sampleNumbered : Value := .record .resolution [.text "/1", .int 1, .int 5, .null]

/-- A site that lists the resolution, whatever it is asked. -/
def sampleListing : World where
  __ := sampleWorld fun _ => []
  server := fun _ _ => .ok ⟨200, sampleBody, []⟩

theorem sampleBody_read : Json.read sampleBody =
    .ok (.list [.object [("self", .text "/1"), ("id", .text "1"), ("name", .int 5)]]) := by
  cbv

def sampleFetch : Except Failure Answer × World :=
  ((Client.cached (sample (.days 1)) (.site sampleSite)).answer (.collection .resolutions)).exec
    sampleListing

theorem sampleFetch_result : sampleFetch.1 = .ok (.value (.list [sampleNumbered])) := by
  cbv

theorem sampleFetch_saved :
    (sampleFetch.2.trace.drop sampleListing.trace.length).any Event.isSaved = true := by
  cbv

theorem sampleFetch_there :
    (sampleFetch.2.disk.status ((sample (.days 1)).slot "ana" .resolutions).path).isOk = true := by
  cbv

theorem numbered_not_served : sampleFetch.1 = .ok (.value (.list [sampleNumbered])) ∧
    ¬AnsweredAgain (.cached (sample (.days 1)) (.site sampleSite)) .resolutions sampleFetch.2
      [sampleNumbered] := by
  refine ⟨sampleFetch_result, fun hagain => ?_⟩
  have hcall : ((Client.cached (sample (.days 1)) (.site sampleSite)).answer
      (.collection .resolutions)).exec sampleListing =
        (.ok (.value (.list [sampleNumbered])), sampleFetch.2) :=
    Prod.ext sampleFetch_result rfl
  have hthere : ∃ n, sampleFetch.2.disk.status ((sample (.days 1)).slot "ana" .resolutions).path =
      .ok n := by
    have hok := sampleFetch_there
    cases hstatus : sampleFetch.2.disk.status ((sample (.days 1)).slot "ana" .resolutions).path with
    | ok n => exact ⟨n, rfl⟩
    | error e =>
      rw [hstatus] at hok
      cases hok
  have hof : (sample (.days 1)).Of "ana" sampleListing.disk := ⟨rfl, rfl, rfl, rfl⟩
  have htexts := (answered_again_iff hof rfl (by decide) rfl
    sampleBody_read hcall sampleFetch_saved hthere).mp hagain
  exact absurd (htexts _ (List.mem_singleton_self _)) (by decide)

end Cached

end CatalogCache
