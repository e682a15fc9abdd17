import CatalogCache.Proofs.Runs

/-!
# A cached client is its remote

Over a remote that never changes its mind, nobody can tell a cached client from the remote: not by
any sequence of questions, at any time, whatever calls to the disk fail.
-/

namespace CatalogCache

/-- A remote that always answers with the same entries. -/
structure Steady (answers : Request → Reply) (lists : Catalog → List Value) : Prop where
  collection : ∀ c, answers (.collection c) = .ok (.value (.list (lists c)))
  item : ∀ c uri, ∃ e, answers (.item c uri) =
    match (lists c).find? (Cached.hasAddress uri) with
    | some v => .ok (.value v)
    | none => .error e
  entries : ∀ c : Catalog, c.Entries (lists c)
  plain : ∀ c, ¬(Value.list (lists c)).HasSurrogate

theorem sampleAnswers_steady : Steady (Cached.sampleAnswers sampleLists) sampleLists where
  collection := fun _ => rfl
  item := by
    intro c uri
    refine ⟨.notFound [], ?_⟩
    cases hfind : (sampleLists c).find? (Cached.hasAddress uri) <;>
      simp [Cached.sampleAnswers, hfind]
  entries := sampleLists_entries
  plain := by
    rintro c ⟨t, ht, x, hx, hsurrogate⟩
    have hall : (Value.list (sampleLists c)).texts.all (·.all (!·.isSurrogate)) = true := by
      cases c <;> cbv
    have hplain := List.all_eq_true.mp (List.all_eq_true.mp hall t ht) x hx
    rw [hsurrogate] at hplain
    cases hplain

/-- Every file of a catalog in the store at `l` is the encoding of the entries. -/
structure Mirrors (store : Store) (lists : Catalog → List Value) (l : Location) (d : Disk) :
    Prop where
  lies : store.LiesAt l d
  file : ∀ {name c bytes m}, d.file? (slotAt l name c) = some (bytes, m) →
    ∃ packed t, c.Writes (lists c) packed t ∧ Utf8.encode t = .ok bytes

theorem find?_packed {cls : RecordClass} {vs packed : List Value} (uri : Value)
    (h : List.Forall₂ (Stored.Packed cls) vs packed) :
    (packed.find? (Cached.hasAddress uri)).map Stored.toAnswered =
      vs.find? (Cached.hasAddress uri) := by
  induction h with
  | nil => rfl
  | @cons v p vs packed hv _ ih =>
    have hsame : Cached.hasAddress uri p = Cached.hasAddress uri v := by
      rw [Cached.hasAddress, hv.address]
      rfl
    rw [List.find?_cons, List.find?_cons, hsame]
    cases Cached.hasAddress uri v with
    | true => exact congrArg some hv.answers
    | false => exact ih

namespace Mirrors

variable {s : Cached} {lists : Catalog → List Value} {l : Location} {w : World} {d : Disk}
  {name remote : Text} {c : Catalog} {answers : Request → Reply} {f? : Option CacheFile}

/-! ## One call -/

theorem decode (h : Mirrors s.store lists l d) (hvalid : Store.isAccountName name = true)
    {bytes : List UInt8} {m : Instant}
    (hfile : d.status (s.slot name c).path = .ok (.file bytes m)) :
    ∃ packed, (s.slot name c).decode bytes = .ok (.list packed) ∧
      List.Forall₂ (Stored.Packed c.stored) (lists c) packed := by
  have hgood : (s.slot name c).path.isAddressable = true :=
    FilePath.isAddressable_child (FilePath.isAddressable_child h.lies.root
      (Store.isAddressable_of_isAccountName hvalid)) c.isAddressable_fileName
  obtain ⟨r, hr, hnode⟩ := (Disk.status_ok_iff hgood).mp hfile
  obtain ⟨rfl, -⟩ := h.lies.place (.refl d) hvalid hr
  obtain ⟨packed, t, hwrites, hencode⟩ := h.file (Disk.file?_eq_some_iff.mpr hnode)
  exact ⟨packed, hwrites.decode hencode _, hwrites.records⟩

theorem looked (h : Mirrors s.store lists l w.disk) (hof : s.Of name w.disk)
    (hentered : s.Entered name c w f? d) (htimely : s.AtFile c w CacheFile.Timely) :
    s.looked c (w.on d) f? = .ok none ∨ ∃ packed, s.looked c (w.on d) f? = .ok (some packed) ∧
      List.Forall₂ (Stored.Packed c.stored) (lists c) packed := by
  rcases hentered.file with rfl | ⟨rfl, -⟩
  · exact .inl rfl
  have hmirrors : Mirrors s.store lists l d :=
    ⟨h.lies.stable hentered.frame.stable, fun hfile => h.file (hentered.frame.file?_eq id ▸ hfile)⟩
  cases hlook : (s.slot name c).look (s.lifetimes c) (w.on d) with
  | error e =>
    have hhere := (hentered.atFile_iff fun _ _ _ => .rfl).mp htimely _ rfl
    obtain ⟨bytes, m, hfile, hfail⟩ := CacheFile.decode_of_look_error (hof.slot_good c) hhere hlook
    obtain ⟨packed, hdecode, -⟩ := hmirrors.decode hof.valid hfile
    exact absurd (hdecode.symm.trans hfail) nofun
  | ok items? =>
    cases items? with
    | none => exact .inl hlook
    | some items =>
      obtain ⟨bytes, m, age, hfile, -, -, hdecode⟩ := CacheFile.young_of_look hlook
      obtain ⟨packed, hdecode', hpacked⟩ := hmirrors.decode hof.valid hfile
      obtain rfl := Value.list.inj (Except.ok.inj (hdecode.symm.trans hdecode'))
      exact .inr ⟨items, hlook, hpacked⟩

theorem answer_collection (h : Mirrors s.store lists l w.disk) (hof : s.Of name w.disk)
    (hentries : c.Entries (lists c)) (hplain : ¬(Value.list (lists c)).HasSurrogate)
    (hreply : Cached.reply w remote c = .ok (lists c)) (htimely : s.AtFile c w CacheFile.Timely) :
    ((s.collection c (Action.ask remote (.collection c))).exec w).1 =
      .ok (.value (.list (lists c))) := by
  have hcall := Cached.exec_collection hof c remote
  generalize (s.collection c (Action.ask remote (.collection c))).exec w = call at hcall ⊢
  obtain ⟨result, after⟩ := call
  dsimp only at hcall ⊢
  cases hcall with
  | hit lines entered found =>
    rcases h.looked hof entered htimely with hnone | ⟨packed, hfound, hpacked⟩
    · exact absurd (found.symm.trans hnone) nofun
    · obtain rfl := Option.some.inj (Except.ok.inj (found.symm.trans hfound))
      rw [Stored.answers_of_packed hpacked]
  | unread lines entered failed =>
    rcases h.looked hof entered htimely with hnone | ⟨packed, hfound, -⟩
    · exact absurd (failed.symm.trans hnone) nofun
    · exact absurd (failed.symm.trans hfound) nofun
  | unanswered lines entered missed failed => exact absurd (failed.symm.trans hreply) nofun
  | unkept lines entered fetched =>
    obtain rfl := Except.ok.inj (fetched.symm.trans hreply)
    rfl
  | kept lines entered missed fetched keeps =>
    obtain rfl := Except.ok.inj (fetched.symm.trans hreply)
    rcases keeps.result hentries with ⟨rfl, -⟩ | ⟨-, htrips⟩
    · rfl
    · exact absurd htrips.surrogate hplain

theorem answer_item (h : Mirrors s.store lists l w.disk) (hof : s.Of name w.disk) {uri : Value}
    {answer : Reply} (hanswer : w.remotes remote (w.askedOf remote) (.item c uri) = answer)
    (hfirst : ∀ v, (lists c).find? (Cached.hasAddress uri) = some v → answer = .ok (.value v))
    (htimely : s.AtFile c w CacheFile.Timely) :
    ((s.item c uri (Action.ask remote (.item c uri))).exec w).1 = answer := by
  have hcall := Cached.exec_item hof c uri remote
  generalize (s.item c uri (Action.ask remote (.item c uri))).exec w = call at hcall ⊢
  obtain ⟨result, after⟩ := call
  dsimp only at hcall ⊢
  cases hcall with
  | hit lines entered found first =>
    rcases h.looked hof entered htimely with hnone | ⟨packed, hfound, hpacked⟩
    · exact absurd (found.symm.trans hnone) nofun
    · obtain rfl := Option.some.inj (Except.ok.inj (found.symm.trans hfound))
      exact (hfirst _ (by rw [← find?_packed uri hpacked, first]; rfl)).symm
  | unread lines entered failed =>
    rcases h.looked hof entered htimely with hnone | ⟨packed, hfound, -⟩
    · exact absurd (failed.symm.trans hnone) nofun
    · exact absurd (failed.symm.trans hfound) nofun
  | asked lines entered looked => exact hanswer

theorem answer (h : Mirrors s.store lists l w.disk) (hof : s.Of name w.disk)
    (hsteady : Steady answers lists)
    (hremote : ∀ history q, w.remotes remote history q = answers q)
    (htimely : ∀ c, s.AtFile c w CacheFile.Timely) (q : Request) :
    (((Client.cached s (.remote remote)).answer q).exec w).1 = answers q := by
  have hask : ∀ q, ((Action.ask remote q).exec w).1 = answers q := fun q => by
    rw [Action.exec_ask, hremote]
  cases q with
  | collection c =>
    have hreply : Cached.reply w remote c = .ok (lists c) := by
      rw [Cached.reply, hremote, hsteady.collection, Result.bind_ok]
      rfl
    rw [hsteady.collection]
    exact h.answer_collection hof (hsteady.entries c) (hsteady.plain c) hreply (htimely c)
  | item c uri =>
    refine h.answer_item hof (hremote _ _) (fun v hv => ?_) (htimely c)
    obtain ⟨e, hitem⟩ := hsteady.item c uri
    rw [hitem, hv]
  | linkTypes | fields | serverInfo => exact hask _

theorem leaves (h : Mirrors s.store lists l w.disk) {after : World} {events : List Event}
    {stored? : Option (Catalog × List Value)} (hleaves : Leaves s name l w after events stored?)
    (hstored : ∀ stored ∈ stored?, stored.2 = lists stored.1) :
    Mirrors s.store lists l after.disk := by
  cases hleaves with
  | same stable trace unsaved files =>
    exact ⟨h.lies.stable stable, fun hfile => h.file (files _ _ ▸ hfile)⟩
  | @stored c vs _ _ _ stable trace saved writes encoded file files =>
    refine ⟨h.lies.stable stable, fun {k c' bytes m} hfile => ?_⟩
    by_cases hslot : slotAt l k c' = slotAt l name c
    · obtain ⟨rfl, rfl⟩ := slotAt_injective hslot
      obtain ⟨rfl, -⟩ := Prod.mk.inj (Option.some.inj (hfile.symm.trans file))
      obtain rfl : vs = lists c' := hstored _ rfl
      exact ⟨_, _, writes, encoded⟩
    · exact h.file (files k c' hslot ▸ hfile)

theorem of_isEmpty {store : Store} (h : store.IsEmpty l d) : Mirrors store lists l d :=
  ⟨h.liesAt, fun hfile => absurd ((h.file?_slotAt _ _).symm.trans hfile) nofun⟩

end Mirrors

/-! ## Whole runs -/

section

variable {store : Store} {lists : Catalog → List Value} {l : Location} {w : World} {t : Turn}
  {answers : Request → Reply}

/-- **One turn.** It ends like a turn of the remote, and the store mirrors the remote still. -/
theorem Mirrors.play (h : Mirrors store lists l w.disk)
    (hvalid : Store.isAccountName t.account = true) (hsteady : Steady answers lists)
    (hremote : ∀ history q, t.remotes t.remote history q = answers q) :
    ((t.play (t.client store) w).Timely store →
      (t.play (t.client store) w).result = t.operation.finish (answers t.operation.question)) ∧
    Mirrors store lists l (t.play (t.client store) w).after.disk := by
  have hof : (t.cached store).Of t.account (t.enter w).disk :=
    ⟨rfl, hvalid, h.lies.root, h.lies.home⟩
  have hmirrors : Mirrors (t.cached store).store lists l (t.enter w).disk := h
  have hreply : ∀ c vs, Cached.reply (t.enter w) t.remote c = .ok vs → vs = lists c := by
    intro c vs hvs
    have hanswer : (t.enter w).remotes t.remote ((t.enter w).askedOf t.remote) (.collection c) =
        .ok (.value (.list (lists c))) := (hremote _ _).trans (hsteady.collection c)
    rw [Cached.reply, hanswer] at hvs
    exact (Except.ok.inj hvs).symm
  constructor
  · intro htimely
    rw [t.result_play]
    exact congrArg t.operation.finish (hmirrors.answer hof hsteady hremote htimely _)
  · rw [t.after_play]
    obtain ⟨events, stored?, hleaves, hstored⟩ := Cached.answer_leaves t.remote hof h.lies
      (fun c vs hvs => hreply c vs hvs ▸ hsteady.entries c) t.operation.question
    exact hmirrors.leaves hleaves fun stored hmem => hreply _ _ (hstored stored hmem).2

theorem bare_play (hremote : ∀ history q, t.remotes t.remote history q = answers q) (w : World) :
    (t.play t.bare w).result = t.operation.finish (answers t.operation.question) := by
  rw [t.result_play]
  refine congrArg t.operation.finish ?_
  show ((Action.ask t.remote t.operation.question).exec (t.enter w)).1 = _
  rw [Action.exec_ask]
  exact hremote _ _

/-- **Refinement.** From an empty store on, cached clients of any accounts answer like the remote in
every turn of every run. -/
theorem results_refine {turns : List Turn} (hempty : store.IsEmpty l w.disk)
    (hsteady : Steady answers lists)
    (hvalid : ∀ t ∈ turns, Store.isAccountName t.account = true)
    (hremote : ∀ t ∈ turns, ∀ history q, t.remotes t.remote history q = answers q)
    (htimely : ∀ report ∈ reports (Turn.client store) w turns, report.Timely store) :
    (reports (Turn.client store) w turns).map (·.result) =
      (reports Turn.bare w turns).map (·.result) := by
  -- the two runs drift apart in their worlds, so the one of the remote is any world at all
  have hrun : ∀ (turns : List Turn) (w bare : World), Mirrors store lists l w.disk →
      (∀ t ∈ turns, Store.isAccountName t.account = true) →
      (∀ t ∈ turns, ∀ history q, t.remotes t.remote history q = answers q) →
      (∀ report ∈ reports (Turn.client store) w turns, report.Timely store) →
      (reports (Turn.client store) w turns).map (·.result) =
        (reports Turn.bare bare turns).map (·.result) := by
    intro turns
    induction turns with
    | nil => exact fun _ _ _ _ _ _ => rfl
    | cons t rest ih =>
      intro w bare hmirrors hvalid hremote htimely
      rw [List.forall_mem_cons] at hvalid hremote
      rw [reports, List.forall_mem_cons] at htimely
      obtain ⟨hresult, hafter⟩ := hmirrors.play hvalid.1 hsteady hremote.1
      rw [reports, reports, List.map_cons, List.map_cons, hresult htimely.1,
        bare_play hremote.1, ih _ _ hafter hvalid.2 hremote.2 htimely.2]
  exact hrun turns w w (.of_isEmpty hempty) hvalid hremote htimely

end

theorem sample_refines : [firstReport.result, secondReport.result] =
    (reports Turn.bare (Cached.sampleWorld sampleLists) [firstTurn, secondTurn]).map
      (·.result) := by
  have hvalid : ∀ t ∈ [firstTurn, secondTurn], Store.isAccountName t.account = true := by
    simp only [List.forall_mem_cons]
    exact ⟨rfl, rfl, nofun⟩
  refine results_refine sampleStore_isEmpty sampleAnswers_steady hvalid ?_ ?_
  · simp only [List.forall_mem_cons]
    exact ⟨fun _ _ => rfl, fun _ _ => rfl, nofun⟩
  · rw [reports_sample]
    simp only [List.forall_mem_cons]
    exact ⟨timely_firstReport, timely_secondReport, List.forall_mem_nil _⟩

end CatalogCache
