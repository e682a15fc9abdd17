import CatalogCache.Proofs.ItemAgreement

/-!
# Lists that are not stored

A list that was fetched is in its file when the call gives it back, or the log says why it is not,
and then no file has changed.
-/

namespace CatalogCache

/-! ## Complaints -/

/-- The warnings that say why a list is not stored. -/
inductive Complaint
  /-- The account has no directory. -/
  | unavailable
  /-- The list could not be written. -/
  | unkept
deriving DecidableEq

namespace Complaint

def start : Complaint → Text
  | unavailable => "Metadata cache unavailable"
  | unkept => "Could not cache"

def all : List Complaint := [unavailable, unkept]

end Complaint

def Event.complaint? : Event → Option Complaint
  | .log ⟨.warning, .cachedClient, message⟩ =>
    Complaint.all.find? fun complaint => complaint.start.isPrefixOf message
  | _ => none

def World.complaints (w : World) : List Complaint := w.trace.filterMap Event.complaint?

theorem World.complaints_record (w : World) (e : Event) :
    (w.record e).complaints = w.complaints ++ e.complaint?.toList := by
  rw [complaints, record, List.filterMap_append, complaints]
  cases h : e.complaint? with
  | none => rw [List.filterMap_cons_none h, List.filterMap_nil, Option.toList_none]
  | some complaint => rw [List.filterMap_cons_some h, List.filterMap_nil, Option.toList_some]

/-! ## Actions without complaints -/

namespace Action

variable {α β : Type} {a : Action α} {f : α → Action β}

/-- Nothing that the action logs is a complaint. -/
def Mute (a : Action α) : Prop := ∀ w, (a.exec w).2.complaints = w.complaints

theorem mute_pure (x : α) : (pure x : Action α).Mute := fun _ => rfl

theorem mute_get : (get : Action World).Mute := fun _ => rfl

theorem mute_ofExcept (r : Except Failure α) : (ofExcept r).Mute := by
  intro w
  rw [exec_ofExcept]

theorem mute_throw (e : Failure) : (throw e : Action α).Mute := fun _ => rfl

theorem mute_record {e : Event} (h : e.complaint? = none) : (record e).Mute := by
  intro w
  change (w.record e).complaints = _
  rw [World.complaints_record, h, Option.toList_none, List.append_nil]

theorem mute_log {level : Level} {topic : Topic} {message : List Text}
    (h : Event.complaint? (.log ⟨level, topic, message.flatten⟩) = none) :
    (log level topic message).Mute :=
  mute_record h

theorem Mute.bind (ha : a.Mute) (hf : ∀ x, (f x).Mute) : (a >>= f).Mute := by
  intro w
  have hafter := ha w
  rw [exec_bind]
  generalize a.exec w = call at hafter ⊢
  obtain ⟨r, w'⟩ := call
  cases r with
  | error e => exact hafter
  | ok x => exact (hf x w').trans hafter

theorem Mute.attempt (ha : a.Mute) : (attempt a).Mute := ha

end Action

namespace CacheFile

theorem mute_isFresh (f : CacheFile) (lifetime : Duration) : (f.isFresh lifetime).Mute := by
  refine Action.mute_get.bind fun w => ?_
  dsimp only
  split
  · exact (Action.mute_log rfl).bind fun _ => Action.mute_pure _
  · exact Action.mute_throw _
  · exact Action.mute_pure _
  · split_ifs
    · exact (Action.mute_log rfl).bind fun _ => Action.mute_pure _
    · exact Action.mute_pure _

theorem mute_read (f : CacheFile) : f.read.Mute :=
  (Action.mute_log rfl).bind fun _ => Action.mute_get.bind fun _ => Action.mute_ofExcept _

theorem mute_replace (f : CacheFile) (t : Text) : (f.replace t).Mute := by
  intro w
  rw [exec_replace f t w rfl]
  rfl

theorem mute_write (f : CacheFile) (v : Value) : (f.write v).Mute := by
  have hput : (f.put v).Mute := by
    refine (Action.mute_log rfl).bind fun _ => (Action.mute_ofExcept _).bind fun t => ?_
    exact (mute_replace f t).bind fun _ => (Action.mute_record rfl).bind fun _ => Action.mute_pure _
  intro w
  rw [exec_write]
  exact hput w

end CacheFile

namespace Cached

variable {s : Cached} {c : Catalog} {f : CacheFile} {f? : Option CacheFile} {vs : List Value}
  {w w' : World} {d : Disk} {name remote : Text} {q : Request}

/-! ## The directory -/

/-- The directory of the account cannot be made. -/
def Unavailable (s : Cached) (w : World) : Prop :=
  ∃ path cause, ((s.store.accountDirectory s.account).exec w).1 = .error (.cacheWrite path cause)

theorem exec_storeFile (s : Cached) (c : Catalog) (w : World) :
    ∃ r d, (s.store.file s.account c).exec w = (r, w.on d) ∧
      ∀ path cause, r = .error (.cacheWrite path cause) → s.Unavailable w := by
  cases haccount : Store.accountName s.account with
  | error e =>
    have hdirectory : (s.store.accountDirectory s.account).exec w = (.error e, w.on w.disk) := by
      unfold Store.accountDirectory
      rw [haccount, Action.exec_bind_error (Action.exec_ofExcept _ w)]
      rfl
    refine ⟨_, _, exec_file_error hdirectory c, ?_⟩
    rintro path cause ⟨⟩
    exact absurd rfl (accountName_error haccount path cause)
  | ok name =>
    obtain ⟨hs, hname⟩ := accountName_ok haccount
    obtain ⟨r, d, hexec, -, rfl | ⟨e, rfl⟩⟩ := made_accountDirectory hs hname w
    · exact ⟨_, d, exec_file_ok hexec c, nofun⟩
    · refine ⟨_, d, exec_file_error hexec c, ?_⟩
      rintro path cause ⟨⟩
      exact ⟨path, cause, by rw [hexec]⟩

theorem complaints_file? {r : Except Failure (Option CacheFile)}
    (h : (s.file? c).exec w = (r, w')) :
    (r ≠ .ok none ∧ w'.complaints = w.complaints) ∨
      r = .ok none ∧ s.Unavailable w ∧ w'.complaints = w.complaints ++ [.unavailable] := by
  obtain ⟨found, d, hfile, hunavailable⟩ := exec_storeFile s c w
  have hattempt : (Action.attempt (s.store.file s.account c)).exec w = (.ok found, w.on d) := by
    rw [Action.exec_attempt, hfile]
  unfold file? at h
  rw [Action.exec_bind_ok hattempt] at h
  cases found with
  | ok f =>
    cases h
    exact .inl ⟨nofun, rfl⟩
  | error e =>
    cases e with
    | cacheWrite path cause =>
      cases h
      exact .inr ⟨rfl, hunavailable path cause rfl, World.complaints_record ..⟩
    | _ =>
      cases h
      exact .inl ⟨nofun, rfl⟩

/-! ## The look at the file -/

theorem mute_fresh? (s : Cached) (c : Catalog) (f? : Option CacheFile) :
    (s.fresh? c f?).Mute := by
  cases f? with
  | none => exact Action.mute_pure _
  | some f =>
    refine (f.mute_isFresh _).bind fun young => ?_
    cases young with
    | false => exact Action.mute_pure _
    | true =>
      refine f.mute_read.attempt.bind fun r => ?_
      split
      · exact Action.mute_pure _
      · exact Action.mute_pure _
      · exact (Action.mute_log rfl).bind fun _ => Action.mute_pure _
      · exact Action.mute_throw _

/-! ## Keeping what was fetched -/

theorem complaints_keep (h : (s.keep c f vs).exec w = (.ok (), w')) :
    (w'.complaints = w.complaints ∧ ∃ packed t, vs.mapM (Stored.ofAnswered c.stored) = .ok packed ∧
      f.encode (.list packed) = .ok t ∧ (f.save t w).Ended w.disk (.ok ()) w'.disk) ∨
    w'.complaints = w.complaints ++ [.unkept] ∧
      (w.faults .discard = none → ∀ l, w.disk.Kept w'.disk l) := by
  unfold keep at h
  cases hpack : vs.mapM (Stored.ofAnswered c.stored) with
  | error e =>
    rw [hpack, Action.exec_bind_error (Action.exec_ofExcept _ w)] at h
    cases h
  | ok packed =>
    rw [hpack, Action.exec_bind_ok (Action.exec_ofExcept _ w)] at h
    have hmute := f.mute_write (.list packed) w
    cases hput : (f.put (.list packed)).exec w with
    | mk r w₁ =>
      have hwrite : (f.write (.list packed)).exec w = (r.map fun _ => (), w₁) := by
        rw [CacheFile.exec_write, hput]
      rw [hwrite] at hmute
      rw [Action.exec_bind_ok (by rw [Action.exec_attempt, hwrite])] at h
      cases r with
      | ok v =>
        cases h
        obtain ⟨-, t, hencode, hended⟩ := CacheFile.put_ok hput
        exact .inl ⟨hmute, packed, t, rfl, hencode, hended⟩
      | error e =>
        cases e with
        | cacheWrite path cause =>
          cases h
          refine .inr ⟨(World.complaints_record ..).trans (congrArg (· ++ _) hmute), ?_⟩
          intro hdiscard l
          rcases CacheFile.put_error hput with hsame | ⟨t, e', -, hended⟩
          · exact .inl (congrArg (Disk.node? · l) hsame)
          · exact hended.spared hdiscard l
        | _ => cases h

/-! ## Whole calls -/

/-- There is no complaint, or the one that the account has no directory. -/
def Quiet (s : Cached) (w after : World) : Prop :=
  after.complaints = w.complaints ∨
    s.Unavailable w ∧ after.complaints = w.complaints ++ [.unavailable]

theorem Quiet.trans {after : World} (h : s.Quiet w w') (hsame : after.complaints = w'.complaints) :
    s.Quiet w after := by
  rw [Quiet, hsame]
  exact h

theorem complaints_logged_debug (w : World) (topic : Topic) (message : Text) :
    (w.logged [⟨.debug, topic, message⟩]).complaints = w.complaints := by
  change (w.record _).complaints = _
  rw [World.complaints_record]
  exact List.append_nil _

/-- How a call for all entries goes on to its end, or up to its question. -/
inductive Course (s : Cached) (c : Catalog) (fetch : Action Answer) (w : World) : Prop
  | closed {r : Reply} {d : Disk} (lines : List LogLine)
    (quiet : s.Quiet w ((w.on d).logged lines))
    (exec : (s.collection c fetch).exec w = (r, (w.on d).logged lines))
  | uncached {d : Disk} (lines : List LogLine) (frame : Disk.Frame Disk.Nowhere w.disk d)
    (told : ((w.on d).logged lines).complaints = w.complaints ++ [.unavailable])
    (exec : (s.collection c fetch).exec w = (s.fetched c none fetch).exec ((w.on d).logged lines))
  | cached {d : Disk} {name : Text} (lines : List LogLine) (account : s.account = .text name)
    (made : Disk.Made (s.directory name) w.disk d)
    (mute : ((w.on d).logged lines).complaints = w.complaints)
    (exec : (s.collection c fetch).exec w =
      (s.fetched c (some (s.slot name c)) fetch).exec ((w.on d).logged lines))

theorem course (s : Cached) (c : Catalog) (fetch : Action Answer) (w : World) :
    s.Course c fetch w := by
  obtain ⟨r, d, ⟨lines, hfile⟩, hframe, hslot⟩ := s.ends_whatever c w
  have htold := complaints_file? hfile
  cases r with
  | error e =>
    obtain ⟨-, hsame⟩ | ⟨⟨⟩, -⟩ := htold
    exact .closed lines (.inl hsame) (Action.exec_bind_error hfile _)
  | ok f? =>
    obtain ⟨more, hfresh⟩ := exec_fresh? s c f? (w.on d) lines
    have hmute := s.mute_fresh? c f? ((w.on d).logged lines)
    rw [hfresh] at hmute
    have hexec := exec_collection_steps hfile fetch hfresh
    have hquiet : s.Quiet w ((w.on d).logged more) := by
      rcases htold with ⟨-, hsame⟩ | ⟨-, hunavailable, htold⟩
      · exact .inl (hmute.trans hsame)
      · exact .inr ⟨hunavailable, hmute.trans htold⟩
    cases hlooked : s.looked c (w.on d) f? with
    | error e =>
      rw [hlooked] at hexec
      exact .closed more hquiet hexec
    | ok items? =>
      rw [hlooked] at hexec
      cases items? with
      | some items =>
        dsimp only at hexec
        have hlast := complaints_logged_debug ((w.on d).logged more) .cachedClient
          (List.flatten ["Cache hit for ", c.label, " (", s.who, ")"])
        rw [World.logged_logged] at hexec hlast
        exact .closed _ (hquiet.trans hlast) hexec
      | none =>
        dsimp only at hexec
        have hlast := complaints_logged_debug ((w.on d).logged more) .cachedClient
          (List.flatten ["Cache miss for ", c.label, " (", s.who, "), fetching"])
        rw [World.logged_logged] at hexec hlast
        rcases htold with ⟨hsome, hsame⟩ | ⟨hnone, -, htold⟩
        · cases f? with
          | none => exact absurd rfl hsome
          | some f =>
            obtain ⟨name, hs, rfl, hmade⟩ := hslot f rfl
            exact .cached _ hs hmade (hlast.trans (hmute.trans hsame)) hexec
        · cases hnone
          exact .uncached _ hframe (hlast.trans (hmute.trans htold)) hexec

theorem quiet_item (s : Cached) (c : Catalog) (uri : Value) {fetch : Action Answer}
    (hfetch : fetch.Mute) (w : World) : s.Quiet w ((s.item c uri fetch).exec w).2 := by
  cases hfile : (s.file? c).exec w with
  | mk r w₁ =>
    have htold := complaints_file? hfile
    cases r with
    | error e =>
      obtain ⟨-, hsame⟩ | ⟨⟨⟩, -⟩ := htold
      rw [item, Action.exec_bind_error hfile]
      exact .inl hsame
    | ok f? =>
      have hquiet : s.Quiet w w₁ := by
        rcases htold with ⟨-, hsame⟩ | ⟨-, htold⟩
        · exact .inl hsame
        · exact .inr htold
      rw [item, Action.exec_bind_ok hfile]
      refine hquiet.trans (((s.mute_fresh? c f?).bind fun items? => ?_) w₁)
      cases (items?.getD []).find? (hasAddress uri) with
      | some entry => exact (Action.mute_log rfl).bind fun _ => Action.mute_pure _
      | none => exact hfetch

/-- The file of a catalog holds the stored forms of a list: all of them, in order, written now. Its
path led to the place of the file once the directory of the account was there. -/
inductive Persisted (s : Cached) (c : Catalog) (vs : List Value) (w : World) (after : Disk) : Prop
  | stored {name : Text} {packed : List Value} {t : Text} {bytes : List UInt8} {opened : Disk}
    {target : Location} (account : s.account = .text name)
    (packs : vs.mapM (Stored.ofAnswered c.stored) = .ok packed)
    (encodes : Codec.tolerant.encode (.list packed) = .ok t)
    (written : Utf8.encode t = .ok bytes)
    (made : Disk.Made (s.directory name) w.disk opened)
    (leads : opened.locate false (s.slot name c).path = .ok target)
    (node : after.node? target = some (.file bytes w.now))
    (found : opened.Direct (s.slot name c).path target →
      after.status (s.slot name c).path = .ok (.file bytes w.now))

theorem kept_of_fetched {fetch : Action Answer} {r : Reply} {after : World}
    (hfetch : fetch.exec w = (r, w'))
    (h : (s.fetched c f? fetch).exec w = (.ok (.value (.list vs)), after)) :
    f? = none ∧ after = w' ∨ ∃ f, f? = some f ∧ (s.keep c f vs).exec w' = (.ok (), after) := by
  rw [exec_fetched s c f? hfetch] at h
  cases hcollect : r >>= Answer.collect with
  | error e =>
    rw [hcollect] at h
    cases h
  | ok fetched =>
    rw [hcollect] at h
    cases f? with
    | none =>
      cases h
      exact .inl ⟨rfl, rfl⟩
    | some f =>
      dsimp only at h
      cases hkeep : (s.keep c f fetched).exec w' with
      | mk kept w₁ =>
        rw [hkeep] at h
        cases kept with
        | error e => cases h
        | ok =>
          cases h
          exact .inr ⟨f, rfl, hkeep⟩

theorem persisted_or_told (hdiscard : w.faults .discard = none) {after : World}
    (h : (s.collection c (Action.ask remote (.collection c))).exec w =
      (.ok (.value (.list vs)), after))
    (hasked : ¬AsksNobody (.ok (.value (.list vs)), after) w) :
    (after.complaints = w.complaints ∧ s.Persisted c vs w after.disk) ∨
      ∃ x, after.complaints = w.complaints ++ [x] ∧ ∀ l, after.disk.file? l = w.disk.file? l := by
  have hquestion : ∀ w' : World, (w'.record (.asked remote (.collection c))).complaints =
      w'.complaints :=
    fun w' => (World.complaints_record ..).trans (List.append_nil _)
  cases s.course c (Action.ask remote (.collection c)) w with
  | closed lines _ exec =>
    rw [← h, exec] at hasked
    exact absurd (asksNobody_logged lines) hasked
  | uncached lines frame told exec =>
    obtain ⟨-, rfl⟩ | ⟨f, ⟨⟩, -⟩ := kept_of_fetched (Action.exec_ask remote _ _) (exec.symm.trans h)
    exact .inr ⟨.unavailable, (hquestion _).trans told, fun l => frame.file?_eq id⟩
  | @cached d name lines account made mute exec =>
    obtain ⟨⟨⟩, -⟩ | ⟨f, ⟨⟩, hkeep⟩ :=
      kept_of_fetched (Action.exec_ask remote _ _) (exec.symm.trans h)
    have hbefore := (hquestion ((w.on d).logged lines)).trans mute
    rcases complaints_keep hkeep with ⟨hmute, packed, t, hpack, hencode, hended⟩ | ⟨htold, hkept⟩
    · obtain ⟨bytes, target, hbytes, htakes, hnode, -, hdirect⟩ := hended.succeeded
      refine .inl ⟨hmute.trans hbefore, .stored account hpack (CacheFile.encode_ok_iff.mp hencode)
        hbytes made htakes.leads hnode fun hpath => ?_⟩
      have hfind : after.disk.find true (s.slot name c).path = .ok target := hdirect hpath
      rw [Disk.status, hfind, Result.bind_ok, hnode]
      rfl
    · refine .inr ⟨.unkept, htold.trans (congrArg (· ++ _) hbefore), fun l => ?_⟩
      exact (hkept hdiscard l).file?_eq.trans (made.frame.file?_eq id)

/-- **Persist or warn.** A list that was fetched and is given back is in the file of its catalog and
nothing is complained about, or there is one complaint and no file has changed. A call that fetches
no list complains only that the account has no directory. -/
theorem persists_or_complains (hdiscard : w.faults .discard = none) (s : Cached) (remote : Text)
    (q : Request) {r : Reply} {after : World}
    (h : ((Client.cached s (.remote remote)).answer q).exec w = (r, after)) :
    (∀ c vs, q = .collection c → ¬AsksNobody (r, after) w → r = .ok (.value (.list vs)) →
      (after.complaints = w.complaints ∧ s.Persisted c vs w after.disk) ∨
        ∃ x, after.complaints = w.complaints ++ [x] ∧
          ∀ l, after.disk.file? l = w.disk.file? l) ∧
    ((∀ c, q = .collection c → AsksNobody (r, after) w) → after.complaints = w.complaints ∨
      s.Unavailable w ∧ after.complaints = w.complaints ++ [.unavailable]) := by
  refine ⟨?_, fun hnobody => ?_⟩
  · rintro c vs rfl hasked rfl
    exact persisted_or_told hdiscard h hasked
  · have hask : (Action.ask remote q).Mute := by
      intro w
      rw [Action.exec_ask]
      exact (World.complaints_record ..).trans (List.append_nil _)
    cases q with
    | collection c =>
      have halone := hnobody c rfl
      cases s.course c (Action.ask remote (.collection c)) w with
      | closed lines quiet exec =>
        obtain ⟨-, rfl⟩ := Prod.mk.inj (exec.symm.trans h)
        exact quiet
      | uncached lines frame told exec =>
        rw [← h] at halone
        exact absurd (exec ▸ halone) (s.asks_asking none (.collection c) lines)
      | cached lines account made mute exec =>
        rw [← h] at halone
        exact absurd (exec ▸ halone) (s.asks_asking (some _) (.collection c) lines)
    | item c uri =>
      have hquiet := s.quiet_item c uri hask w
      have hitem : (s.item c uri (Action.ask remote (.item c uri))).exec w = (r, after) := h
      rw [hitem] at hquiet
      exact hquiet
    | linkTypes | fields | serverInfo =>
      exact .inl ((congrArg (·.2.complaints) h.symm).trans (hask w))

/-- A world where no file can take the place of another. -/
def sampleUnkept : World where
  __ := sampleWorld fun _ => []
  faults := fun call => if call = .rename then some ⟨⟨.denied, []⟩, 0⟩ else none

def unkeptCall : Reply × World :=
  ((Client.cached (sample (.days 1)) (.remote "jira")).answer (.collection .resolutions)).exec
    sampleUnkept

theorem sample_complains :
    unkeptCall.1 = .ok (.value (.list [])) ∧ unkeptCall.2.complaints = [.unkept] ∧
      ∀ l, unkeptCall.2.disk.file? l = (Disk.empty 0).file? l := by
  have hresult : unkeptCall.1 = .ok (.value (.list [])) := by cbv
  have hcomplaints : unkeptCall.2.complaints = [.unkept] := by cbv
  have hasked : ¬AsksNobody unkeptCall sampleUnkept := by
    have hquestions : unkeptCall.2.trace.filterMap Event.question? =
        [(↑"jira", .collection .resolutions)] := by
      cbv
    intro hnobody
    rw [AsksNobody, hquestions] at hnobody
    cases hnobody
  have hdiscard : sampleUnkept.faults .discard = none := rfl
  have hcall : ((Client.cached (sample (.days 1)) (.remote "jira")).answer
      (.collection .resolutions)).exec sampleUnkept = (unkeptCall.1, unkeptCall.2) := rfl
  refine ⟨hresult, hcomplaints, ?_⟩
  rcases (persists_or_complains hdiscard _ _ _ hcall).1 .resolutions [] rfl hasked hresult with
    ⟨hnone, -⟩ | ⟨x, -, hfiles⟩
  · rw [hcomplaints] at hnone
    cases hnone
  · exact hfiles

end Cached

end CatalogCache
