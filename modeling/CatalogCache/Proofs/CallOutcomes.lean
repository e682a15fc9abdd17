import CatalogCache.Proofs.AccountPlaces
import CatalogCache.Proofs.CachedCalls

/-!
# Calls as functions

Where no call to the disk fails, what a call of a cached client comes to is a function of the disk,
the clock and the client below.
-/

namespace CatalogCache

/-- The request that an event has brought to a remote. -/
def Event.question? : Event → Option (Text × Request)
  | asked remote r => some (remote, r)
  | _ => none

theorem questions_logs (lines : List LogLine) :
    (lines.map Event.log).filterMap Event.question? = [] := by
  rw [List.filterMap_map]
  exact List.filterMap_eq_nil_iff.mpr fun _ _ => rfl

namespace Cached

/-- What a call comes to: its result, the disk after it, and what the client below was asked. -/
structure Outcome where
  result : Except Failure Answer
  disk : Disk
  asked : List Request

variable {s : Cached} {name remote : Text} {c : Catalog} {w : World} {d : Disk}

/-! ## The file -/

/-- Which file there is for a catalog, by how the directory of the account was made. -/
def fileOf (s : Cached) (name : Text) (c : Catalog) :
    Except FileError Unit → Except Failure (Option CacheFile)
  | .ok () => .ok (some (s.slot name c))
  | .error (.system _) => .ok none
  | .error e => .error (.file e)

/-- The disk once the directory of the account is made, and which file there is. -/
def opened (s : Cached) (c : Catalog) (w : World) : Disk × Except Failure (Option CacheFile) :=
  match Store.accountName s.account with
  | .error e => (w.disk, .error e)
  | .ok name =>
    ((s.store.make name w.now w.disk).1, s.fileOf name c (s.store.make name w.now w.disk).2)

theorem opened_invalid (hs : s.account = .text name) (hname : Store.isAccountName name = false)
    (c : Catalog) (w : World) : s.opened c w = (w.disk, .error (.invalidAccount (.text name))) := by
  have haccount : Store.accountName s.account = .error (.invalidAccount (.text name)) := by
    rw [hs, Store.accountName]
    simp [hname]
  rw [opened, haccount]

theorem opened_valid (hs : s.account = .text name) (hname : Store.isAccountName name = true)
    (c : Catalog) (w : World) : s.opened c w =
      ((s.store.make name w.now w.disk).1, s.fileOf name c (s.store.make name w.now w.disk).2) := by
  rw [opened, hs, Store.accountName_text hname]

theorem opened_file (hs : s.account = .text name) {f : CacheFile}
    (h : (s.opened c w).2 = .ok (some f)) : Store.isAccountName name = true ∧
      (s.store.make name w.now w.disk).2 = .ok () ∧ f = s.slot name c := by
  cases hname : Store.isAccountName name with
  | false => simp [opened_invalid hs hname] at h
  | true =>
    rw [opened_valid hs hname] at h
    dsimp only at h
    cases hmade : (s.store.make name w.now w.disk).2 with
    | ok =>
      rw [hmade] at h
      exact ⟨rfl, rfl, (Option.some.inj (Except.ok.inj h)).symm⟩
    | error e =>
      rw [hmade] at h
      cases e <;> cases h

theorem accountName_error {account : Value} {e : Failure} (h : Store.accountName account = .error e)
    (path : FilePath) (cause : WriteCause) : e ≠ .cacheWrite path cause := by
  rintro rfl
  unfold Store.accountName at h
  split_ifs at h
  · split at h
    · split_ifs at h
      cases h
    · cases h
    · cases h
  · cases h

theorem accountName_ok {account : Value} (h : Store.accountName account = .ok name) :
    account = .text name ∧ Store.isAccountName name = true := by
  unfold Store.accountName at h
  split_ifs at h
  split at h
  · split_ifs at h with hname
    cases h
    exact ⟨rfl, hname⟩
  · cases h
  · cases h

theorem ends_error {e : Failure} (h : (s.store.file s.account c).exec w = (.error e, w.on d))
    (hother : ∀ path cause, e ≠ .cacheWrite path cause) : (s.file? c).Ends w (.error e) d := by
  refine .of_exec (x := .error e) ?_ ?_
  · rw [Action.exec_attempt, h]
  · cases e with
    | cacheWrite path cause => exact absurd rfl (hother path cause)
    | _ => exact Action.says_of_exec rfl

theorem exec_accountDirectory_eq (hfaults : w.faults = Faults.none)
    (hname : Store.accountName s.account = .ok name) :
    (s.store.accountDirectory s.account).exec w =
      (match (s.store.make name w.now w.disk).2 with
        | .ok () => .ok (s.directory name)
        | .error (.system e) => .error (.cacheWrite (s.directory name) (.directory e))
        | .error e => .error (.file e), w.on (s.store.make name w.now w.disk).1) := by
  have hmade : w.disk.ensureDirectories w.faults (s.store.root.child name) w.now =
      s.store.make name w.now w.disk := by
    rw [hfaults]
    rfl
  have hnone : w.faults .makeDirectory = none := by
    rw [hfaults]
    rfl
  unfold Store.accountDirectory
  rw [hname, Action.exec_bind_ok (Action.exec_ofExcept _ w),
    Action.exec_bind_ok (Action.exec_get w)]
  simp only [hnone, hmade]
  generalize s.store.make name w.now w.disk = made
  obtain ⟨d, r⟩ := made
  cases r with
  | ok => rfl
  | error e => cases e <;> rfl

theorem ends_nameless {e : Failure} (h : Store.accountName s.account = .error e) (c : Catalog)
    (w : World) : (s.file? c).Ends w (.error e) w.disk := by
  have hdirectory : (s.store.accountDirectory s.account).exec w = (.error e, w.on w.disk) := by
    unfold Store.accountDirectory
    rw [h, Action.exec_bind_error (Action.exec_ofExcept _ w)]
    rfl
  exact ends_error (exec_file_error hdirectory c) (accountName_error h)

theorem ends_file? (hfaults : w.faults = Faults.none) (c : Catalog) :
    (s.file? c).Ends w (s.opened c w).2 (s.opened c w).1 := by
  unfold opened
  cases hname : Store.accountName s.account with
  | error e => exact ends_nameless hname c w
  | ok name =>
    have hdirectory := exec_accountDirectory_eq hfaults hname
    dsimp only
    generalize s.store.make name w.now w.disk = made at hdirectory ⊢
    obtain ⟨d, r⟩ := made
    cases r with
    | ok =>
      have hfile := exec_file_ok hdirectory c
      refine .of_exec (x := .ok (s.slot name c)) ?_ (Action.says_of_exec rfl)
      rw [Action.exec_attempt, hfile]
    | error e =>
      cases e with
      | system e =>
        have hfile := exec_file_error hdirectory c
        refine .of_exec (x := .error (.cacheWrite (s.directory name) (.directory e))) ?_ ?_
        · rw [Action.exec_attempt, hfile]
        · exact .bind (Action.says_log ..) fun _ => Action.says_of_exec rfl
      | nullByte | unencodable => exact ends_error (exec_file_error hdirectory c) nofun

/-! ## Keeping -/

/-- What the attempt to keep values comes to, and the disk after it. -/
def kept (c : Catalog) (vs : List Value) (w : World) : Option CacheFile → Except Failure Unit × Disk
  | none => (.ok (), w.disk)
  | some f => match vs.mapM (Stored.ofAnswered c.stored) with
    | .error e => (.error e, w.disk)
    | .ok packed => match f.encode (.list packed) with
      | .error (.cacheWrite ..) => (.ok (), w.disk)
      | .error e => (.error e, w.disk)
      | .ok t =>
        let (d, r) := Save.run ⟨f.path, t, w.faults, w.now⟩ w.disk
        match r with
        | .ok () | .error (.system _) => (.ok (), d)
        | .error e => (.error (.file e), d)

theorem exec_keep_eq (s : Cached) (c : Catalog) (f : CacheFile) (vs : List Value) (w : World) :
    ∃ events, (s.keep c f vs).exec w =
        ((kept c vs w (some f)).1, w.after (kept c vs w (some f)).2 events) ∧
      events.filterMap Event.question? = [] := by
  unfold keep kept
  cases vs.mapM (Stored.ofAnswered c.stored) with
  | error e =>
    rw [Action.exec_bind_error (Action.exec_ofExcept _ w)]
    exact ⟨[], by rw [World.after_nil], rfl⟩
  | ok packed =>
    rw [Action.exec_bind_ok (Action.exec_ofExcept _ w)]
    dsimp only
    cases hencode : f.encode (.list packed) with
    | error e =>
      obtain ⟨lines, hput⟩ := CacheFile.says_put_error hencode w
      rw [Action.exec_bind_ok (by rw [Action.exec_attempt, CacheFile.exec_write, hput])]
      rcases CacheFile.encode_error hencode with ⟨cause, rfl⟩ | rfl | ⟨rfl, -⟩
      · simp only [Result.exceptMap_error, Action.exec_log, World.logged_logged]
        exact ⟨_, rfl, questions_logs _⟩
      · exact ⟨_, rfl, questions_logs lines⟩
      · exact ⟨_, rfl, questions_logs lines⟩
    | ok t =>
      cases hrun : Save.run ⟨f.path, t, w.faults, w.now⟩ w.disk with
      | mk d r =>
        obtain ⟨lines, hput⟩ := CacheFile.exec_put hencode w hrun
        rw [Action.exec_bind_ok (by rw [Action.exec_attempt, CacheFile.exec_write, hput])]
        simp only [hrun]
        cases r with
        | ok =>
          refine ⟨lines.map .log ++ [.saved f.path], ?_, ?_⟩
          · simp [World.after, World.record, World.logged, World.on]
          · rw [List.filterMap_append, questions_logs]
            rfl
        | error e =>
          cases e with
          | system e =>
            simp only [Result.exceptMap_error, Action.exec_log, World.logged_logged]
            exact ⟨_, rfl, questions_logs _⟩
          | nullByte | unencodable => exact ⟨_, rfl, questions_logs lines⟩

/-! ## Whole calls -/

/-- What a request comes to where no call to the disk fails, with a remote below. -/
def outcome (s : Cached) (remote : Text) (w : World) (q : Request) : Outcome :=
  match q with
  | .collection c => match s.opened c w with
    | (d, .error e) => ⟨.error e, d, []⟩
    | (d, .ok f?) => match s.looked c (w.on d) f? with
      | .error e => ⟨.error e, d, []⟩
      | .ok (some items) => ⟨.ok (.value (.list (items.map Stored.toAnswered))), d, []⟩
      | .ok none => match reply w remote c with
        | .error e => ⟨.error e, d, [q]⟩
        | .ok vs =>
          let (r, d') := kept c vs (w.on d) f?
          ⟨r.map fun _ => .value (.list vs), d', [q]⟩
  | .item c uri => match s.opened c w with
    | (d, .error e) => ⟨.error e, d, []⟩
    | (d, .ok f?) => match s.looked c (w.on d) f? with
      | .error e => ⟨.error e, d, []⟩
      | .ok items? => match (items?.getD []).find? (hasAddress uri) with
        | some entry => ⟨.ok (.value (Stored.toAnswered entry)), d, []⟩
        | none => ⟨w.remotes remote (w.askedOf remote) q, d, [q]⟩
  | q => ⟨w.remotes remote (w.askedOf remote) q, w.disk, [q]⟩

theorem outcome_congr {w' : World} (hdisk : w'.disk = w.disk) (hnow : w'.now = w.now)
    (hfaults : w'.faults = w.faults) (hreply : ∀ q, w'.remotes remote (w'.askedOf remote) q =
      w.remotes remote (w.askedOf remote) q) (s : Cached) (q : Request) :
    s.outcome remote w' q = s.outcome remote w q := by
  have hreply : w'.remotes remote (w'.askedOf remote) = w.remotes remote (w.askedOf remote) :=
    funext hreply
  unfold outcome reply
  rw [hreply]
  generalize w.remotes remote (w.askedOf remote) = replies
  cases w
  cases w'
  dsimp only at hdisk hnow hfaults
  subst hdisk hnow hfaults
  cases q <;> rfl

/-- A call comes to an outcome, but for what it writes to the log. -/
structure Comes (remote : Text) (w : World) (call : Reply × World) (o : Outcome) : Prop where
  result : call.1 = o.result
  world : ∃ events, call.2 = w.after o.disk events ∧
    events.filterMap Event.question? = o.asked.map (remote, ·)

theorem comes_logged {r : Reply} {o : Outcome} (lines : List LogLine) (hresult : r = o.result)
    (hdisk : d = o.disk) (hasked : o.asked = []) :
    Comes remote w (r, (w.on d).logged lines) o := by
  subst hdisk
  exact ⟨hresult, _, rfl, by rw [questions_logs, hasked]; rfl⟩

theorem comes_asked {r : Reply} {o : Outcome} {q : Request} (lines : List LogLine)
    (hresult : r = o.result) (hdisk : d = o.disk) (hasked : o.asked = [q]) :
    Comes remote w (r, w.after d (lines.map .log ++ [.asked remote q])) o := by
  subst hdisk
  refine ⟨hresult, _, rfl, ?_⟩
  rw [List.filterMap_append, questions_logs, hasked]
  rfl

theorem comes_kept (s : Cached) (c : Catalog) (f : CacheFile) (lines : List LogLine) (q : Request)
    (vs : List Value) :
    let call := (s.keep c f vs).exec (w.after d (lines.map .log ++ [.asked remote q]))
    let (r, d') := kept c vs (w.on d) (some f)
    Comes remote w (call.1.map fun _ => .value (.list vs), call.2)
      ⟨r.map fun _ => .value (.list vs), d', [q]⟩ := by
  obtain ⟨events, hexec, hquiet⟩ :=
    exec_keep_eq s c f vs (w.after d (lines.map .log ++ [.asked remote q]))
  rw [hexec]
  refine ⟨rfl, _, World.after_after .., ?_⟩
  rw [List.filterMap_append, List.filterMap_append, questions_logs, hquiet]
  rfl

theorem outcome_missed {f? : Option CacheFile} (hopened : s.opened c w = (d, .ok f?))
    (hlooked : s.looked c (w.on d) f? = .ok none) :
    s.outcome remote w (.collection c) = match reply w remote c with
      | .error e => ⟨.error e, d, [.collection c]⟩
      | .ok vs => ⟨(kept c vs (w.on d) f?).1.map fun _ => .value (.list vs),
        (kept c vs (w.on d) f?).2, [.collection c]⟩ := by
  unfold outcome
  simp only [hopened, hlooked]

theorem outcome_unlisted {f? : Option CacheFile} {items? : Option (List Value)} {uri : Value}
    (hopened : s.opened c w = (d, .ok f?)) (hlooked : s.looked c (w.on d) f? = .ok items?)
    (hfirst : (items?.getD []).find? (hasAddress uri) = none) :
    s.outcome remote w (.item c uri) =
      ⟨w.remotes remote (w.askedOf remote) (.item c uri), d, [.item c uri]⟩ := by
  unfold outcome
  simp only [hopened, hlooked, hfirst]

theorem comes_collection (hfaults : w.faults = Faults.none) {fetch : Action Answer}
    (hfetched : ∀ d f? lines, s.opened c w = (d, .ok f?) → s.looked c (w.on d) f? = .ok none →
      Comes remote w ((s.fetched c f? fetch).exec ((w.on d).logged lines))
        (s.outcome remote w (.collection c))) :
    Comes remote w ((s.collection c fetch).exec w) (s.outcome remote w (.collection c)) := by
  have hfile := ends_file? (s := s) hfaults c
  cases hopened : s.opened c w with
  | mk d x =>
    rw [hopened] at hfile
    have hfetched := hfetched d
    rw [hopened] at hfetched
    cases x with
    | error e =>
      obtain ⟨lines, hexec⟩ := hfile
      unfold collection outcome
      rw [Action.exec_bind_error hexec]
      simp only [hopened]
      exact comes_logged lines rfl rfl rfl
    | ok f? =>
      obtain ⟨lines, hexec⟩ := exec_collection_eq hfile fetch
      rw [hexec]
      cases hlooked : s.looked c (w.on d) f? with
      | error e =>
        unfold outcome
        simp only [hopened, hlooked]
        exact comes_logged lines rfl rfl rfl
      | ok items? =>
        cases items? with
        | some items =>
          unfold outcome
          simp only [hopened, hlooked]
          exact comes_logged lines rfl rfl rfl
        | none => exact hfetched f? lines rfl hlooked

theorem comes_item (hfaults : w.faults = Faults.none) {uri : Value} {fetch : Action Answer}
    (hfetch : ∀ d f? items? lines, s.opened c w = (d, .ok f?) →
      s.looked c (w.on d) f? = .ok items? → (items?.getD []).find? (hasAddress uri) = none →
      Comes remote w (fetch.exec ((w.on d).logged lines)) (s.outcome remote w (.item c uri))) :
    Comes remote w ((s.item c uri fetch).exec w) (s.outcome remote w (.item c uri)) := by
  have hfile := ends_file? (s := s) hfaults c
  cases hopened : s.opened c w with
  | mk d x =>
    rw [hopened] at hfile
    have hfetch := hfetch d
    rw [hopened] at hfetch
    cases x with
    | error e =>
      obtain ⟨lines, hexec⟩ := hfile
      unfold item outcome
      rw [Action.exec_bind_error hexec]
      simp only [hopened]
      exact comes_logged lines rfl rfl rfl
    | ok f? =>
      obtain ⟨lines, hexec⟩ := exec_item_eq hfile uri fetch
      rw [hexec]
      cases hlooked : s.looked c (w.on d) f? with
      | error e =>
        unfold outcome
        simp only [hopened, hlooked]
        exact comes_logged lines rfl rfl rfl
      | ok items? =>
        cases hfirst : (items?.getD []).find? (hasAddress uri) with
        | some entry =>
          unfold outcome
          simp only [hopened, hlooked, hfirst]
          exact comes_logged lines rfl rfl rfl
        | none =>
          simp only [hfirst]
          exact hfetch f? items? lines rfl hlooked hfirst

theorem exec_ask_on (remote : Text) (q : Request) (w : World) (d : Disk) (lines : List LogLine) :
    (Action.ask remote q).exec ((w.on d).logged lines) =
      (w.remotes remote (w.askedOf remote) q,
        w.after d (lines.map .log ++ [.asked remote q])) := by
  rw [Action.exec_ask, askedOf_logged]
  refine Prod.ext rfl ?_
  simp [World.after, World.record, World.logged, World.on]

/-- **Calls.** Every call of a client over a remote comes to its outcome. -/
theorem comes_answer (hfaults : w.faults = Faults.none) (s : Cached) (q : Request) :
    Comes remote w (((Client.cached s (.remote remote)).answer q).exec w)
      (s.outcome remote w q) := by
  have hask : ∀ q, Comes remote w ((Action.ask remote q).exec w)
      ⟨w.remotes remote (w.askedOf remote) q, w.disk, [q]⟩ := by
    intro q
    rw [Action.exec_ask]
    exact ⟨rfl, [.asked remote q], rfl, rfl⟩
  cases q with
  | collection c =>
    apply comes_collection hfaults
    intro d f? lines hopened hlooked
    show Comes remote w ((s.fetched c f? (Action.ask remote (.collection c))).exec _) _
    rw [exec_fetched s c f? (exec_ask_on ..), outcome_missed hopened hlooked, reply]
    cases w.remotes remote (w.askedOf remote) (.collection c) >>= Answer.collect with
    | error e => exact comes_asked lines rfl rfl rfl
    | ok vs =>
      cases f? with
      | none => exact comes_asked lines rfl rfl rfl
      | some f => exact comes_kept s c f lines _ vs
  | item c uri =>
    apply comes_item hfaults
    intro d f? items? lines hopened hlooked hfirst
    show Comes remote w ((Action.ask remote (.item c uri)).exec _) _
    rw [exec_ask_on, outcome_unlisted hopened hlooked hfirst]
    exact comes_asked lines rfl rfl rfl
  | linkTypes | fields | serverInfo => exact hask _

/-! ## The disk -/

theorem disk_kept (c : Catalog) (vs : List Value) (w : World) (f? : Option CacheFile) :
    (kept c vs w f?).2 = w.disk ∨ ∃ f t, f? = some f ∧
      (kept c vs w f?).2 = (Save.run ⟨f.path, t, w.faults, w.now⟩ w.disk).1 := by
  cases f? with
  | none => exact .inl rfl
  | some f =>
    unfold kept
    cases vs.mapM (Stored.ofAnswered c.stored) with
    | error e => exact .inl rfl
    | ok packed =>
      dsimp only
      cases f.encode (.list packed) with
      | error e => cases e <;> exact .inl rfl
      | ok t =>
        refine .inr ⟨f, t, rfl, ?_⟩
        dsimp only
        generalize Save.run ⟨f.path, t, w.faults, w.now⟩ w.disk = ran
        obtain ⟨d, r⟩ := ran
        cases r with
        | ok => rfl
        | error e => cases e <;> rfl

theorem disk_outcome (s : Cached) (remote : Text) (w : World) (q : Request) :
    (s.outcome remote w q).disk = w.disk ∨ ∃ c, (s.outcome remote w q).disk = (s.opened c w).1 ∨
      ∃ f t, (s.opened c w).2 = .ok (some f) ∧ (s.outcome remote w q).disk =
        (Save.run ⟨f.path, t, w.faults, w.now⟩ (s.opened c w).1).1 := by
  cases q with
  | collection c =>
    refine .inr ⟨c, ?_⟩
    unfold outcome
    dsimp only
    generalize s.opened c w = opened
    obtain ⟨d, x⟩ := opened
    cases x with
    | error e => exact .inl rfl
    | ok f? =>
      dsimp only
      cases s.looked c (w.on d) f? with
      | error e => exact .inl rfl
      | ok items? =>
        cases items? with
        | some items => exact .inl rfl
        | none =>
          dsimp only
          cases reply w remote c with
          | error e => exact .inl rfl
          | ok vs =>
            rcases disk_kept c vs (w.on d) f? with hsame | ⟨f, t, rfl, hsaved⟩
            · exact .inl hsame
            · exact .inr ⟨f, t, rfl, hsaved⟩
  | item c uri =>
    refine .inr ⟨c, .inl ?_⟩
    unfold outcome
    dsimp only
    generalize s.opened c w = opened
    obtain ⟨d, x⟩ := opened
    cases x with
    | error e => rfl
    | ok f? =>
      dsimp only
      cases s.looked c (w.on d) f? with
      | error e => rfl
      | ok items? =>
        dsimp only
        cases (items?.getD []).find? (hasAddress uri) <;> rfl
  | linkTypes | fields | serverInfo => exact .inl rfl

end Cached

end CatalogCache
