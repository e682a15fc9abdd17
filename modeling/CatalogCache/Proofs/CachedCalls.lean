import CatalogCache.Client
import CatalogCache.Proofs.CacheFiles

/-!
# The calls of a cached client

Every call goes through the same stages: the directory of the account, a look at the file, the
question to the client below, and the attempt to keep what came back. Here is what each stage can
come to, and with it every call.
-/

namespace CatalogCache.Cached

/-- A client of a valid account, whose paths can be handed to the system. -/
structure Of (s : Cached) (name : Text) (d : Disk) : Prop where
  account : s.account = .text name
  valid : Store.isAccountName name = true
  root : s.store.root.isAddressable = true
  home : d.hasGoodHome = true

def directory (s : Cached) (name : Text) : FilePath := s.store.root.child name

def slot (s : Cached) (name : Text) (c : Catalog) : CacheFile :=
  c.fileAt ((s.directory name).child c.fileName)

variable {s : Cached} {name : Text} {c : Catalog} {w : World} {d : Disk} {remote : Text}

theorem Of.directory_good (h : s.Of name d) : (s.directory name).isAddressable = true :=
  FilePath.isAddressable_child h.root (Store.isAddressable_of_isAccountName h.valid)

theorem Of.slot_good (h : s.Of name d) (c : Catalog) : (s.slot name c).path.isAddressable = true :=
  FilePath.isAddressable_child h.directory_good c.isAddressable_fileName

theorem slot_name (s : Cached) (name : Text) (c : Catalog) :
    (s.slot name c).path.name = c.fileName := by
  simp [slot, Catalog.fileAt, FilePath.name, FilePath.child]

theorem Of.frame {places : Location → Prop} {d' : Disk} (h : s.Of name d)
    (hframe : Disk.Frame places d d') : s.Of name d' where
  account := h.account
  valid := h.valid
  root := h.root
  home := by rw [Disk.hasGoodHome, hframe.home]; exact h.home

/-! ## A small world -/

def sampleStore : Store := ⟨⟨"/", ["store"]⟩⟩

/-- A client of one account. -/
def sample (lifetime : Duration) : Cached := ⟨.text "ana", sampleStore, fun _ => lifetime⟩

/-- A remote that has some entries in every catalog. -/
def sampleAnswers (lists : Catalog → List Value) : Request → Reply
  | .collection c => .ok (.value (.list (lists c)))
  | .item c uri => match (lists c).find? (hasAddress uri) with
    | some v => .ok (.value v)
    | none => .error (.notFound [])
  | .linkTypes | .fields | .serverInfo => .ok (.value (.list []))

def sampleWorld (lists : Catalog → List Value) : World where
  disk := Disk.empty 0
  now := 0
  faults := Faults.none
  remotes := fun _ _ => sampleAnswers lists
  server := fun _ _ => .error .endOfInput
  trace := []

theorem sample_of (lifetime : Duration) (lists : Catalog → List Value) :
    (sample lifetime).Of "ana" (sampleWorld lists).disk := ⟨rfl, rfl, rfl, rfl⟩

/-- The disk once the account has a directory. -/
def sampleDisk : Disk :=
  ⟨[([], .directory 0), (["store"], .directory 0), (["store", "ana"], .directory 0)], []⟩

theorem sample_file? (c : Catalog) (lifetime : Duration) (lists : Catalog → List Value) :
    ((sample lifetime).file? c).exec (sampleWorld lists) =
      (.ok (some ((sample lifetime).slot "ana" c)), (sampleWorld lists).on sampleDisk) := by
  cbv

/-! ## The directory -/

/-- What asking for the file of a catalog comes to. -/
structure Entered (s : Cached) (name : Text) (c : Catalog) (w : World) (f? : Option CacheFile)
    (d : Disk) : Prop where
  ends : (s.file? c).Ends w (.ok f?) d
  frame : Disk.Frame Disk.Nowhere w.disk d
  file : f? = none ∨ f? = some (s.slot name c) ∧ (w.faults .checkDirectory = none →
    ∃ m, d.status (s.directory name) = .ok (.directory m))

theorem exec_accountDirectory (h : s.Of name w.disk) :
    ∃ d, Disk.Frame Disk.Nowhere w.disk d ∧
      ((s.store.accountDirectory s.account).exec w = (.ok (s.directory name), w.on d) ∧
        (w.faults .checkDirectory = none →
          ∃ m, d.status (s.directory name) = .ok (.directory m)) ∨
      ∃ path cause, (s.store.accountDirectory s.account).exec w =
        (.error (.cacheWrite path cause), w.on d)) := by
  have hname : Store.accountName s.account = .ok name := by
    rw [h.account, Store.accountName_text h.valid]
  unfold Store.accountDirectory
  rw [hname, Action.exec_bind_ok (Action.exec_ofExcept _ w),
    Action.exec_bind_ok (Action.exec_get w)]
  cases hfault : w.faults .makeDirectory with
  | some fault =>
    exact ⟨_, Disk.ensureLevels_frame h.directory_good fault.kept, .inr ⟨_, _, rfl⟩⟩
  | none =>
    cases hmake : w.disk.ensureDirectories w.faults (s.directory name) w.now with
    | mk d r =>
      obtain ⟨hframe, hthere, herror⟩ := Disk.ensureDirectories_spec h.directory_good hmake
      refine ⟨d, hframe, ?_⟩
      have hmake' : w.disk.ensureDirectories w.faults (s.store.root.child name) w.now = (d, r) :=
        hmake
      simp only [hmake']
      cases r with
      | ok => exact .inl ⟨rfl, hthere rfl⟩
      | error e =>
        obtain ⟨e', rfl⟩ := herror e rfl
        exact .inr ⟨_, _, rfl⟩

theorem exec_file_ok {w' : World}
    (h : (s.store.accountDirectory s.account).exec w = (.ok (s.directory name), w'))
    (c : Catalog) : (s.store.file s.account c).exec w = (.ok (s.slot name c), w') := by
  unfold Store.file Store.pathFor
  rw [Action.exec_bind_ok (by rw [Action.exec_bind_ok h]; rfl)]
  rfl

theorem exec_file_error {e : Failure} {w' : World}
    (h : (s.store.accountDirectory s.account).exec w = (.error e, w')) (c : Catalog) :
    (s.store.file s.account c).exec w = (.error e, w') := by
  unfold Store.file Store.pathFor
  rw [Action.exec_bind_error (by rw [Action.exec_bind_error h])]

theorem entered_file? (h : s.Of name w.disk) (c : Catalog) :
    ∃ f? d, s.Entered name c w f? d := by
  obtain ⟨d, hframe, ⟨hexec, hthere⟩ | ⟨path, cause, hexec⟩⟩ := exec_accountDirectory h
  · have hfile := exec_file_ok hexec c
    refine ⟨some (s.slot name c), d, .of_exec (x := .ok (s.slot name c)) ?_ ?_, hframe,
      .inr ⟨rfl, hthere⟩⟩
    · rw [Action.exec_attempt, hfile]
    · exact Action.says_of_exec rfl
  · have hfile := exec_file_error hexec c
    refine ⟨none, d, .of_exec (x := .error (.cacheWrite path cause)) ?_ ?_, hframe, .inl rfl⟩
    · rw [Action.exec_attempt, hfile]
    · exact .bind (Action.says_log ..) fun _ => Action.says_of_exec rfl

theorem exec_file?_there (h : s.Of name w.disk) (hmake : w.faults .makeDirectory = none)
    (hcheck : w.faults .checkDirectory = none) {m : Instant}
    (hthere : w.disk.status (s.directory name) = .ok (.directory m)) (c : Catalog) :
    (s.file? c).exec w = (.ok (some (s.slot name c)), w) := by
  have hname : Store.accountName s.account = .ok name := by
    rw [h.account, Store.accountName_text h.valid]
  have hensure : w.disk.ensureDirectories w.faults (s.store.root.child name) w.now =
      (w.disk, .ok ()) := Disk.ensureDirectories_there h.directory_good hcheck hthere
  have hdirectory : (s.store.accountDirectory s.account).exec w = (.ok (s.directory name), w) := by
    unfold Store.accountDirectory
    rw [hname, Action.exec_bind_ok (Action.exec_ofExcept _ w),
      Action.exec_bind_ok (Action.exec_get w), hmake]
    simp only [hensure]
    rfl
  have hfile := exec_file_ok hdirectory c
  unfold file?
  rw [Action.exec_bind_ok (Action.exec_attempt _ w), hfile]
  rfl

/-- A property of the file, if there can be one, and of the world by the time it is looked at. -/
def AtFile (s : Cached) (c : Catalog) (w : World) (p : CacheFile → World → Prop) : Prop :=
  ∀ f w', (s.file? c).exec w = (.ok (some f), w') → p f w'

theorem Entered.atFile_iff {f? : Option CacheFile} (h : s.Entered name c w f? d)
    {p : CacheFile → World → Prop} (hp : ∀ f w lines, p f (World.logged w lines) ↔ p f w) :
    s.AtFile c w p ↔ ∀ f, f? = some f → p f (w.on d) := by
  obtain ⟨lines, hexec⟩ := h.ends
  constructor
  · rintro hall f rfl
    exact (hp f _ lines).mp (hall f _ hexec)
  · intro hall f w' hexec'
    obtain ⟨hf, rfl⟩ := Prod.mk.inj (hexec.symm.trans hexec')
    exact (hp f _ lines).mpr (hall f (Except.ok.inj hf))

/-! ## The look at the file -/

/-- What a look finds in the file, if there is one. -/
def looked (s : Cached) (c : Catalog) (w : World) :
    Option CacheFile → Except Failure (Option (List Value))
  | none => .ok none
  | some f => f.look (s.lifetimes c) w

theorem says_fresh? (s : Cached) (c : Catalog) (f? : Option CacheFile) (w : World) :
    (s.fresh? c f?).Says w (s.looked c w f?) := by
  cases f? with
  | none => exact Action.says_of_exec rfl
  | some f =>
  unfold fresh? looked CacheFile.look
  dsimp only
  have hyoung := CacheFile.says_isFresh f (s.lifetimes c) w
  cases hresult : f.youngIn (s.lifetimes c) w with
  | error e =>
    rw [hresult] at hyoung
    exact hyoung.bind_error
  | ok young =>
    rw [hresult] at hyoung
    refine .bind hyoung fun lines => ?_
    cases young with
    | false => exact Action.says_of_exec rfl
    | true =>
      refine .bind (CacheFile.says_read f _).attempt fun more => ?_
      have hread : f.readIn (w.logged lines) = f.readIn w := rfl
      rw [hread]
      cases f.readIn w with
      | ok v => cases v <;> exact Action.says_of_exec rfl
      | error e =>
        cases e with
        | cacheRead path cause =>
          exact .bind (Action.says_log ..) fun _ => Action.says_of_exec rfl
        | _ => exact Action.says_of_exec rfl

theorem exec_fresh? (s : Cached) (c : Catalog) (f? : Option CacheFile) (w : World)
    (lines : List LogLine) :
    ∃ more, (s.fresh? c f?).exec (w.logged lines) = (s.looked c w f?, w.logged more) := by
  obtain ⟨more, hfresh⟩ := says_fresh? s c f? (w.logged lines)
  have hlooked : s.looked c (w.logged lines) f? = s.looked c w f? := by
    cases f? <;> rfl
  rw [hlooked, World.logged_logged] at hfresh
  exact ⟨_, hfresh⟩

/-! ## Keeping what was fetched -/

/-- What the attempt to keep values comes to. -/
inductive Keeps (c : Catalog) (f : CacheFile) (vs : List Value) (w : World) :
    Except Failure Unit → World → Prop
  | unpacked {e : Failure} (packs : vs.mapM (Stored.ofAnswered c.stored) = .error e) :
    Keeps c f vs w (.error e) w
  | unwritten {packed : List Value} {path : FilePath} {cause : WriteCause} (lines : List LogLine)
    (packs : vs.mapM (Stored.ofAnswered c.stored) = .ok packed)
    (encodes : f.encode (.list packed) = .error (.cacheWrite path cause)) :
    Keeps c f vs w (.ok ()) (w.logged lines)
  | tooDeep {packed : List Value} (lines : List LogLine)
    (packs : vs.mapM (Stored.ofAnswered c.stored) = .ok packed)
    (encodes : f.encode (.list packed) = .error .valueDepth) :
    Keeps c f vs w (.error .valueDepth) (w.logged lines)
  | broken {packed : List Value} {t : Text} {e : SystemError} {d : Disk} (lines : List LogLine)
    (packs : vs.mapM (Stored.ofAnswered c.stored) = .ok packed)
    (encodes : f.encode (.list packed) = .ok t)
    (outcome : Save.Outcome ⟨f.path, t, w.faults, w.now⟩ w.disk (.error (.system e)) d)
    (ran : Save.run ⟨f.path, t, w.faults, w.now⟩ w.disk = (d, .error (.system e))) :
    Keeps c f vs w (.ok ()) ((w.on d).logged lines)
  | unencodable {packed : List Value} {t : Text} {u : Unencodable} {d : Disk}
    (lines : List LogLine) (packs : vs.mapM (Stored.ofAnswered c.stored) = .ok packed)
    (encodes : f.encode (.list packed) = .ok t)
    (outcome : Save.Outcome ⟨f.path, t, w.faults, w.now⟩ w.disk (.error (.unencodable u)) d)
    (ran : Save.run ⟨f.path, t, w.faults, w.now⟩ w.disk = (d, .error (.unencodable u))) :
    Keeps c f vs w (.error (.file (.unencodable u))) ((w.on d).logged lines)
  | saved {packed : List Value} {t : Text} {d : Disk} (lines : List LogLine)
    (packs : vs.mapM (Stored.ofAnswered c.stored) = .ok packed)
    (encodes : f.encode (.list packed) = .ok t)
    (outcome : Save.Outcome ⟨f.path, t, w.faults, w.now⟩ w.disk (.ok ()) d)
    (ran : Save.run ⟨f.path, t, w.faults, w.now⟩ w.disk = (d, .ok ())) :
    Keeps c f vs w (.ok ()) (((w.on d).logged lines).record (.saved f.path))

theorem exec_keep (h : s.Of name w.disk) (c : Catalog) (vs : List Value) :
    Keeps c (s.slot name c) vs w ((s.keep c (s.slot name c) vs).exec w).1
      ((s.keep c (s.slot name c) vs).exec w).2 := by
  unfold keep
  cases hpack : vs.mapM (Stored.ofAnswered c.stored) with
  | error e =>
    rw [Action.exec_bind_error (Action.exec_ofExcept _ w)]
    exact .unpacked hpack
  | ok packed =>
    rw [Action.exec_bind_ok (Action.exec_ofExcept _ w)]
    cases hencode : (s.slot name c).encode (.list packed) with
    | error e =>
      obtain ⟨lines, hput⟩ := CacheFile.says_put_error hencode w
      rw [Action.exec_bind_ok (by rw [Action.exec_attempt, CacheFile.exec_write, hput])]
      rcases CacheFile.encode_error hencode with ⟨cause, rfl⟩ | rfl | ⟨-, hindent⟩
      · simp only [Result.exceptMap_error, Action.exec_log, World.logged_logged]
        exact .unwritten _ hpack hencode
      · exact .tooDeep lines hpack hencode
      · exact absurd (hindent.symm.trans Codec.canIndent_tolerant) Bool.false_ne_true
    | ok t =>
      cases hrun : Save.run ⟨(s.slot name c).path, t, w.faults, w.now⟩ w.disk with
      | mk d r =>
        have houtcome := Save.run_outcome (s := ⟨(s.slot name c).path, t, w.faults, w.now⟩)
          (d := w.disk) ⟨h.slot_good c, h.home, slot_name s name c ▸ c.isAddressable_fileName⟩
        rw [hrun] at houtcome
        obtain ⟨lines, hput⟩ := CacheFile.exec_put hencode w hrun
        cases r with
        | ok =>
          rw [Action.exec_bind_ok (by rw [Action.exec_attempt, CacheFile.exec_write, hput])]
          exact .saved lines hpack hencode houtcome hrun
        | error e =>
          cases e with
          | system e =>
            rw [Action.exec_bind_ok (by rw [Action.exec_attempt, CacheFile.exec_write, hput])]
            simp only [Result.exceptMap_error, Action.exec_log, World.logged_logged]
            exact .broken _ hpack hencode houtcome hrun
          | unencodable u =>
            rw [Action.exec_bind_ok (by rw [Action.exec_attempt, CacheFile.exec_write, hput])]
            exact .unencodable lines hpack hencode houtcome hrun
          | nullByte =>
            cases houtcome with
            | broken why => cases why

/-! ## Whole calls -/

/-- What a call goes on with if it has found nothing. -/
def fetched (s : Cached) (c : Catalog) (f? : Option CacheFile) (fetch : Action Answer) :
    Action Answer := do
  let values ← Action.ofExcept (← fetch).collect
  match f? with
  | some f => s.keep c f values
  | none => pure ()
  return .value (.list values)

theorem exec_fetched (s : Cached) (c : Catalog) (f? : Option CacheFile) {fetch : Action Answer}
    {w w' : World} {r : Reply} (hfetch : fetch.exec w = (r, w')) :
    (s.fetched c f? fetch).exec w = match r >>= Answer.collect with
      | .error e => (.error e, w')
      | .ok vs => match f? with
        | none => (.ok (.value (.list vs)), w')
        | some f => (((s.keep c f vs).exec w').1.map fun _ => .value (.list vs),
            ((s.keep c f vs).exec w').2) := by
  unfold fetched
  cases r with
  | error e => exact Action.exec_bind_error hfetch _
  | ok a =>
    rw [Action.exec_bind_ok hfetch, Action.exec_bind, Action.exec_ofExcept, Result.bind_ok]
    cases a.collect with
    | error e => rfl
    | ok vs =>
      cases f? with
      | none => rfl
      | some f =>
        dsimp only
        rw [Action.exec_bind]
        cases (s.keep c f vs).exec w' with
        | mk r w'' => cases r <;> rfl

theorem exec_collection_steps {f? : Option CacheFile} {w₁ w₂ : World}
    {r : Except Failure (Option (List Value))} (hfile : (s.file? c).exec w = (.ok f?, w₁))
    (fetch : Action Answer) : (s.fresh? c f?).exec w₁ = (r, w₂) →
    (s.collection c fetch).exec w = match r with
      | .error e => (.error e, w₂)
      | .ok (some items) => (.ok (.value (.list (items.map Stored.toAnswered))),
          w₂.logged [⟨.debug, .cachedClient,
            List.flatten ["Cache hit for ", c.label, " (", s.who, ")"]⟩])
      | .ok none => (s.fetched c f? fetch).exec (w₂.logged [⟨.debug, .cachedClient,
          List.flatten ["Cache miss for ", c.label, " (", s.who, "), fetching"]⟩]) := by
  intro hfresh
  unfold collection
  rw [Action.exec_bind_ok hfile]
  cases r with
  | error e => exact Action.exec_bind_error hfresh _
  | ok items? =>
    rw [Action.exec_bind_ok hfresh]
    cases items? with
    | some items =>
      dsimp only
      rw [Action.exec_bind_ok (Action.exec_log ..)]
      rfl
    | none =>
      dsimp only
      rw [Action.exec_bind_ok (Action.exec_log ..)]
      rfl

theorem exec_collection_eq {f? : Option CacheFile} (hfile : (s.file? c).Ends w (.ok f?) d)
    (fetch : Action Answer) :
    ∃ lines, (s.collection c fetch).exec w = match s.looked c (w.on d) f? with
      | .error e => (.error e, (w.on d).logged lines)
      | .ok (some items) =>
        (.ok (.value (.list (items.map Stored.toAnswered))), (w.on d).logged lines)
      | .ok none => (s.fetched c f? fetch).exec ((w.on d).logged lines) := by
  obtain ⟨lines, hfile⟩ := hfile
  obtain ⟨more, hfresh⟩ := exec_fresh? s c f? (w.on d) lines
  rw [exec_collection_steps hfile fetch hfresh]
  cases s.looked c (w.on d) f? with
  | error e => exact ⟨_, rfl⟩
  | ok items? =>
    cases items? with
    | some items =>
      dsimp only
      rw [World.logged_logged]
      exact ⟨_, rfl⟩
    | none =>
      dsimp only
      rw [World.logged_logged]
      exact ⟨_, rfl⟩

/-- What the client below answers to a request for a catalog, as a list. -/
def reply (w : World) (remote : Text) (c : Catalog) : Except Failure (List Value) :=
  w.remotes remote (w.askedOf remote) (.collection c) >>= Answer.collect

/-- What a call for all entries of a catalog comes to. -/
inductive Collects (s : Cached) (name : Text) (c : Catalog) (remote : Text) (w : World) :
    Except Failure Answer → World → Prop
  | hit {f? : Option CacheFile} {d : Disk} {items : List Value} (lines : List LogLine)
    (entered : s.Entered name c w f? d) (found : s.looked c (w.on d) f? = .ok (some items)) :
    Collects s name c remote w (.ok (.value (.list (items.map Stored.toAnswered))))
      ((w.on d).logged lines)
  | unread {f? : Option CacheFile} {d : Disk} {e : Failure} (lines : List LogLine)
    (entered : s.Entered name c w f? d) (failed : s.looked c (w.on d) f? = .error e) :
    Collects s name c remote w (.error e) ((w.on d).logged lines)
  | unanswered {f? : Option CacheFile} {d : Disk} {e : Failure} (lines : List LogLine)
    (entered : s.Entered name c w f? d) (missed : s.looked c (w.on d) f? = .ok none)
    (failed : reply w remote c = .error e) :
    Collects s name c remote w (.error e)
      (((w.on d).logged lines).record (.asked remote (.collection c)))
  | unkept {d : Disk} {vs : List Value} (lines : List LogLine) (entered : s.Entered name c w none d)
    (fetched : reply w remote c = .ok vs) :
    Collects s name c remote w (.ok (.value (.list vs)))
      (((w.on d).logged lines).record (.asked remote (.collection c)))
  | kept {d : Disk} {vs : List Value} {r : Except Failure Unit} {after : World}
    (lines : List LogLine) (entered : s.Entered name c w (some (s.slot name c)) d)
    (missed : s.looked c (w.on d) (some (s.slot name c)) = .ok none)
    (fetched : reply w remote c = .ok vs)
    (keeps : Keeps c (s.slot name c) vs
      (((w.on d).logged lines).record (.asked remote (.collection c))) r after) :
    Collects s name c remote w (r.map fun _ => .value (.list vs)) after

theorem askedOf_logged (w : World) (lines : List LogLine) (remote : Text) :
    (w.logged lines).askedOf remote = w.askedOf remote := by
  unfold World.askedOf World.logged
  rw [List.filterMap_append, List.append_right_eq_self, List.filterMap_eq_nil_iff]
  intro e he
  obtain ⟨line, -, rfl⟩ := List.mem_map.mp he
  rfl

/-- **Collections.** A call for all entries of a catalog comes to one of these ends. -/
theorem exec_collection (h : s.Of name w.disk) (c : Catalog) (remote : Text) :
    s.Collects name c remote w ((s.collection c (Action.ask remote (.collection c))).exec w).1
      ((s.collection c (Action.ask remote (.collection c))).exec w).2 := by
  obtain ⟨f?, d, hentered⟩ := entered_file? h c
  obtain ⟨lines, hexec⟩ := exec_collection_eq hentered.ends (Action.ask remote (.collection c))
  rw [hexec]
  cases hresult : s.looked c (w.on d) f? with
  | error e => exact .unread lines hentered hresult
  | ok items? =>
    cases items? with
    | some items => exact .hit lines hentered hresult
    | none =>
      dsimp only
      have hask : (Action.ask remote (.collection c)).exec ((w.on d).logged lines) =
          (w.remotes remote (w.askedOf remote) (.collection c),
            ((w.on d).logged lines).record (.asked remote (.collection c))) := by
        rw [Action.exec_ask, askedOf_logged]
        rfl
      rw [exec_fetched s c f? hask]
      cases hreply : reply w remote c with
      | error e =>
        rw [reply] at hreply
        rw [hreply]
        exact .unanswered lines hentered hresult hreply
      | ok vs =>
        rw [reply] at hreply
        rw [hreply]
        rcases hentered.file with rfl | ⟨rfl, -⟩
        · exact .unkept lines hentered hreply
        · exact .kept lines hentered hresult hreply
            (exec_keep (h.frame hentered.frame) c vs)

theorem exec_item_steps {f? : Option CacheFile} {w₁ w₂ : World}
    {r : Except Failure (Option (List Value))} (hfile : (s.file? c).exec w = (.ok f?, w₁))
    (uri : Value) (fetch : Action Answer) : (s.fresh? c f?).exec w₁ = (r, w₂) →
    (s.item c uri fetch).exec w = match r with
      | .error e => (.error e, w₂)
      | .ok items? => match (items?.getD []).find? (hasAddress uri) with
        | some entry => (.ok (.value (Stored.toAnswered entry)), w₂.logged [⟨.debug, .cachedClient,
            List.flatten ["Cache hit for ", c.label, " ", uri.display]⟩])
        | none => fetch.exec w₂ := by
  intro hfresh
  unfold item
  rw [Action.exec_bind_ok hfile]
  cases r with
  | error e => exact Action.exec_bind_error hfresh _
  | ok items? =>
    rw [Action.exec_bind_ok hfresh]
    dsimp only
    cases (items?.getD []).find? (hasAddress uri) with
    | some entry =>
      dsimp only
      rw [Action.exec_bind_ok (Action.exec_log ..)]
      rfl
    | none => rfl

theorem exec_item_eq {f? : Option CacheFile} (hfile : (s.file? c).Ends w (.ok f?) d) (uri : Value)
    (fetch : Action Answer) :
    ∃ lines, (s.item c uri fetch).exec w = match s.looked c (w.on d) f? with
      | .error e => (.error e, (w.on d).logged lines)
      | .ok items? => match (items?.getD []).find? (hasAddress uri) with
        | some entry => (.ok (.value (Stored.toAnswered entry)), (w.on d).logged lines)
        | none => fetch.exec ((w.on d).logged lines) := by
  obtain ⟨lines, hfile⟩ := hfile
  obtain ⟨more, hfresh⟩ := exec_fresh? s c f? (w.on d) lines
  rw [exec_item_steps hfile uri fetch hfresh]
  cases s.looked c (w.on d) f? with
  | error e => exact ⟨_, rfl⟩
  | ok items? =>
    dsimp only
    cases (items?.getD []).find? (hasAddress uri) with
    | some entry =>
      dsimp only
      rw [World.logged_logged]
      exact ⟨_, rfl⟩
    | none => exact ⟨_, rfl⟩

/-- What a call for one entry of a catalog comes to. -/
inductive Picks (s : Cached) (name : Text) (c : Catalog) (uri : Value) (remote : Text) (w : World) :
    Except Failure Answer → World → Prop
  | hit {f? : Option CacheFile} {d : Disk} {items : List Value} {entry : Value}
    (lines : List LogLine) (entered : s.Entered name c w f? d)
    (found : s.looked c (w.on d) f? = .ok (some items))
    (first : items.find? (hasAddress uri) = some entry) :
    Picks s name c uri remote w (.ok (.value (Stored.toAnswered entry))) ((w.on d).logged lines)
  | unread {f? : Option CacheFile} {d : Disk} {e : Failure} (lines : List LogLine)
    (entered : s.Entered name c w f? d) (failed : s.looked c (w.on d) f? = .error e) :
    Picks s name c uri remote w (.error e) ((w.on d).logged lines)
  | asked {f? : Option CacheFile} {d : Disk} {items? : Option (List Value)} (lines : List LogLine)
    (entered : s.Entered name c w f? d) (looked : s.looked c (w.on d) f? = .ok items?)
    (missed : (items?.getD []).find? (hasAddress uri) = none) :
    Picks s name c uri remote w (w.remotes remote (w.askedOf remote) (.item c uri))
      (((w.on d).logged lines).record (.asked remote (.item c uri)))

/-- **Items.** A call for one entry of a catalog comes to one of these ends. -/
theorem exec_item (h : s.Of name w.disk) (c : Catalog) (uri : Value) (remote : Text) :
    s.Picks name c uri remote w ((s.item c uri (Action.ask remote (.item c uri))).exec w).1
      ((s.item c uri (Action.ask remote (.item c uri))).exec w).2 := by
  obtain ⟨f?, d, hentered⟩ := entered_file? h c
  obtain ⟨lines, hexec⟩ := exec_item_eq hentered.ends uri (Action.ask remote (.item c uri))
  rw [hexec]
  cases hresult : s.looked c (w.on d) f? with
  | error e => exact .unread lines hentered hresult
  | ok items? =>
    dsimp only
    cases hfirst : (items?.getD []).find? (hasAddress uri) with
    | some entry =>
      cases items? with
      | some items => exact .hit lines hentered hresult hfirst
      | none => simp at hfirst
    | none =>
      dsimp only
      rw [Action.exec_ask, askedOf_logged]
      exact .asked lines hentered hresult hfirst

end CatalogCache.Cached
