import CatalogCache.Proofs.Ages
import CatalogCache.Proofs.DecodedValues
import CatalogCache.Proofs.LongIntegers
import CatalogCache.Proofs.Persisting

/-!
# Whatever a file holds

A fresh file may hold any bytes. They are read as a list of records, or discarded and fetched anew;
only an integer with too many digits gets through to the caller as a failure.
-/

namespace CatalogCache

/-! ## Reading -/

/-- Whoever reads the bytes stops at an integer with so many digits. -/
def StopsAtInteger (bytes : List UInt8) (n : Nat) : Prop :=
  ∃ t, Utf8.decode bytes = .ok t ∧ Json.read t.unifyLines = .error (.longInteger n)

theorem StopsAtInteger.run {bytes : List UInt8} {n : Nat} (h : StopsAtInteger bytes n) :
    Integer.maxDigits < n ∧
      ∃ t, Utf8.decode bytes = .ok t ∧ Json.HasRun n t.unifyLines := by
  obtain ⟨t, ht, hread⟩ := h
  obtain ⟨hlong, hrun⟩ := Json.read_longInteger hread
  exact ⟨hlong, t, ht, hrun⟩

namespace CacheFile

variable {f : CacheFile} {bytes : List UInt8} {w : World}

theorem decode_of_stops {n : Nat} (h : StopsAtInteger bytes n) :
    f.decode bytes = .error (.longInteger n) := by
  obtain ⟨t, ht, hread⟩ := h
  simp [decode, ht, Codec.decode, hread]

/-- What becomes of the bytes of a file. -/
inductive Decodes (f : CacheFile) (bytes : List UInt8) : Except Failure Value → Prop
  | value {v : Value} (h : Inhabits v f.shape) : Decodes f bytes (.ok v)
  | discarded (cause : ReadCause) : Decodes f bytes (.error (.cacheRead f.path cause))
  | stopped {n : Nat} (h : StopsAtInteger bytes n) : Decodes f bytes (.error (.longInteger n))

theorem decodes (f : CacheFile) (bytes : List UInt8) : f.Decodes bytes (f.decode bytes) := by
  unfold decode
  cases ht : Utf8.decode bytes with
  | error e => exact .discarded _
  | ok t =>
    dsimp only
    cases hdecode : f.codec.decode t.unifyLines f.shape with
    | ok v => exact .value (Codec.inhabits_of_decode hdecode)
    | error e =>
      cases e with
      | codec e => exact .discarded _
      | longInteger n =>
        refine .stopped ⟨t, ht, ?_⟩
        unfold Codec.decode at hdecode
        split at hdecode
        · cases hdecode
        · cases hdecode
        · next hread =>
          cases hdecode
          exact hread
        · next j _ =>
          cases hshape : f.codec.decodeShape f.shape j with
          | ok v => simp [hshape] at hdecode
          | error e => simp [hshape] at hdecode

def HoldsFresh (f : CacheFile) (lifetime : Duration) (w : World) (bytes : List UInt8) : Prop :=
  ∃ m age, w.disk.status f.path = .ok (.file bytes m) ∧
    Duration.since? w.now m = .ok age ∧ isYoung age lifetime = true

theorem HoldsFresh.frame {lifetime : Duration} (h : f.HoldsFresh lifetime w bytes)
    (hgood : f.path.isAddressable = true) {d : Disk}
    (hframe : Disk.Frame Disk.Nowhere w.disk d) : f.HoldsFresh lifetime (w.on d) bytes := by
  obtain ⟨m, age, hfile, hyoung⟩ := h
  exact ⟨m, age, hframe.status_file hgood hfile, hyoung⟩

theorem HoldsFresh.readIn {lifetime : Duration} (h : f.HoldsFresh lifetime w bytes) :
    f.readIn w = match w.faults .read with
      | some fault => .error (.cacheRead f.path (.file fault.error))
      | none => f.decode bytes := by
  obtain ⟨m, age, hfile, -⟩ := h
  have hbytes : w.disk.read f.path = .ok bytes := by simp [Disk.read, hfile]
  cases hread : w.faults .read <;> simp [CacheFile.readIn, Faults.guard, hread, hbytes]

theorem HoldsFresh.youngIn {lifetime : Duration} (h : f.HoldsFresh lifetime w bytes) :
    f.youngIn lifetime w = .ok (w.faults .status).isNone := by
  obtain ⟨m, age, hfile, hage, hyoung⟩ := h
  cases hstatus : w.faults .status with
  | none =>
    simp [CacheFile.youngIn, ageIn, Faults.guard, hstatus, hfile, Node.modified, hage, hyoung]
  | some fault => exact youngIn_of_system (by rw [Faults.guard, hstatus])

theorem HoldsFresh.look_error_iff {lifetime : Duration} (h : f.HoldsFresh lifetime w bytes)
    {e : Failure} : f.look lifetime w = .error e ↔
      w.faults .status = none ∧ w.faults .read = none ∧
        ∃ n, e = .longInteger n ∧ StopsAtInteger bytes n := by
  have hno : ∀ {r}, f.decode bytes = r → (∀ n, r ≠ .error (.longInteger n)) →
      ¬∃ n, e = .longInteger n ∧ StopsAtInteger bytes n := by
    rintro r rfl hr ⟨n, -, hstops⟩
    exact hr n (decode_of_stops hstops)
  simp only [look, h.youngIn, h.readIn]
  cases hstatus : w.faults .status with
  | some fault => simp
  | none =>
    cases hread : w.faults .read with
    | some fault => simp
    | none =>
      have hdecodes := f.decodes bytes
      cases hdecode : f.decode bytes with
      | ok v =>
        have hnone := hno hdecode fun n => by simp
        cases v <;> simp [hnone]
      | error e' =>
        rw [hdecode] at hdecodes
        cases hdecodes with
        | discarded cause =>
          have hnone := hno hdecode fun n => by simp
          simp [hnone]
        | @stopped n hstops =>
          constructor
          · rintro ⟨⟩
            exact ⟨rfl, rfl, n, rfl, hstops⟩
          · rintro ⟨-, -, n', rfl, hstops'⟩
            rw [← hdecode, decode_of_stops hstops']
            rfl

theorem HoldsFresh.found {lifetime : Duration} (h : f.HoldsFresh lifetime w bytes)
    {items : List Value} (hfound : f.look lifetime w = .ok (some items)) :
    f.decode bytes = .ok (.list items) := by
  obtain ⟨m, age, hfile, -⟩ := h
  obtain ⟨bytes', m', age', hfile', -, -, hdecode⟩ := young_of_look hfound
  cases hfile.symm.trans hfile'
  exact hdecode

end CacheFile

/-! ## Calls -/

namespace Cached

variable {s : Cached} {name : Text} {c : Catalog} {w : World} {remote : Text} {bytes : List UInt8}

/-- A call gets as far as the bytes of the file. -/
def ReadsBytes (s : Cached) (c : Catalog) (w : World) : Prop :=
  (∃ f w', (s.file? c).exec w = (.ok (some f), w')) ∧ w.faults .status = none ∧
    w.faults .read = none

theorem looked_error_iff {f? : Option CacheFile} {d : Disk} (h : s.Of name w.disk)
    (hentered : s.Entered name c w f? d)
    (hfresh : (s.slot name c).HoldsFresh (s.lifetimes c) w bytes) {e : Failure} :
    s.looked c (w.on d) f? = .error e ↔
      s.ReadsBytes c w ∧ ∃ n, e = .longInteger n ∧ StopsAtInteger bytes n := by
  obtain ⟨lines, hexec⟩ := hentered.ends
  rcases hentered.file with rfl | ⟨rfl, -⟩
  · constructor
    · rintro ⟨⟩
    · rintro ⟨⟨⟨f, w', hexec'⟩, -⟩, -⟩
      cases hexec.symm.trans hexec'
  · have hlook := (hfresh.frame (h.slot_good c) hentered.frame).look_error_iff (e := e)
    have hfile : ∃ f w', (s.file? c).exec w = (.ok (some f), w') := ⟨_, _, hexec⟩
    simp only [ReadsBytes, hfile, true_and, and_assoc]
    exact hlook

theorem looked_found {f? : Option CacheFile} {d : Disk} (h : s.Of name w.disk)
    (hentered : s.Entered name c w f? d)
    (hfresh : (s.slot name c).HoldsFresh (s.lifetimes c) w bytes) {items : List Value}
    (hfound : s.looked c (w.on d) f? = .ok (some items)) :
    (s.slot name c).decode bytes = .ok (.list items) := by
  rcases hentered.file with rfl | ⟨rfl, -⟩
  · cases hfound
  · exact (hfresh.frame (h.slot_good c) hentered.frame).found hfound

/-- A call that fails if and only if it reads bytes that stop the reader, and else is answered
well. -/
structure FailsIfStopped (s : Cached) (c : Catalog) (w : World) (bytes : List UInt8)
    (good : Answer → Prop) (r : Except Failure Answer) : Prop where
  fails : ∀ e, r = .error e ↔
    s.ReadsBytes c w ∧ ∃ n, e = .longInteger n ∧ StopsAtInteger bytes n
  answers : ∀ a, r = .ok a → good a

theorem failsIfStopped_of_ok {f? : Option CacheFile} {d : Disk} (h : s.Of name w.disk)
    (hentered : s.Entered name c w f? d)
    (hfresh : (s.slot name c).HoldsFresh (s.lifetimes c) w bytes) {items? : Option (List Value)}
    (hlooked : s.looked c (w.on d) f? = .ok items?) {good : Answer → Prop} {a : Answer}
    (hgood : good a) : s.FailsIfStopped c w bytes good (.ok a) where
  fails := fun e => by
    rw [← looked_error_iff h hentered hfresh, hlooked]
    exact iff_of_false nofun nofun
  answers := by
    rintro _ ⟨⟩
    exact hgood

theorem failsIfStopped_of_error {f? : Option CacheFile} {d : Disk} {e : Failure}
    (h : s.Of name w.disk) (hentered : s.Entered name c w f? d)
    (hfresh : (s.slot name c).HoldsFresh (s.lifetimes c) w bytes)
    (hlooked : s.looked c (w.on d) f? = .error e) (good : Answer → Prop) :
    s.FailsIfStopped c w bytes good (.error e) where
  fails := fun e' => by
    rw [← looked_error_iff h hentered hfresh, hlooked]
    simp
  answers := nofun

theorem collection_content (h : s.Of name w.disk)
    (hfresh : (s.slot name c).HoldsFresh (s.lifetimes c) w bytes) {vs : List Value}
    (hreply : reply w remote c = .ok vs) (hentries : c.Entries vs)
    (hplain : ¬(Value.list vs).HasSurrogate) :
    s.FailsIfStopped c w bytes (fun a => a = .value (.list vs) ∨
      ∃ items, (s.slot name c).decode bytes = .ok (.list items) ∧
        a = .value (.list (items.map Stored.toAnswered)))
      ((s.collection c (Action.ask remote (.collection c))).exec w).1 := by
  obtain ⟨after, hcall⟩ : ∃ after, s.Collects name c remote w
    ((s.collection c (Action.ask remote (.collection c))).exec w).1 after :=
      ⟨_, exec_collection h c remote⟩
  generalize ((s.collection c (Action.ask remote (.collection c))).exec w).1 = result at hcall ⊢
  cases hcall with
  | hit lines entered found =>
    exact failsIfStopped_of_ok h entered hfresh found
      (.inr ⟨_, looked_found h entered hfresh found, rfl⟩)
  | unread lines entered failed => exact failsIfStopped_of_error h entered hfresh failed _
  | unanswered lines entered missed failed => exact absurd (hreply.symm.trans failed) nofun
  | @unkept d _ lines entered fetched =>
    obtain rfl := Except.ok.inj (hreply.symm.trans fetched)
    have hnone : s.looked c (w.on d) none = .ok none := rfl
    exact failsIfStopped_of_ok h entered hfresh hnone (.inl rfl)
  | kept lines entered missed fetched keeps =>
    obtain rfl := Except.ok.inj (hreply.symm.trans fetched)
    rcases keeps.result hentries with ⟨rfl, -⟩ | ⟨-, htrips⟩
    · exact failsIfStopped_of_ok h entered hfresh missed (.inl rfl)
    · exact absurd htrips.surrogate hplain

theorem item_content (h : s.Of name w.disk)
    (hfresh : (s.slot name c).HoldsFresh (s.lifetimes c) w bytes) {uri : Value} {a : Answer}
    (hanswer : w.remotes remote (w.askedOf remote) (.item c uri) = .ok a) :
    s.FailsIfStopped c w bytes (fun a' => a' = a ∨
      ∃ items entry, (s.slot name c).decode bytes = .ok (.list items) ∧
        items.find? (hasAddress uri) = some entry ∧ a' = .value (Stored.toAnswered entry))
      ((s.item c uri (Action.ask remote (.item c uri))).exec w).1 := by
  obtain ⟨after, hcall⟩ : ∃ after, s.Picks name c uri remote w
    ((s.item c uri (Action.ask remote (.item c uri))).exec w).1 after :=
  ⟨_, exec_item h c uri remote⟩
  generalize ((s.item c uri (Action.ask remote (.item c uri))).exec w).1 = result at hcall ⊢
  cases hcall with
  | hit lines entered found first =>
    exact failsIfStopped_of_ok h entered hfresh found
      (.inr ⟨_, _, looked_found h entered hfresh found, first, rfl⟩)
  | unread lines entered failed => exact failsIfStopped_of_error h entered hfresh failed _
  | asked lines entered looked =>
    rw [hanswer]
    exact failsIfStopped_of_ok h entered hfresh looked (.inl rfl)

/-- What a read should come to: records of the catalog, or the failure that every caller expects. -/
def CleanRead (c : Catalog) (path : FilePath) (r : Except Failure Value) : Prop :=
  (∃ items, r = .ok (.list items) ∧ ∀ v ∈ items, Inhabits v (.record c.stored)) ∨
    ∃ cause, r = .error (.cacheRead path cause)

theorem read_content (hfresh : (s.slot name c).HoldsFresh (s.lifetimes c) w bytes) :
    CleanRead c (s.slot name c).path ((s.slot name c).read.exec w).1 ↔
      ¬(w.faults .read = none ∧ ∃ n, StopsAtInteger bytes n) := by
  obtain ⟨lines, hread⟩ := CacheFile.says_read (s.slot name c) w
  rw [hread]
  dsimp only
  rw [hfresh.readIn]
  cases hfault : w.faults .read with
  | some fault => exact iff_of_true (.inr ⟨_, rfl⟩) (by simp)
  | none =>
    have hdecodes := (s.slot name c).decodes bytes
    cases hdecode : (s.slot name c).decode bytes with
    | ok v =>
      rw [hdecode] at hdecodes
      cases hdecodes with
      | value hinhabits =>
        refine iff_of_true (.inl ?_) ?_
        · cases hinhabits with
          | list hitems => exact ⟨_, rfl, hitems⟩
        · rintro ⟨-, n, hstops⟩
          exact absurd (hdecode.symm.trans (CacheFile.decode_of_stops hstops)) nofun
    | error e =>
      rw [hdecode] at hdecodes
      cases hdecodes with
      | discarded cause =>
        refine iff_of_true (.inr ⟨cause, rfl⟩) ?_
        rintro ⟨-, n, hstops⟩
        exact absurd (hdecode.symm.trans (CacheFile.decode_of_stops hstops)) nofun
      | stopped hstops =>
        exact iff_of_false (by rintro (⟨_, ⟨⟩, -⟩ | ⟨_, ⟨⟩⟩)) (by simpa using ⟨_, hstops⟩)

/-- **Contents.** Whatever bytes a fresh file holds, a read of it and the calls that come upon it do
well, unless they stop at an integer with too many digits. Then that is what they fail with. -/
theorem content_stops_iff (h : s.Of name w.disk)
    (hfresh : (s.slot name c).HoldsFresh (s.lifetimes c) w bytes) :
    (CleanRead c (s.slot name c).path ((s.slot name c).read.exec w).1 ↔
      ¬(w.faults .read = none ∧ ∃ n, StopsAtInteger bytes n)) ∧
    (∀ vs, reply w remote c = .ok vs → c.Entries vs → ¬(Value.list vs).HasSurrogate →
      s.FailsIfStopped c w bytes (fun a => a = .value (.list vs) ∨
        ∃ items, (s.slot name c).decode bytes = .ok (.list items) ∧
          a = .value (.list (items.map Stored.toAnswered)))
        (((Client.cached s (.remote remote)).answer (.collection c)).exec w).1) ∧
    (∀ uri a, w.remotes remote (w.askedOf remote) (.item c uri) = .ok a →
      s.FailsIfStopped c w bytes (fun a' => a' = a ∨
        ∃ items entry, (s.slot name c).decode bytes = .ok (.list items) ∧
          items.find? (hasAddress uri) = some entry ∧ a' = .value (Stored.toAnswered entry))
        (((Client.cached s (.remote remote)).answer (.item c uri)).exec w).1) ∧
    (∀ n, StopsAtInteger bytes n → Integer.maxDigits < n ∧
      ∃ t, Utf8.decode bytes = .ok t ∧ Json.HasRun n t.unifyLines) :=
  ⟨read_content hfresh,
    fun _ hreply hentries hplain => collection_content h hfresh hreply hentries hplain,
    fun _ _ hanswer => item_content h hfresh hanswer, fun _ hstops => hstops.run⟩

def sampleHolding (bytes : List UInt8) : World where
  __ := sampleWorld fun _ => []
  disk := sampleDisk.put ["store", "ana", "resolutions.json"] (.file bytes 0)

theorem ones_not_served : ∃ bytes,
    (((Client.cached (sample (.days 1)) (.remote "jira")).answer (.collection .resolutions)).exec
      (sampleHolding bytes)).1 = .error (.longInteger 4301) := by
  obtain ⟨t, hlength, hones⟩ : ∃ t : Text, t.length = 4301 ∧ ∀ c ∈ t, c = 0x31 :=
    ⟨List.replicate 4301 0x31, List.length_replicate, fun c hc => List.eq_of_mem_replicate hc⟩
  have hnumeral : t.IsNumeral := by
    refine ⟨?_, fun c hc => hones c hc ▸ rfl, fun hzero => ?_⟩
    · rintro rfl
      exact absurd hlength (by decide)
    · exact absurd (hones _ (List.mem_of_mem_head? hzero)) (by decide)
  obtain ⟨bytes, hbytes⟩ := (Utf8.encode_ok_iff t).mpr fun c hc => hones c hc ▸ rfl
  have hread := Json.read_longNumeral hnumeral (by rw [hlength]; decide)
  have hstops : StopsAtInteger bytes 4301 := by
    refine ⟨t, Utf8.decode_of_encode hbytes, ?_⟩
    rw [Text.unifyLines_of_not_mem fun hc => absurd (hones _ hc) (by decide), hread, hlength]
  have hof : (sample (.days 1)).Of "ana" (sampleHolding bytes).disk := ⟨rfl, rfl, rfl, rfl⟩
  have hdirectory : (sampleHolding bytes).disk.status ((sample (.days 1)).directory "ana") =
      .ok (.directory 0) := by
    cbv
  have hfile : (sampleHolding bytes).disk.status ((sample (.days 1)).slot "ana" .resolutions).path =
      .ok (.file bytes 0) := by
    cbv
  refine ⟨bytes, (((content_stops_iff hof ⟨0, .zero, hfile, Duration.since?_self 0, rfl⟩).2.1 []
    rfl (List.forall_mem_nil _) ?_).fails
    _).mpr ⟨⟨⟨_, _, exec_file?_there hof rfl rfl hdirectory .resolutions⟩, rfl, rfl⟩, _, rfl,
      hstops⟩⟩
  rintro ⟨_, ⟨⟩, -⟩

end Cached

end CatalogCache
