import CatalogCache.CacheFile
import CatalogCache.Proofs.Actions
import CatalogCache.Proofs.Saving
import CatalogCache.Proofs.StoredRoundTrip
import CatalogCache.Proofs.Utf8

/-!
# Reading and writing cache files

What a cache file gives is a function of the disk, the clock and the faults. What is written for a
list of a catalog is read back as the list.
-/

namespace CatalogCache.CacheFile

variable {f : CacheFile} {w : World}

/-! ## Looking -/

theorem isYoung_iff {age lifetime : Duration} : isYoung age lifetime = true ↔
    -(2 * Duration.microsPerSecond) ≤ age.micros ∧ max age.micros 0 < lifetime.micros := by
  rw [isYoung, Bool.and_eq_true, decide_eq_true_iff, decide_eq_true_iff]
  rfl

def youngIn (f : CacheFile) (lifetime : Duration) (w : World) : Except Failure Bool :=
  match f.ageIn w with
  | .ok (some age) => .ok (isYoung age lifetime)
  | .ok none | .error (.file (.system _)) => .ok false
  | .error e => .error e

/-- The records in the file, if it is young and they can be read. -/
def look (f : CacheFile) (lifetime : Duration) (w : World) : Except Failure (Option (List Value)) :=
  match f.youngIn lifetime w with
  | .error e => .error e
  | .ok false => .ok none
  | .ok true => match f.readIn w with
    | .ok (.list items) => .ok (some items)
    | .ok _ | .error (.cacheRead ..) => .ok none
    | .error e => .error e

theorem youngIn_of_system {lifetime : Duration} {e : SystemError}
    (h : w.faults.guard .status (w.disk.status f.path) = .error (.system e)) :
    f.youngIn lifetime w = .ok false := by
  rw [youngIn, ageIn, h]
  dsimp only
  split_ifs <;> rfl

theorem says_isFresh (f : CacheFile) (lifetime : Duration) (w : World) :
    (f.isFresh lifetime).Says w (f.youngIn lifetime w) := by
  unfold isFresh youngIn
  refine .bind (Action.says_of_exec (Action.exec_get w)) fun lines => ?_
  cases f.ageIn w with
  | error e =>
    cases e with
    | file e =>
      cases e with
      | system e => exact .bind (Action.says_log ..) fun _ => Action.says_of_exec rfl
      | nullByte | unencodable => exact Action.says_of_exec rfl
    | _ => exact Action.says_of_exec rfl
  | ok age =>
    cases age with
    | none => exact Action.says_of_exec rfl
    | some age =>
      dsimp only
      split_ifs
      · exact .bind (Action.says_log ..) fun _ => Action.says_of_exec rfl
      · exact Action.says_of_exec rfl

theorem says_read (f : CacheFile) (w : World) : f.read.Says w (f.readIn w) := by
  refine .bind (Action.says_log ..) fun lines => ?_
  refine .bind (Action.says_of_exec (Action.exec_get _)) fun more => ?_
  exact Action.says_of_exec (Action.exec_ofExcept _ _)

theorem look_congr {w' : World} (hnow : w'.now = w.now) (hfaults : w'.faults = w.faults)
    (hstatus : w'.disk.status f.path = w.disk.status f.path) (lifetime : Duration) :
    f.look lifetime w' = f.look lifetime w := by
  have hread : w'.disk.read f.path = w.disk.read f.path := by
    rw [Disk.read, Disk.read, hstatus]
  have hage : f.ageIn w' = f.ageIn w := by
    rw [ageIn, ageIn, hnow, hfaults, hstatus]
  rw [look, look, youngIn, youngIn, hage, readIn, readIn, hread, hfaults]

theorem look_of_not_young {lifetime : Duration} (h : f.youngIn lifetime w ≠ .ok true) :
    f.look lifetime w = (f.youngIn lifetime w).map fun _ => none := by
  unfold look
  cases hyoung : f.youngIn lifetime w with
  | error e => rfl
  | ok young =>
    cases young with
    | true => exact absurd hyoung h
    | false => rfl

theorem look_of_young {lifetime : Duration} {bytes : List UInt8} {m : Instant} {age : Duration}
    {items : List Value} (hstatus : w.faults .status = none) (hread : w.faults .read = none)
    (hfile : w.disk.status f.path = .ok (.file bytes m))
    (hage : Duration.since? w.now m = .ok age) (hyoung : isYoung age lifetime = true)
    (hdecode : f.decode bytes = .ok (.list items)) : f.look lifetime w = .ok (some items) := by
  have hbytes : w.disk.read f.path = .ok bytes := by simp [Disk.read, hfile]
  have hageIn : f.ageIn w = .ok (some age) := by
    simp [ageIn, Faults.guard, hstatus, hfile, Node.modified, hage]
  simp [look, youngIn, hageIn, hyoung, readIn, Faults.guard, hread, hbytes, hdecode]

theorem look_of_old {lifetime : Duration} {bytes : List UInt8} {m : Instant} {age : Duration}
    (hstatus : w.faults .status = none) (hfile : w.disk.status f.path = .ok (.file bytes m))
    (hage : Duration.since? w.now m = .ok age) (hold : isYoung age lifetime = false) :
    f.look lifetime w = .ok none := by
  have hageIn : f.ageIn w = .ok (some age) := by
    simp [ageIn, Faults.guard, hstatus, hfile, Node.modified, hage]
  simp [look, youngIn, hageIn, hold]

theorem status_of_ageIn {age : Duration} (h : f.ageIn w = .ok (some age)) :
    ∃ n, w.disk.status f.path = .ok n ∧ Duration.since? w.now n.modified = .ok age := by
  unfold ageIn at h
  split at h
  · next n hn =>
    refine ⟨n, Disk.guard_ok hn, ?_⟩
    cases hage : Duration.since? w.now n.modified with
    | error e => simp [hage] at h
    | ok age' => simpa [hage] using h
  · split_ifs at h
    cases h
  · cases h

theorem bytes_of_readIn {v : Value} (h : f.readIn w = .ok v) :
    ∃ bytes m, w.disk.status f.path = .ok (.file bytes m) ∧ f.decode bytes = .ok v := by
  unfold readIn at h
  split at h
  · next bytes hbytes =>
    obtain ⟨m, hstatus⟩ := Disk.status_of_read (Disk.guard_ok hbytes)
    exact ⟨bytes, m, hstatus, h⟩
  · cases h
  · cases h

theorem error_of_readIn (hgood : f.path.isAddressable = true) {e : Failure}
    (h : f.readIn w = .error e) : (∃ path cause, e = .cacheRead path cause) ∨
      ∃ bytes m, w.disk.status f.path = .ok (.file bytes m) ∧ f.decode bytes = .error e := by
  unfold readIn at h
  split at h
  · next bytes hbytes =>
    obtain ⟨m, hstatus⟩ := Disk.status_of_read (Disk.guard_ok hbytes)
    exact .inr ⟨bytes, m, hstatus, h⟩
  · exact .inl ⟨_, _, (Except.error.inj h).symm⟩
  · next e' hno hread =>
    obtain ⟨e'', rfl⟩ := Disk.guard_error (fun e h' => Disk.read_error hgood h') hread
    exact absurd rfl (hno e'')

/-- The age of the file can be told, if it is there. -/
def Timely (f : CacheFile) (w : World) : Prop :=
  ∀ n, w.faults.guard .status (w.disk.status f.path) = .ok n →
    ∃ age, Duration.since? w.now n.modified = .ok age

theorem timely_iff (hgood : f.path.isAddressable = true) (lifetime : Duration) :
    f.Timely w ↔ ∃ young, f.youngIn lifetime w = .ok young := by
  unfold Timely
  cases hstatus : w.faults.guard .status (w.disk.status f.path) with
  | ok n =>
    constructor
    · intro h
      obtain ⟨age, hage⟩ := h n rfl
      exact ⟨isYoung age lifetime, by simp [youngIn, ageIn, hstatus, hage]⟩
    · rintro ⟨young, hyoung⟩ n' hn
      obtain rfl : n = n' := Except.ok.inj hn
      cases hage : Duration.since? w.now n.modified with
      | ok age => exact ⟨age, rfl⟩
      | error e => simp [youngIn, ageIn, hstatus, hage] at hyoung
  | error e =>
    obtain ⟨e, rfl⟩ := Disk.guard_error (fun e h => Disk.status_error hgood h) hstatus
    exact ⟨fun _ => ⟨false, youngIn_of_system hstatus⟩, fun _ n hn => nomatch hn⟩

theorem age_of_youngIn {lifetime : Duration} (h : f.youngIn lifetime w = .ok true) :
    ∃ age, f.ageIn w = .ok (some age) ∧ isYoung age lifetime = true := by
  unfold youngIn at h
  split at h
  · next age hage => exact ⟨age, hage, Except.ok.inj h⟩
  · cases h
  · cases h
  · cases h

theorem young_of_look {lifetime : Duration} {items : List Value}
    (h : f.look lifetime w = .ok (some items)) :
    ∃ bytes m age, w.disk.status f.path = .ok (.file bytes m) ∧
      Duration.since? w.now m = .ok age ∧ isYoung age lifetime = true ∧
      f.decode bytes = .ok (.list items) := by
  unfold look at h
  split at h
  · cases h
  · cases h
  · next hyoungIn =>
    obtain ⟨age, hage, hyoung⟩ := age_of_youngIn hyoungIn
    split at h
    · next items' hitems =>
      cases h
      obtain ⟨n, hstatus, hmicros⟩ := status_of_ageIn hage
      obtain ⟨bytes, m, hstatus', hdecode⟩ := bytes_of_readIn hitems
      rw [hstatus] at hstatus'
      cases hstatus'
      exact ⟨bytes, m, age, hstatus, hmicros, hyoung, hdecode⟩
    · cases h
    · cases h
    · cases h

theorem error_of_look (hgood : f.path.isAddressable = true) {lifetime : Duration} {e : Failure}
    (h : f.look lifetime w = .error e) :
    f.youngIn lifetime w = .error e ∨
      ∃ bytes m, w.disk.status f.path = .ok (.file bytes m) ∧ f.decode bytes = .error e := by
  unfold look at h
  split at h
  · next hyoung => exact .inl (hyoung.trans (congrArg _ (Except.error.inj h)))
  · cases h
  · split at h
    · cases h
    · cases h
    · cases h
    · next e' hno hread =>
      cases h
      rcases error_of_readIn hgood hread with ⟨path, cause, rfl⟩ | hbytes
      · exact absurd rfl (hno path cause)
      · exact .inr hbytes

theorem decode_of_look_error (hgood : f.path.isAddressable = true) {lifetime : Duration}
    {e : Failure} (htimely : f.Timely w) (h : f.look lifetime w = .error e) :
    ∃ bytes m, w.disk.status f.path = .ok (.file bytes m) ∧ f.decode bytes = .error e := by
  rcases error_of_look hgood h with hage | hbytes
  · obtain ⟨young, hyoung⟩ := (timely_iff hgood lifetime).mp htimely
    exact absurd (hyoung.symm.trans hage) nofun
  · exact hbytes

theorem look_of_no_file (hgood : f.path.isAddressable = true) {lifetime : Duration}
    (htimely : f.Timely w) (hno : ∀ bytes m, w.disk.status f.path ≠ .ok (.file bytes m)) :
    f.look lifetime w = .ok none := by
  cases hlook : f.look lifetime w with
  | ok items? =>
    cases items? with
    | none => rfl
    | some items =>
      obtain ⟨bytes, m, -, hfile, -⟩ := young_of_look hlook
      exact absurd hfile (hno bytes m)
  | error e =>
    obtain ⟨bytes, m, hfile, -⟩ := decode_of_look_error hgood htimely hlook
    exact absurd hfile (hno bytes m)

/-! ## Writing -/

theorem encode_ok_iff {v : Value} {t : Text} :
    f.encode v = .ok t ↔ f.codec.encode v = .ok t := by
  unfold encode
  cases f.codec.encode v <;> simp

theorem encode_error {v : Value} {e : Failure} (h : f.encode v = .error e) :
    (∃ cause, e = .cacheWrite f.path cause) ∨ e = .valueDepth ∨
      e = .indent ∧ f.codec.canIndent = false := by
  unfold encode at h
  cases hencode : f.codec.encode v with
  | ok t => simp [hencode] at h
  | error e' =>
    rw [hencode] at h
    cases e' with
    | codec e' => exact .inl ⟨_, (Except.error.inj h).symm⟩
    | depth => exact .inr (.inl (Except.error.inj h).symm)
    | indent => exact .inr (.inr ⟨(Except.error.inj h).symm, Codec.canIndent_of_indent hencode⟩)

theorem exec_replace (f : CacheFile) (t : Text) (w : World) {d : Disk} {r : Except FileError Unit}
    (hrun : Save.run ⟨f.path, t, w.faults, w.now⟩ w.disk = (d, r)) :
    (f.replace t).exec w = (r.mapError fun
      | .system e => .cacheWrite f.path (.file e)
      | e => .file e, w.on d) := by
  unfold replace
  rw [Action.exec_bind_ok (Action.exec_get w)]
  simp only [hrun]
  rw [Action.exec_bind_ok (Action.exec_set _ w)]
  cases r with
  | ok => rfl
  | error e => cases e <;> rfl

theorem exec_put {v : Value} {t : Text} (hencode : f.encode v = .ok t) (w : World)
    {d : Disk} {r : Except FileError Unit}
    (hrun : Save.run ⟨f.path, t, w.faults, w.now⟩ w.disk = (d, r)) :
    ∃ lines, (f.put v).exec w = match r with
      | .ok () => (.ok v, ((w.on d).logged lines).record (.saved f.path))
      | .error (.system e) => (.error (.cacheWrite f.path (.file e)), (w.on d).logged lines)
      | .error e => (.error (.file e), (w.on d).logged lines) := by
  refine ⟨[⟨.debug, .cacheFile, List.flatten ["Writing cache ", f.path.toText]⟩], ?_⟩
  unfold put
  rw [Action.exec_bind_ok (Action.exec_log ..), hencode,
    Action.exec_bind_ok (Action.exec_ofExcept _ _)]
  have hreplace := exec_replace f t (w.logged
    [⟨.debug, .cacheFile, List.flatten ["Writing cache ", f.path.toText]⟩]) hrun
  cases r with
  | ok =>
    rw [Action.exec_bind_ok hreplace]
    rfl
  | error e => cases e <;> exact Action.exec_bind_error hreplace _

theorem says_put_error {v : Value} {e : Failure} (hencode : f.encode v = .error e)
    (w : World) : (f.put v).Says w (.error e) := by
  unfold put
  refine .bind (Action.says_log ..) fun lines => ?_
  rw [hencode]
  exact Action.Says.bind_error (Action.says_of_exec (Action.exec_ofExcept _ _))

theorem exec_write (f : CacheFile) (v : Value) (w : World) :
    (f.write v).exec w = (((f.put v).exec w).1.map fun _ => (), ((f.put v).exec w).2) :=
  Action.exec_map _ (f.put v) w

end CatalogCache.CacheFile

namespace CatalogCache

/-! ## Catalogs in files -/

/-- The values are records that the catalog is answered with. -/
def Catalog.Entries (c : Catalog) (vs : List Value) : Prop :=
  ∀ v ∈ vs, Inhabits v (.record c.entryClass)

def Catalog.fileAt (c : Catalog) (path : FilePath) : CacheFile :=
  ⟨path, .list (.record c.stored), Codec.tolerant⟩

/-- The text that is written for the entries of a catalog. -/
structure Catalog.Writes (c : Catalog) (vs packed : List Value) (t : Text) : Prop where
  records : List.Forall₂ (Stored.Packed c.stored) vs packed
  encoded : Codec.tolerant.encode (.list packed) = .ok t

theorem Catalog.isStored_stored (c : Catalog) : c.stored.isStored = true := by cases c <;> rfl

theorem Catalog.encode_packed {c : Catalog} {vs packed : List Value}
    (h : List.Forall₂ (Stored.Packed c.stored) vs packed) (path : FilePath) :
    ((c.fileAt path).encode (.list packed) =
        .error (.cacheWrite path (.codec (.unwritable "list" .longInteger))) ∧
      (Value.list vs).hasLongInteger = true) ∨
    ∃ t, (c.fileAt path).encode (.list packed) = .ok t ∧ c.Writes vs packed t ∧
      (Value.list vs).hasLongInteger = false := by
  rcases encode_stored Codec.canIndent_tolerant c.isStored_stored (Stored.inhabits_of_packed h) with
    ⟨hencode, hlong⟩ | ⟨t, hencode, hlong, -⟩
  · exact .inl ⟨by simp [CacheFile.encode, fileAt, hencode], Stored.long_of_packed h ▸ hlong⟩
  · exact .inr ⟨t, by simp [CacheFile.encode, fileAt, hencode], ⟨h, hencode⟩,
      Stored.long_of_packed h ▸ hlong⟩

section

variable {c : Catalog} {vs packed : List Value} {path : FilePath}

theorem Catalog.Entries.forall_packed (h : c.Entries vs)
    (hpack : vs.mapM (Stored.ofAnswered c.stored) = .ok packed) :
    List.Forall₂ (Stored.Packed c.stored) vs packed := by
  obtain ⟨packed', hpack', hpacked⟩ := c.packedAll h
  obtain rfl := Except.ok.inj (hpack.symm.trans hpack')
  exact hpacked

theorem Catalog.Entries.writes (h : c.Entries vs)
    (hpack : vs.mapM (Stored.ofAnswered c.stored) = .ok packed) {t : Text}
    (hencode : (c.fileAt path).encode (.list packed) = .ok t) :
    c.Writes vs packed t ∧ (Value.list vs).hasLongInteger = false := by
  rcases encode_packed (h.forall_packed hpack) path with ⟨hfail, -⟩ | ⟨t', hencode', hwrites⟩
  · exact absurd (hencode.symm.trans hfail) (nofun)
  · obtain rfl := Except.ok.inj (hencode.symm.trans hencode')
    exact hwrites

theorem Catalog.Entries.tooLong (h : c.Entries vs)
    (hpack : vs.mapM (Stored.ofAnswered c.stored) = .ok packed) {e : Failure}
    (hencode : (c.fileAt path).encode (.list packed) = .error e) :
    e ≠ .valueDepth ∧ (Value.list vs).hasLongInteger = true := by
  rcases encode_packed (h.forall_packed hpack) path with ⟨hfail, hlong⟩ | ⟨t, hencode', -⟩
  · obtain rfl := Except.error.inj (hencode.symm.trans hfail)
    exact ⟨nofun, hlong⟩
  · exact absurd (hencode.symm.trans hencode') (nofun)

end

/-- **Round trip.** The bytes that are written for the entries of a catalog read as the records that
stand for them. -/
theorem Catalog.Writes.decode {c : Catalog} {vs packed : List Value} {t : Text} {bytes : List UInt8}
    (h : c.Writes vs packed t) (hbytes : Utf8.encode t = .ok bytes) (path : FilePath) :
    (c.fileAt path).decode bytes = .ok (.list packed) := by
  rcases encode_stored Codec.canIndent_tolerant c.isStored_stored
    (Stored.inhabits_of_packed h.records) with
    ⟨hencode, -⟩ | ⟨t', hencode, -, hlines, hdecode, -⟩
  · exact absurd (h.encoded.symm.trans hencode) (nofun)
  · obtain rfl : t = t' := Except.ok.inj (h.encoded.symm.trans hencode)
    simp [CacheFile.decode, Utf8.decode_of_encode hbytes, fileAt, hlines, hdecode]

theorem Catalog.Writes.encodable_iff {c : Catalog} {vs packed : List Value} {t : Text}
    (h : c.Writes vs packed t) :
    (∃ bytes, Utf8.encode t = .ok bytes) ↔ ¬(Value.list vs).HasSurrogate := by
  rcases encode_stored Codec.canIndent_tolerant c.isStored_stored
    (Stored.inhabits_of_packed h.records) with
    ⟨hencode, -⟩ | ⟨t', hencode, -, -, -, hsurrogate⟩
  · exact absurd (h.encoded.symm.trans hencode) (nofun)
  · obtain rfl : t = t' := Except.ok.inj (h.encoded.symm.trans hencode)
    rw [Utf8.encode_ok_iff, hsurrogate, Value.HasSurrogate, Value.HasSurrogate,
      Stored.texts_of_packed h.records]

end CatalogCache
