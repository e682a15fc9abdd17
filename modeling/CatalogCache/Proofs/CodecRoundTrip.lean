import CatalogCache.Proofs.Atomicity

/-!
# Reading undoes writing

What any codec writes for a list of stored records, it reads back as the list: from the text, and
from the file that the text went to.
-/

namespace CatalogCache

variable {codec : Codec} {cls : RecordClass} {vs : List Value} {t : Text}

theorem decode_of_encode_stored (hcls : cls.isStored = true)
    (h : ∀ v ∈ vs, Inhabits v (.record cls)) (hencode : codec.encode (.list vs) = .ok t) :
    t.unifyLines = t ∧ codec.decode t (.list (.record cls)) = .ok (.list vs) := by
  have hindent : codec.canIndent = true := Codec.canIndent_of_encode hencode rfl
  rcases encode_stored hindent hcls h with ⟨hfails, -⟩ | ⟨t', hencode', -, hlines, hdecode, -⟩
  · rw [hencode] at hfails
    cases hfails
  · obtain rfl : t = t' := Except.ok.inj (hencode.symm.trans hencode')
    exact ⟨hlines, hdecode codec⟩

namespace CacheFile

variable {f : CacheFile} {w : World}

theorem exec_read_of_file {bytes : List UInt8} {target : Location} {m : Instant}
    (hread : w.faults .read = none) (hfind : w.disk.find true f.path = .ok target)
    (hnode : w.disk.node? target = some (.file bytes m)) :
    (f.read.exec w).1 = f.decode bytes := by
  have hstatus : w.disk.status f.path = .ok (.file bytes m) := by
    rw [Disk.status, hfind, Result.bind_ok, hnode]
    rfl
  have hbytes : w.disk.read f.path = .ok bytes := by simp [Disk.read, hstatus]
  obtain ⟨lines, hexec⟩ := says_read f w
  simp [hexec, readIn, Faults.guard, hread, hbytes]

/-- **Round trip.** Decoding undoes encoding, and reading a file undoes the write that gave it its
content, by whatever path the file is found. The path of the write is one of them, unless it went
through a link that the file has replaced. -/
theorem stored_reads_back (codec : Codec) {cls : RecordClass} (hcls : cls.isStored = true)
    {vs : List Value} (h : ∀ v ∈ vs, Inhabits v (.record cls)) :
    (∀ t, codec.encode (.list vs) = .ok t →
      codec.decode t (.list (.record cls)) = .ok (.list vs)) ∧
    ∀ path w v w', ((⟨path, .list (.record cls), codec⟩ : CacheFile).put (.list vs)).exec w =
        (.ok v, w') →
      ∃ target, w.disk.locate false path = .ok target ∧
        (∀ p after, after.disk = w'.disk → after.faults .read = none →
          after.disk.find true p = .ok target →
          ((⟨p, .list (.record cls), codec⟩ : CacheFile).read.exec after).1 = .ok (.list vs)) ∧
        (w.disk.Direct path target → w'.disk.find true path = .ok target) := by
  refine ⟨fun t ht => (decode_of_encode_stored hcls h ht).2, fun path w v w' hput => ?_⟩
  obtain ⟨-, t, hencode, hended⟩ := put_ok hput
  obtain ⟨hlines, hdecode⟩ := decode_of_encode_stored hcls h (encode_ok_iff.mp hencode)
  obtain ⟨bytes, target, hbytes, htakes, hnode, -, hdirect⟩ := hended.succeeded
  refine ⟨target, htakes.leads, fun p after hdisk hread hfind => ?_, hdirect⟩
  rw [← hdisk] at hnode
  rw [exec_read_of_file hread hfind hnode]
  have hutf : Utf8.decode bytes = .ok t := Utf8.decode_of_encode hbytes
  simp [decode, hutf, hlines, hdecode]

/-- A status with a quote, a line feed and a backslash in its texts, and a category. -/
def sampleStatus : Value :=
  .record .storedStatus [.text "/\"1\"", .int (-12), .text "Open\n\\", .null, .null,
    .record .storedStatusCategory [.null, .int 2, .text "new", .text "", .null]]

theorem sampleStatus_inhabits : Inhabits sampleStatus (.record .storedStatus) := by
  have hcategory : Inhabits (.record .storedStatusCategory [.null, .int 2, .text "new", .text "",
      .null]) (.record .storedStatusCategory) :=
    Stored.inhabits_record (.cons (.null _) (.cons (.optional (.int _)) (.cons (.optional (.text _))
      (.cons (.optional (.text _)) (.cons (.null _) .nil)))))
  exact Stored.inhabits_record (.cons (.optional (.text _)) (.cons (.optional (.int _))
    (.cons (.optional (.text _)) (.cons (.null _) (.cons (.null _)
      (.cons (.optional hcategory) .nil))))))

/-- A file for statuses, with a strict codec that indents by less than nothing. -/
def sampleStatuses : CacheFile :=
  ⟨⟨"/", ["list.json"]⟩, .list (.record .storedStatus), ⟨some (-1), false, false⟩⟩

def sampleEmpty : World where
  disk := Disk.empty 0
  now := 0
  faults := Faults.none
  remotes := fun _ _ _ => .error .endOfInput
  server := fun _ _ => .error .endOfInput
  trace := []

set_option maxRecDepth 2000 in
theorem sampleStatus_written :
    ((sampleStatuses.put (.list [sampleStatus])).exec sampleEmpty).1.isOk = true := by
  cbv

theorem sampleStatus_reads_back : ∃ w,
    (sampleStatuses.read.exec w).1 = .ok (.list [sampleStatus]) := by
  have hall : ∀ v ∈ [sampleStatus], Inhabits v (.record .storedStatus) := by
    intro v hv
    obtain rfl := List.mem_singleton.mp hv
    exact sampleStatus_inhabits
  have hdone := sampleStatus_written
  have hleads : sampleEmpty.disk.locate false sampleStatuses.path = .ok ["list.json"] := by cbv
  cases hput : (sampleStatuses.put (.list [sampleStatus])).exec sampleEmpty with
  | mk r w =>
    rw [hput] at hdone
    cases r with
    | error e => cases hdone
    | ok v =>
      obtain ⟨target, htarget, hreads, hdirect⟩ :=
        (stored_reads_back ⟨some (-1), false, false⟩ rfl hall).2 _ sampleEmpty v w hput
      obtain rfl : target = ["list.json"] := Except.ok.inj (htarget.symm.trans hleads)
      have hnothing : ∀ n, sampleEmpty.disk.node? ["list.json"] ≠ some n :=
        fun n => (Option.some_ne_none n).symm
      have hfind := hdirect (Disk.direct_of_not_link hleads (hnothing <| .directory ·)
        (hnothing <| .link ·))
      exact ⟨{ w with faults := Faults.none }, hreads _ _ rfl rfl hfind⟩

end CacheFile

end CatalogCache
