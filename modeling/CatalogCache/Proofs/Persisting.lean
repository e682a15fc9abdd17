import CatalogCache.Proofs.CachedCalls

/-!
# Fetched lists come back

Whatever the system does while a fetched list is kept, the list is returned. What does get in the
way is a text that has no bytes, and a file whose age is out of range.
-/

namespace CatalogCache

/-- A write gets as far as the bytes of the values in a temporary file, and there are none. -/
structure CacheFile.Trips (f : CacheFile) (vs : List Value) (w : World) : Prop where
  surrogate : (Value.list vs).HasSurrogate
  short : (Value.list vs).hasLongInteger = false
  created : ∃ r, w.faults.guard .createTemp (w.disk.createTemp f.path w.now) = .ok r
  opened : w.faults .openTemp = none

theorem CacheFile.trips_trace (f : CacheFile) (vs : List Value) (w : World) (trace : List Event) :
    f.Trips vs { w with trace := trace } ↔ f.Trips vs w :=
  ⟨fun h => ⟨h.surrogate, h.short, h.created, h.opened⟩,
    fun h => ⟨h.surrogate, h.short, h.created, h.opened⟩⟩

theorem Cached.Keeps.result {c : Catalog} {path : FilePath} {vs : List Value} {w after : World}
    {r : Except Failure Unit} (h : Cached.Keeps c (c.fileAt path) vs w r after)
    (hentries : c.Entries vs) :
    r = .ok () ∧ ¬(c.fileAt path).Trips vs w ∨
      (∃ u, r = .error (.file (.unencodable u))) ∧ (c.fileAt path).Trips vs w := by
  cases h with
  | unpacked packs =>
    obtain ⟨packed, hpack, -⟩ := c.packedAll hentries
    exact absurd (packs.symm.trans hpack) (nofun)
  | unwritten lines packs encodes =>
    obtain ⟨-, hlong⟩ := hentries.tooLong packs encodes
    exact .inl ⟨rfl, fun htrips => by simp [htrips.short] at hlong⟩
  | tooDeep lines packs encodes => exact absurd rfl (hentries.tooLong packs encodes).1
  | broken lines packs encodes outcome =>
    obtain ⟨hwrites, -⟩ := hentries.writes packs encodes
    refine .inl ⟨rfl, fun htrips => ?_⟩
    cases outcome with
    | notCreated e hfail =>
      obtain ⟨_, hcreated⟩ := htrips.created
      exact absurd (hfail.symm.trans hcreated) (nofun)
    | broken why =>
      cases why with
      | unopened e fault hfault => exact absurd (hfault.symm.trans htrips.opened) (nofun)
      | system e bytes hbytes => exact hwrites.encodable_iff.mp ⟨bytes, hbytes⟩ htrips.surrogate
  | @unencodable _ _ u _ lines packs encodes outcome =>
    obtain ⟨hwrites, hshort⟩ := hentries.writes packs encodes
    cases outcome with
    | broken why created =>
      cases why with
      | unencodable _ opened hfail =>
        have hsurrogate : (Value.list vs).HasSurrogate := by
          by_contra hnone
          obtain ⟨bytes, hbytes⟩ := hwrites.encodable_iff.mpr hnone
          exact absurd (hfail.symm.trans hbytes) (nofun)
        exact .inr ⟨⟨u, rfl⟩, hsurrogate, hshort, created, opened⟩
  | saved lines packs encodes outcome =>
    obtain ⟨hwrites, -⟩ := hentries.writes packs encodes
    cases outcome with
    | saved hbytes =>
      exact .inl ⟨rfl, fun htrips => hwrites.encodable_iff.mp ⟨_, hbytes⟩ htrips.surrogate⟩

namespace Cached

variable {s : Cached} {name : Text} {c : Catalog} {w : World} {remote : Text}

theorem looked_of_stale {f? : Option CacheFile} {d : Disk} (h : s.Of name w.disk)
    (hentered : s.Entered name c w f? d)
    (hstale : s.AtFile c w fun f w' => f.youngIn (s.lifetimes c) w' ≠ .ok true) :
    s.looked c (w.on d) f? = .ok none ∧ s.AtFile c w CacheFile.Timely ∨
      (∃ e, s.looked c (w.on d) f? = .error e) ∧ ¬s.AtFile c w CacheFile.Timely := by
  rw [hentered.atFile_iff fun _ _ _ => .rfl] at hstale ⊢
  rcases hentered.file with rfl | ⟨rfl, -⟩
  · exact .inl ⟨rfl, nofun⟩
  have hyoung := hstale _ rfl
  have htimely := CacheFile.timely_iff (w := w.on d) (h.slot_good c) (s.lifetimes c)
  have hlook : s.looked c (w.on d) (some (s.slot name c)) = _ := CacheFile.look_of_not_young hyoung
  rw [hlook]
  cases hresult : (s.slot name c).youngIn (s.lifetimes c) (w.on d) with
  | ok young =>
    refine .inl ⟨rfl, ?_⟩
    rintro _ ⟨⟩
    exact htimely.mpr ⟨young, hresult⟩
  | error e =>
    refine .inr ⟨⟨e, rfl⟩, fun hall => ?_⟩
    obtain ⟨young, hok⟩ := htimely.mp (hall _ rfl)
    exact absurd (hok.symm.trans hresult) (nofun)

/-- **Fetched lists.** Where no fresh file is found, the call returns the list that it fetches if
and only if the age of the file is in range and the write does not trip. If it trips, that is what
the call fails with. -/
theorem collection_returns_iff (h : s.Of name w.disk)
    (hstale : s.AtFile c w fun f w' => f.youngIn (s.lifetimes c) w' ≠ .ok true)
    {vs : List Value} (hreply : reply w remote c = .ok vs) (hentries : c.Entries vs) :
    let result := (((Client.cached s (.remote remote)).answer (.collection c)).exec w).1
    (result = .ok (.value (.list vs)) ↔
      s.AtFile c w CacheFile.Timely ∧ s.AtFile c w fun f w' => ¬f.Trips vs w') ∧
    (s.AtFile c w CacheFile.Timely → (¬s.AtFile c w fun f w' => ¬f.Trips vs w') →
      ∃ u, result = .error (.file (.unencodable u))) := by
  intro result
  obtain ⟨after, hcall⟩ : ∃ after, s.Collects name c remote w result after :=
    ⟨_, exec_collection h c remote⟩
  clear_value result
  cases hcall with
  | hit lines entered found =>
    rcases looked_of_stale h entered hstale with ⟨hnone, -⟩ | ⟨⟨e, herror⟩, -⟩
    · exact absurd (found.symm.trans hnone) (nofun)
    · exact absurd (found.symm.trans herror) (nofun)
  | unread lines entered failed =>
    rcases looked_of_stale h entered hstale with ⟨hnone, -⟩ | ⟨-, hrange⟩
    · exact absurd (failed.symm.trans hnone) (nofun)
    · exact ⟨⟨nofun, fun hall => absurd hall.1 hrange⟩, fun hall => absurd hall hrange⟩
  | unanswered lines entered missed failed => exact absurd (hreply.symm.trans failed) (nofun)
  | unkept lines entered fetched =>
    obtain rfl := Except.ok.inj (hreply.symm.trans fetched)
    rcases looked_of_stale h entered hstale with ⟨-, htimely⟩ | ⟨⟨_, ⟨⟩⟩, -⟩
    · have hplain : s.AtFile c w fun f w' => ¬f.Trips vs w' := by
        rw [entered.atFile_iff fun f w lines => not_congr (CacheFile.trips_trace f vs w _)]
        exact nofun
      exact ⟨⟨fun _ => ⟨htimely, hplain⟩, fun _ => rfl⟩, fun _ htrips => absurd hplain htrips⟩
  | @kept d _ _ _ lines entered missed fetched keeps =>
    obtain rfl := Except.ok.inj (hreply.symm.trans fetched)
    have hfile : (s.AtFile c w fun f w' => ¬f.Trips vs w') ↔
        ¬(s.slot name c).Trips vs (w.on d) := by
      rw [entered.atFile_iff fun f w lines => not_congr (CacheFile.trips_trace f vs w _)]
      simp
    have htimely : s.AtFile c w CacheFile.Timely := by
      rcases looked_of_stale h entered hstale with ⟨-, htimely⟩ | ⟨⟨e, herror⟩, -⟩
      · exact htimely
      · exact absurd (missed.symm.trans herror) (nofun)
    rw [hfile]
    have hasked := CacheFile.trips_trace (s.slot name c) vs (w.on d)
    rcases keeps.result hentries with ⟨rfl, hplain⟩ | ⟨⟨u, rfl⟩, htrips⟩
    · replace hplain := mt (hasked _).mpr hplain
      exact ⟨⟨fun _ => ⟨htimely, hplain⟩, fun _ => rfl⟩, fun _ hnot => absurd hplain hnot⟩
    · replace htrips := (hasked _).mp htrips
      exact ⟨⟨nofun, fun hall => absurd htrips hall.2⟩, fun _ _ => ⟨u, rfl⟩⟩

/-- A resolution whose name is a lone surrogate. -/
def nameless : Value := .record .resolution [.text "/1", .int 1, .text [0xd800], .null]

theorem nameless_not_returned : ∃ u,
    (((Client.cached (sample .zero) (.remote "jira")).answer (.collection .resolutions)).exec
      (sampleWorld fun _ => [nameless])).1 = .error (.file (.unencodable u)) := by
  have hfile := sample_file? .resolutions .zero fun _ => [nameless]
  have hat : ∀ {p : CacheFile → World → Prop},
      p ((sample .zero).slot "ana" .resolutions) ((sampleWorld fun _ => [nameless]).on sampleDisk) →
        (sample .zero).AtFile .resolutions (sampleWorld fun _ => [nameless]) p := by
    intro p hp f w' hexec
    cases hfile.symm.trans hexec
    exact hp
  have hmissing : ((sample .zero).slot "ana" .resolutions).ageIn
      ((sampleWorld fun _ => [nameless]).on sampleDisk) = .ok none := by
    cbv
  have hentries : Catalog.resolutions.Entries [nameless] := by
    rintro _ (_ | ⟨_, ⟨⟩⟩)
    exact Stored.inhabits_record
      (.cons (.text _) (.cons (.optional (.int 1)) (.cons (.text _) (.cons (.null _) .nil))))
  have hyoung : ((sample .zero).slot "ana" .resolutions).youngIn .zero
      ((sampleWorld fun _ => [nameless]).on sampleDisk) = .ok false := by
    rw [CacheFile.youngIn, hmissing]
  have hcreated : (sampleDisk.createTemp ((sample .zero).slot "ana" .resolutions).path 0).isOk =
      true := by
    cbv
  have hreply : reply (sampleWorld fun _ => [nameless]) "jira" .resolutions = .ok [nameless] := rfl
  refine (collection_returns_iff (sample_of .zero fun _ => [nameless]) (hat ?_) hreply
    hentries).2 (hat ?_) fun hplain => hplain _ _ hfile ⟨?_, by decide, ?_, rfl⟩
  · rw [show (sample .zero).lifetimes .resolutions = .zero from rfl, hyoung]
    simp
  · have hgood := (sample_of .zero fun _ => [nameless]).slot_good
    exact (CacheFile.timely_iff (hgood _) .zero).mpr ⟨_, hyoung⟩
  · exact ⟨[0xd800], by simp [nameless, Value.texts, Value.itemTexts], 0xd800, by simp, by decide⟩
  · cases hcreate : sampleDisk.createTemp ((sample .zero).slot "ana" .resolutions).path 0 with
    | ok r => exact ⟨r, hcreate⟩
    | error e =>
      rw [hcreate] at hcreated
      cases hcreated

end Cached

end CatalogCache
