import CatalogCache.Proofs.CallDiscipline
import CatalogCache.Proofs.Contents

/-!
# One entry and all entries

A call for one entry compares addresses in what is stored, where one may be missing. A call for all
entries gives what the stored records stand for, and there a missing address is an empty text. For
every other text both agree on which entries have it as their address.
-/

namespace CatalogCache

/-! ## Addresses -/

theorem Value.equal_text_iff {v : Value} {t : Text} : v.equal (.text t) = true ↔ v = .text t := by
  cases v <;> simp [Value.equal, Value.asInt?]

namespace Stored

open Cached (hasAddress)

variable {c : Catalog} {uri : Text} {v : Value}

theorem hasAddress_iff :
    hasAddress (.text uri) v = true ↔ v.property "self_uri" = .ok (.text uri) := by
  unfold hasAddress
  cases v.property "self_uri" with
  | ok address => rw [Value.equal_text_iff, Except.ok.injEq]
  | error e => exact iff_of_false Bool.false_ne_true nofun

theorem address_toAnswered (c : Catalog) (h : Inhabits v (.record c.stored)) :
    ∃ address, Inhabits address (.optional .text) ∧ v.property "self_uri" = .ok address ∧
      (toAnswered v).property "self_uri" = .ok address.orEmpty := by
  obtain ⟨fields, rfl, hfields⟩ := h.fields
  rw [List.forall₂_map_left_iff] at hfields
  cases fields with
  | nil => cases c <;> cases hfields
  | cons address rest =>
    have haddress : Inhabits address (.optional .text) := by
      cases c <;> exact (List.forall₂_cons.mp hfields).1
    refine ⟨address, haddress, by cases c <;> rfl, ?_⟩
    have hinner : unpackInner address = address := unpackInner_flat rfl haddress
    cases c with
    | statuses =>
      rw [Catalog.stored, toAnswered_status, List.map_cons, hinner]
      rfl
    | issueTypes | priorities | resolutions => rfl

theorem hasAddress_toAnswered (huri : uri ≠ []) (h : Inhabits v (.record c.stored)) :
    hasAddress (.text uri) (toAnswered v) = hasAddress (.text uri) v := by
  obtain ⟨address, haddress, hstored, hanswered⟩ := address_toAnswered c h
  rw [Bool.eq_iff_iff, hasAddress_iff, hasAddress_iff, hstored, hanswered, Except.ok.injEq,
    Except.ok.injEq]
  cases haddress with
  | null => exact iff_of_false (fun hempty => huri (Value.text.inj hempty).symm) nofun
  | optional htext =>
    cases htext with
    | text t =>
      cases t with
      | nil => rfl
      | cons first rest => rfl

theorem find?_toAnswered (huri : uri ≠ []) {items : List Value}
    (h : ∀ v ∈ items, Inhabits v (.record c.stored)) :
    (items.map toAnswered).find? (hasAddress (.text uri)) =
      (items.find? (hasAddress (.text uri))).map toAnswered := by
  rw [List.find?_map]
  congr 1
  induction items with
  | nil => rfl
  | cons v items ih =>
    rw [List.forall_mem_cons] at h
    rw [List.find?_cons, List.find?_cons, ih h.2, Function.comp_apply,
      hasAddress_toAnswered huri h.1]

theorem first_of_find? (huri : uri ≠ []) {items : List Value}
    (h : ∀ v ∈ items, Inhabits v (.record c.stored))
    (hfound : items.find? (hasAddress (.text uri)) = some v) :
    ∃ front back, items.map toAnswered = front ++ toAnswered v :: back ∧
      (∀ other ∈ front, other.property "self_uri" ≠ .ok (.text uri)) ∧
      (toAnswered v).property "self_uri" = .ok (.text uri) := by
  have hmapped := find?_toAnswered huri h
  rw [hfound, Option.map_some, List.find?_eq_some_iff_append] at hmapped
  obtain ⟨haddress, front, back, hsplit, hbefore⟩ := hmapped
  refine ⟨front, back, hsplit, fun other hother hsame => ?_, hasAddress_iff.mp haddress⟩
  have hno := hbefore other hother
  rw [hasAddress_iff.mpr hsame] at hno
  cases hno

theorem find?_of_answered (huri : uri ≠ []) {items : List Value}
    (h : ∀ v ∈ items, Inhabits v (.record c.stored)) {entry : Value}
    (hentry : entry ∈ items.map toAnswered)
    (haddress : entry.property "self_uri" = .ok (.text uri)) :
    ∃ v, items.find? (hasAddress (.text uri)) = some v := by
  have hsome : ((items.map toAnswered).find? (hasAddress (.text uri))).isSome := by
    rw [List.find?_isSome]
    exact ⟨entry, hentry, hasAddress_iff.mpr haddress⟩
  rw [find?_toAnswered huri h, Option.isSome_map] at hsome
  exact Option.isSome_iff_exists.mp hsome

end Stored

/-! ## Calls that ask nobody -/

namespace Cached

variable {s : Cached} {name remote uri : Text} {c : Catalog} {w : World} {d : Disk}

/-- What calls for one entry and for all entries start with: the file, and a look at it. -/
def glance (s : Cached) (c : Catalog) : Action (Option (List Value)) := do
  s.fresh? c (← s.file? c)

/-- No question has reached a remote. -/
def AsksNobody (call : Reply × World) (w : World) : Prop :=
  call.2.trace.filterMap Event.question? = w.trace.filterMap Event.question?

theorem asksNobody_logged {r : Reply} (lines : List LogLine) :
    AsksNobody (r, (w.on d).logged lines) w := by
  unfold AsksNobody World.logged World.on
  rw [List.filterMap_append, questions_logs, List.append_nil]

theorem looked_of_glance {items? : Option (List Value)} {after : World}
    (h : (s.glance c).exec w = (.ok items?, after)) :
    ∃ f? d, (s.file? c).Ends w (.ok f?) d ∧ s.looked c (w.on d) f? = .ok items? ∧
      ∀ items, items? = some items → ∀ v ∈ items, Inhabits v (.record c.stored) := by
  obtain ⟨r, d, hfile, -, hslot⟩ := s.ends_whatever c w
  obtain ⟨lines, hexec⟩ := hfile
  cases r with
  | error e =>
    rw [glance, Action.exec_bind_error hexec] at h
    cases h
  | ok f? =>
    obtain ⟨more, hfresh⟩ := exec_fresh? s c f? (w.on d) lines
    rw [glance, Action.exec_bind_ok hexec, hfresh] at h
    obtain ⟨hlooked, -⟩ := Prod.mk.inj h
    refine ⟨f?, d, ⟨lines, hexec⟩, hlooked, ?_⟩
    rintro items rfl
    cases f? with
    | none => cases hlooked
    | some f =>
      obtain ⟨name, -, rfl, -⟩ := hslot f rfl
      obtain ⟨bytes, m, age, -, -, -, hdecode⟩ := CacheFile.young_of_look hlooked
      have hdecodes := CacheFile.decodes (s.slot name c) bytes
      rw [hdecode] at hdecodes
      cases hdecodes with
      | value h => cases h with
        | list h => exact h

theorem asks_asking (s : Cached) (f? : Option CacheFile) (q : Request) (lines : List LogLine) :
    ¬AsksNobody ((s.asking f? (Action.ask remote q) q).exec ((w.on d).logged lines)) w := by
  obtain ⟨events, hquiet, hafter⟩ := s.exec_asking f? (exec_ask_on remote q w d lines) q
  have htrace : ((s.asking f? (Action.ask remote q) q).exec ((w.on d).logged lines)).2.trace =
      w.trace ++ (lines.map Event.log ++ [.asked remote q]) ++ events := by
    rcases hafter with hafter | ⟨_, _, _, -, -, hafter⟩ <;> rw [hafter] <;> rfl
  intro hnobody
  rw [AsksNobody, htrace] at hnobody
  simp only [List.filterMap_append, questions_logs, hquiet, List.append_nil,
    List.append_right_eq_self] at hnobody
  cases hnobody

section

variable (remote) {f? : Option CacheFile} {items? : Option (List Value)}

theorem collection_alone (hfile : (s.file? c).Ends w (.ok f?) d)
    (hlooked : s.looked c (w.on d) f? = .ok items?) :
    (AsksNobody ((s.collection c (Action.ask remote (.collection c))).exec w) w ↔
      ∃ items, items? = some items) ∧
    ∀ items, items? = some items → ((s.collection c (Action.ask remote (.collection c))).exec w).1 =
      .ok (.value (.list (items.map Stored.toAnswered))) := by
  obtain ⟨lines, hexec⟩ := exec_collection_eq hfile (Action.ask remote (.collection c))
  rw [hlooked] at hexec
  rw [hexec]
  cases items? with
  | some items =>
    refine ⟨iff_of_true (asksNobody_logged lines) ⟨items, rfl⟩, ?_⟩
    rintro _ ⟨⟩
    rfl
  | none => exact ⟨iff_of_false (s.asks_asking f? (.collection c) lines) nofun, nofun⟩

theorem item_alone (hfile : (s.file? c).Ends w (.ok f?) d)
    (hlooked : s.looked c (w.on d) f? = .ok items?) (uri : Value) :
    (AsksNobody ((s.item c uri (Action.ask remote (.item c uri))).exec w) w ↔
      ∃ items v, items? = some items ∧ items.find? (hasAddress uri) = some v) ∧
    ∀ items v, items? = some items → items.find? (hasAddress uri) = some v →
      ((s.item c uri (Action.ask remote (.item c uri))).exec w).1 =
        .ok (.value (Stored.toAnswered v)) := by
  obtain ⟨lines, hexec⟩ := exec_item_eq hfile uri (Action.ask remote (.item c uri))
  rw [hlooked] at hexec
  dsimp only at hexec
  rw [hexec]
  cases items? with
  | none =>
    refine ⟨iff_of_false (s.asks_asking none (.item c uri) lines) ?_, ?_⟩
    · rintro ⟨_, _, ⟨⟩, -⟩
    · rintro _ _ ⟨⟩
  | some items =>
    rw [Option.getD_some]
    cases hfind : items.find? (hasAddress uri) with
    | some v =>
      refine ⟨iff_of_true (asksNobody_logged lines) ⟨items, v, rfl, hfind⟩, ?_⟩
      rintro _ v' ⟨⟩ hfound
      obtain rfl := Option.some.inj (hfind.symm.trans hfound)
      rfl
    | none =>
      refine ⟨iff_of_false (s.asks_asking none (.item c uri) lines) ?_, ?_⟩
      · rintro ⟨_, v, ⟨⟩, hfound⟩
        cases hfind.symm.trans hfound
      · rintro _ v ⟨⟩ hfound
        cases hfind.symm.trans hfound

end

/-- **Agreement.** Where the steps of the cache raise nothing, a call for one entry asks nobody if
and only if a call for all entries at the same time asks nobody and has an entry at the address.
The call for one entry then gives the first of these. -/
theorem item_alone_iff (huri : uri ≠ []) {items? : Option (List Value)} {glanced : World}
    (hglance : (s.glance c).exec w = (.ok items?, glanced)) (remote : Text) :
    let one := ((Client.cached s (.remote remote)).answer (.item c (.text uri))).exec w
    let all := ((Client.cached s (.remote remote)).answer (.collection c)).exec w
    (AsksNobody one w ↔ AsksNobody all w ∧ ∃ entries, all.1 = .ok (.value (.list entries)) ∧
      ∃ entry ∈ entries, entry.property "self_uri" = .ok (.text uri)) ∧
    (AsksNobody one w → ∃ front entry back,
      all.1 = .ok (.value (.list (front ++ entry :: back))) ∧
        (∀ other ∈ front, other.property "self_uri" ≠ .ok (.text uri)) ∧
        entry.property "self_uri" = .ok (.text uri) ∧ one.1 = .ok (.value entry)) := by
  obtain ⟨f?, d, hfile, hlooked, hinhabits⟩ := looked_of_glance hglance
  obtain ⟨hall, hgives⟩ := collection_alone remote hfile hlooked
  obtain ⟨hone, hpicks⟩ := item_alone remote hfile hlooked (.text uri)
  intro one all
  have hpick : AsksNobody one w → ∃ front entry back,
      all.1 = .ok (.value (.list (front ++ entry :: back))) ∧
        (∀ other ∈ front, other.property "self_uri" ≠ .ok (.text uri)) ∧
        entry.property "self_uri" = .ok (.text uri) ∧ one.1 = .ok (.value entry) := by
    intro hnobody
    obtain ⟨items, v, rfl, hfound⟩ := hone.mp hnobody
    obtain ⟨front, back, hsplit, hbefore, haddress⟩ :=
      Stored.first_of_find? huri (hinhabits items rfl) hfound
    exact ⟨front, _, back, hsplit ▸ hgives items rfl, hbefore, haddress, hpicks _ v rfl hfound⟩
  refine ⟨⟨fun hnobody => ?_, ?_⟩, hpick⟩
  · obtain ⟨front, entry, back, hentries, -, haddress, -⟩ := hpick hnobody
    obtain ⟨items, -, hitems, -⟩ := hone.mp hnobody
    exact ⟨hall.mpr ⟨items, hitems⟩, _, hentries, entry,
      List.mem_append_right _ List.mem_cons_self, haddress⟩
  · rintro ⟨hnobody, entries, hentries, entry, hentry, haddress⟩
    obtain ⟨items, rfl⟩ := hall.mp hnobody
    have hboth := (hgives items rfl).symm.trans hentries
    obtain rfl := Value.list.inj (Answer.value.inj (Except.ok.inj hboth))
    obtain ⟨v, hfound⟩ := Stored.find?_of_answered huri (hinhabits items rfl) hentry haddress
    exact hone.mpr ⟨items, v, rfl, hfound⟩

/-- A file with a record that has no address, and two with the same one. -/
def sampleTwice : List UInt8 :=
  ("[\x7b\"id\": 1\x7d, \x7b\"self\": \"/2\", \"id\": 2\x7d, \x7b\"self\": \"/2\"\x7d]" :
    Text).map (·.val.toUInt8)

theorem sample_agrees :
    AsksNobody (((Client.cached (sample (.days 1)) (.remote "jira")).answer
      (.item .resolutions (.text "/2"))).exec (sampleHolding sampleTwice))
        (sampleHolding sampleTwice) ∧
    (((Client.cached (sample (.days 1)) (.remote "jira")).answer
      (.item .resolutions (.text "/2"))).exec (sampleHolding sampleTwice)).1 =
        .ok (.value (.record .resolution [.text "/2", .int 2, .text [], .null])) := by
  have hglance : (((sample (.days 1)).glance .resolutions).exec (sampleHolding sampleTwice)).1 =
      .ok (some [.record .storedResolution [.null, .int 1, .null, .null],
        .record .storedResolution [.text "/2", .int 2, .null, .null],
        .record .storedResolution [.text "/2", .null, .null, .null]]) := by
    cbv
  have hall : (((Client.cached (sample (.days 1)) (.remote "jira")).answer
      (.collection .resolutions)).exec (sampleHolding sampleTwice)).1 =
        .ok (.value (.list [.record .resolution [.text [], .int 1, .text [], .null],
          .record .resolution [.text "/2", .int 2, .text [], .null],
          .record .resolution [.text "/2", .null, .text [], .null]])) := by
    cbv
  have halone : AsksNobody (((Client.cached (sample (.days 1)) (.remote "jira")).answer
      (.collection .resolutions)).exec (sampleHolding sampleTwice))
        (sampleHolding sampleTwice) := by
    unfold AsksNobody
    cbv
  have huri : Text.ofString "/2" ≠ [] := by decide
  obtain ⟨hiff, hpick⟩ := item_alone_iff huri (Prod.ext hglance rfl) "jira"
  have hone := hiff.mpr ⟨halone, _, hall, _, List.mem_cons_of_mem _ List.mem_cons_self, rfl⟩
  obtain ⟨front, entry, back, hentries, hbefore, haddress, hgives⟩ := hpick hone
  refine ⟨hone, hgives.trans ?_⟩
  have hsame := Value.list.inj (Answer.value.inj (Except.ok.inj (hall.symm.trans hentries)))
  cases front with
  | nil =>
    cases hsame
    cases haddress
  | cons other front => cases front with
    | nil =>
      cases hsame
      rfl
    | cons second front =>
      obtain rfl := (List.cons.inj (List.cons.inj hsame).2).1
      exact absurd rfl (hbefore _ (List.mem_cons_of_mem _ List.mem_cons_self))

end Cached

end CatalogCache
