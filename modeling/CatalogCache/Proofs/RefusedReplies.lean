import CatalogCache.Proofs.CallDiscipline
import CatalogCache.Proofs.Numerals
import CatalogCache.Proofs.SiteEntries

/-!
# Refused replies

A reply is refused if its status is that of an error: the operation fails and says so, and no cached
client over the site keeps anything. Every other reply is read, whatever its status is.
-/

namespace CatalogCache

/-- The failure says of a reply that there is nothing at the address, or else which status came with
which detail. -/
structure Failure.Tells (e : Failure) (reply : HttpReply) : Prop where
  absent : reply.status = 404 → e.family? = some .siteNotFound
  error : reply.status ≠ 404 → e.family? = some .site ∧
    Text.ofInt reply.status <:+: e.message ∧ Site.detail reply.body <:+: e.message

/-- A text without digits. -/
def Text.isWordy (t : Text) : Bool := t.all fun c => !c.isAsciiDigit

theorem Text.exists_digit_ofInt (i : Int) : ∃ c ∈ ofInt i, c.isAsciiDigit = true := by
  have hdigit : ∀ n, ∃ c ∈ ofNat n, c.isAsciiDigit = true := fun n =>
    have ⟨c, hc⟩ := List.exists_mem_of_ne_nil _ (ofNat_ne_nil n)
    ⟨c, hc, isAsciiDigit_ofNat n c hc⟩
  cases i with
  | ofNat n => exact hdigit n
  | negSucc n =>
    obtain ⟨c, hc, hc'⟩ := hdigit (n + 1)
    exact ⟨c, List.mem_append_right _ hc, hc'⟩

/-! ## What goes wrong in a body -/

namespace Payload

variable {cls : RecordClass} {members : Members} {j : Json} {e : Failure}

theorem family_toInt (h : toInt j = .error e) : e.family? = none := by
  unfold toInt at h
  split at h
  · cases h
  · split_ifs at h
    dsimp only at h
    split_ifs at h <;> cases h <;> rfl
  · cases h

theorem family_record {nested : Json → Except Failure Value}
    (hnested : ∀ {j e}, nested j = .error e → e.family? = none)
    (h : record nested cls members = .error e) : e.family? = none := by
  have hvalue : ∀ {reading : Reading} {member e},
      reading.value nested member = .error e → e.family? = none := by
    intro reading member e h
    cases reading with
    | number =>
      cases hint : toInt (member.getD .null) with
      | ok i? => simp [Reading.value, hint] at h
      | error e' =>
        obtain rfl : e' = e := by simpa [Reading.value, hint] using h
        exact family_toInt hint
    | category => exact hnested h
    | orEmpty | text | flag | label => cases h
  unfold record at h
  generalize readings cls = entries at h
  cases hentries : entries.mapM fun (x : Text × Reading) =>
      x.2.value nested (Ordered.get? members x.1) with
  | ok vs =>
    rw [hentries] at h
    cases h
  | error e' =>
    rw [hentries] at h
    obtain rfl : e' = e := Except.error.inj h
    obtain ⟨entry, -, hentry⟩ := Result.exists_of_mapM_error hentries
    exact hvalue hentry

theorem family_build (h : build cls j = .error e) : e.family? = none := by
  have hcategory : ∀ {j e}, statusCategory j = .error e → e.family? = none := by
    intro j e h
    unfold statusCategory at h
    split at h
    · exact family_record (fun h => by cases h) h
    · cases h
  unfold build at h
  split_ifs at h
  · exact hcategory h
  · split at h
    · exact family_record hcategory h
    · cases h
      rfl

end Payload

namespace Site

variable {q : Request} {reply : HttpReply} {j : Json} {e : Failure}

theorem wordy_notList {path : Text} (hpath : path.isWordy = true) (j : Json) :
    (Failure.notList path j.typeName).message.isWordy = true := by
  have htype : j.typeName.isWordy = true := by
    cases j <;> exact rfl
  simp only [Text.isWordy] at hpath htype ⊢
  simp only [Failure.message, List.flatten_cons, List.flatten_nil, List.all_append, hpath, htype,
    List.all_nil, Bool.and_true]
  decide

theorem family_records {path : Text} {build : Json → Except Failure Value} {key? : Option Text}
    (hpath : path.isWordy = true) (hbuild : ∀ {j e}, build j = .error e → e.family? = none)
    (h : records path build key? j = .error e) :
    e.family? = none ∨ e.family? = some .site ∧ e.message.isWordy = true := by
  unfold records at h
  split at h
  · cases hitems : List.mapM build _ with
    | ok vs =>
      rw [hitems] at h
      cases h
    | error e' =>
      rw [hitems] at h
      obtain rfl : e' = e := Except.error.inj h
      obtain ⟨item, -, hitem⟩ := Result.exists_of_mapM_error hitems
      exact .inl (hbuild hitem)
  · cases h
    exact .inr ⟨rfl, wordy_notList hpath _⟩

theorem family_parse (h : parse q j = .error e) :
    e.family? = none ∨ e.family? = some .site ∧ e.message.isWordy = true := by
  cases q with
  | collection c =>
    have hpath : (catalogPath c).isWordy = true := by
      cases c <;> decide
    exact family_records hpath Payload.family_build h
  | item | serverInfo => exact .inl (Payload.family_build h)
  | linkTypes | fields => exact family_records (by decide) Payload.family_build h

theorem family_document {body : Text} (h : document body = .error e) : e.family? = none := by
  unfold document at h
  cases hread : Json.read body with
  | ok j =>
    rw [hread] at h
    cases h
  | error cause =>
    rw [hread] at h
    cases cause <;> cases h <;> rfl

theorem not_tells (hstatus : isError reply.status = false)
    (h : document reply.body >>= parse q = .error e) : ¬e.Tells reply := by
  intro htells
  have hfound : reply.status ≠ 404 := by
    rintro h404
    rw [h404] at hstatus
    exact absurd hstatus (by decide)
  obtain ⟨hfamily, hshown, -⟩ := htells.error hfound
  have hcause : e.family? = none ∨ e.family? = some .site ∧ e.message.isWordy = true := by
    cases hdocument : document reply.body with
    | error e' =>
      rw [hdocument] at h
      obtain rfl : e' = e := Except.error.inj h
      exact .inl (family_document hdocument)
    | ok j =>
      rw [hdocument] at h
      exact family_parse h
  rcases hcause with hnone | ⟨-, hwordy⟩
  · cases hfamily.symm.trans hnone
  · obtain ⟨c, hc, hdigit⟩ := Text.exists_digit_ofInt reply.status
    have hplain := List.all_eq_true.mp hwordy c (hshown.subset hc)
    rw [hdigit] at hplain
    cases hplain

/-! ## What is decided by the status -/

theorem accept_of_error (h : isError reply.status = true) :
    ∃ e, accept reply = .error e ∧ e.Tells reply := by
  unfold accept
  split_ifs with h404
  · exact ⟨_, rfl, fun _ => rfl, fun hne => absurd h404 hne⟩
  · refine ⟨_, rfl, fun heq => absurd heq h404, fun _ => ⟨rfl, ?_, ?_⟩⟩
    · exact ⟨Text.ofString "Jira API error ", Text.ofString ": " ++ detail reply.body,
        by simp [Failure.message]⟩
    · exact ⟨Text.ofString "Jira API error " ++ (Text.ofInt reply.status ++ Text.ofString ": "), [],
        by simp [Failure.message]⟩

theorem accept_of_not_error (h : isError reply.status = false) :
    accept reply = document reply.body := by
  have hfound : reply.status ≠ 404 := by
    rintro h404
    rw [h404] at h
    exact absurd h (by decide)
  rw [accept, if_neg hfound, if_neg (by rw [h]; exact Bool.false_ne_true)]

end Site

/-! ## Operations -/

/-- The operation fails with what the reply tells. A cached client of an account over the site makes
directories at most, and either sends nothing or fails in the same way. -/
structure Refused (site : Site) (q : Request) (reply : HttpReply) (w : World) : Prop where
  fails : ∃ e, e.Tells reply ∧ ((Client.site site).answer q).exec w =
    (.error e, w.after w.disk (Site.requesting (site.address q)))
  unstored : ∀ s : Cached, ∀ name, s.account = .text name → Store.isAccountName name = true →
    ∃ r after, ((Client.cached s (.site site)).answer q).exec w = (r, after) ∧
      Disk.Grown (s.directory name) w.disk after.disk ∧
      (after.sent = w.sent ∨ ∃ e, e.Tells reply ∧ r = .error e)

theorem Site.exec_refused {site : Site} {q : Request} {reply : HttpReply} {w : World}
    (hstatus : isError reply.status = true)
    (hserver : w.server w.sent (site.address q) = .ok reply) :
    ∃ e, e.Tells reply ∧ ((Client.site site).answer q).exec w =
      (.error e, w.after w.disk (requesting (site.address q))) := by
  obtain ⟨e, haccept, htells⟩ := accept_of_error hstatus
  refine ⟨e, htells, ?_⟩
  rw [exec_answer, hserver, Result.bind_ok, haccept]
  rfl

theorem refused_of_error {site : Site} {q : Request} {reply : HttpReply} {w : World}
    (hstatus : Site.isError reply.status = true)
    (hserver : w.server w.sent (site.address q) = .ok reply) : Refused site q reply w := by
  refine ⟨Site.exec_refused hstatus hserver, fun s name hs hname => ?_⟩
  cases s.opening hs hname (Client.site site).answer q w with
  | closed lines made exec => exact ⟨_, _, exec, made.grown, .inl (World.sent_logged ..)⟩
  | @asks d f? lines made file exec =>
    have hthere : ((w.on d).logged lines).server ((w.on d).logged lines).sent (site.address q) =
        .ok reply := by
      rw [World.sent_logged]
      exact hserver
    obtain ⟨e, htells, hfails⟩ := Site.exec_refused hstatus hthere
    have hconsumed : q.consume (.error e) = .error e := by
      cases q <;> rfl
    exact ⟨_, _, exec.trans (s.exec_asking_error f? hfails hconsumed), made.grown,
      .inr ⟨e, htells, rfl⟩⟩

/-- **Refusal.** A reply is refused if and only if its status is in the range of errors. Otherwise
its body is the answer. -/
theorem refused_iff (site : Site) (q : Request) (reply : HttpReply) :
    ((∀ w, w.server w.sent (site.address q) = .ok reply → Refused site q reply w) ↔
      400 ≤ reply.status ∧ reply.status < 600) ∧
    (¬(400 ≤ reply.status ∧ reply.status < 600) →
      ∀ w, w.server w.sent (site.address q) = .ok reply →
        (((Client.site site).answer q).exec w).1 =
          .value <$> (Site.document reply.body >>= Site.parse q)) := by
  have hrange : Site.isError reply.status = true ↔ 400 ≤ reply.status ∧ reply.status < 600 := by
    simp [Site.isError]
  rw [← hrange, Bool.not_eq_true]
  have hread : Site.isError reply.status = false →
      ∀ w, w.server w.sent (site.address q) = .ok reply →
        (((Client.site site).answer q).exec w).1 =
          .value <$> (Site.document reply.body >>= Site.parse q) := by
    intro hstatus w hserver
    rw [Site.exec_answer, hserver, Result.bind_ok, Site.accept_of_not_error hstatus]
  refine ⟨⟨fun hrefused => ?_, fun hstatus w hserver => refused_of_error hstatus hserver⟩, hread⟩
  by_contra hstatus
  rw [Bool.not_eq_true] at hstatus
  -- a server that always gives the reply
  let w : World := { Cached.sampleWorld fun _ => [] with server := fun _ _ => .ok reply }
  obtain ⟨e, htells, hexec⟩ := (hrefused w rfl).fails
  have hresult := hread hstatus w rfl
  rw [hexec] at hresult
  cases hparse : Site.document reply.body >>= Site.parse q with
  | ok v =>
    rw [hparse] at hresult
    cases hresult
  | error e' =>
    rw [hparse] at hresult
    cases hresult
    exact Site.not_tells hstatus hparse htells

/-- A site that answers everything with an empty list, under the status of multiple choices. -/
def sampleChoices : World where
  __ := Cached.sampleWorld fun _ => []
  server := fun _ _ => .ok ⟨300, "[]", []⟩

theorem choices_stored :
    (((Client.site Cached.sampleSite).answer (.collection .resolutions)).exec sampleChoices).1 =
      .ok (.value (.list [])) ∧
    (((Client.cached (Cached.sample (.days 1)) (.site Cached.sampleSite)).answer
      (.collection .resolutions)).exec sampleChoices).2.trace.any Event.isSaved = true := by
  refine ⟨?_, by cbv⟩
  rw [(refused_iff Cached.sampleSite (.collection .resolutions) ⟨300, "[]", []⟩).2 (by decide)
    sampleChoices rfl]
  cbv

end CatalogCache
