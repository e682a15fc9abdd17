import CatalogCache.Proofs.Atomicity
import CatalogCache.Proofs.CallOutcomes
import CatalogCache.Proofs.Growth

/-!
# The discipline of calls

A cached client asks the client below once at most, and then for what it was asked for itself. Only
what was fetched may go to a file, and only to the file of its catalog. This holds on every disk and
whatever call to the disk fails.
-/

namespace CatalogCache

namespace Request

/-- The catalog that a request may be answered from. -/
def catalog? : Request → Option Catalog
  | collection c | item c _ => some c
  | linkTypes | fields | serverInfo => none

/-- What a reply comes to for who asked. A catalog is taken item by item, so it may fail later. -/
def consume : Request → Reply → Reply
  | collection _, r => (fun vs => .value (.list vs)) <$> (r >>= Answer.collect)
  | _, r => r

end Request

namespace Cached

variable {s : Cached} {name remote : Text} {c : Catalog} {q : Request} {w w' : World} {d : Disk}
  {f? : Option CacheFile} {fetch : Action Answer}

/-! ## The directory -/

theorem made_accountDirectory (hs : s.account = .text name)
    (hname : Store.isAccountName name = true) (w : World) :
    ∃ r d, (s.store.accountDirectory s.account).exec w = (r, w.on d) ∧
      Disk.Made (s.directory name) w.disk d ∧
      ((r = .ok (s.directory name)) ∨ ∃ e, r = .error e) := by
  unfold Store.accountDirectory
  rw [hs, Store.accountName_text hname, Action.exec_bind_ok (Action.exec_ofExcept _ w),
    Action.exec_bind_ok (Action.exec_get w)]
  cases w.faults .makeDirectory with
  | some fault => exact ⟨_, _, rfl, Disk.made_ensureLevels .., .inr ⟨_, rfl⟩⟩
  | none =>
    have hmade := Disk.made_ensureDirectories w.disk w.faults (s.directory name) w.now
    have hpath : w.disk.ensureDirectories w.faults (s.store.root.child name) w.now =
        w.disk.ensureDirectories w.faults (s.directory name) w.now := rfl
    simp only [hpath]
    generalize w.disk.ensureDirectories w.faults (s.directory name) w.now = made at hmade ⊢
    obtain ⟨d, r⟩ := made
    cases r with
    | ok => exact ⟨_, d, rfl, hmade, .inl rfl⟩
    | error e => cases e <;> exact ⟨_, d, rfl, hmade, .inr ⟨_, rfl⟩⟩

theorem made_file? (hs : s.account = .text name) (hname : Store.isAccountName name = true)
    (c : Catalog) (w : World) :
    ∃ r d, (s.file? c).Ends w r d ∧ Disk.Made (s.directory name) w.disk d ∧
      ∀ f, r = .ok (some f) → f = s.slot name c := by
  obtain ⟨r, d, hexec, hmade, rfl | ⟨e, rfl⟩⟩ := made_accountDirectory hs hname w
  · refine ⟨.ok (some (s.slot name c)), d, .of_exec (x := .ok (s.slot name c)) ?_ ?_, hmade, ?_⟩
    · rw [Action.exec_attempt, exec_file_ok hexec c]
    · exact Action.says_of_exec rfl
    · rintro f ⟨⟩
      rfl
  · have hfile : (Action.attempt (s.store.file s.account c)).exec w = (.ok (.error e), w.on d) := by
      rw [Action.exec_attempt, exec_file_error hexec c]
    cases e with
    | cacheWrite path cause =>
      refine ⟨.ok none, d, .of_exec hfile ?_, hmade, nofun⟩
      exact .bind (Action.says_log ..) fun _ => Action.says_of_exec rfl
    | _ => exact ⟨_, d, .of_exec hfile (Action.says_of_exec rfl), hmade, nofun⟩

theorem ends_whatever (s : Cached) (c : Catalog) (w : World) :
    ∃ r d, (s.file? c).Ends w r d ∧ Disk.Frame Disk.Nowhere w.disk d ∧
      ∀ f, r = .ok (some f) → ∃ name, s.account = .text name ∧ f = s.slot name c ∧
        Disk.Made (s.directory name) w.disk d := by
  cases haccount : Store.accountName s.account with
  | error e => exact ⟨_, _, ends_nameless haccount c w, .refl _, nofun⟩
  | ok name =>
    obtain ⟨hs, hname⟩ := accountName_ok haccount
    obtain ⟨r, d, hends, hmade, hslot⟩ := made_file? hs hname c w
    exact ⟨r, d, hends, hmade.frame, fun f hf => ⟨name, hs, hslot f hf, hmade⟩⟩

/-! ## Up to the question -/

/-- What is left of a call from its question on. -/
def asking (s : Cached) (f? : Option CacheFile) (fetch : Action Answer) : Request → Action Answer
  | .collection c => s.fetched c f? fetch
  | _ => fetch

/-- How far a call comes by itself: to its end, or to a question to the client below. Until then
only directories are made. -/
inductive Opening (s : Cached) (name : Text) (below : Request → Action Answer) (q : Request)
    (w : World) : Prop
  | closed {r : Reply} {d : Disk} (lines : List LogLine)
    (made : Disk.Made (s.directory name) w.disk d)
    (exec : (s.answer below q).exec w = (r, (w.on d).logged lines))
  | asks {d : Disk} (f? : Option CacheFile) (lines : List LogLine)
    (made : Disk.Made (s.directory name) w.disk d)
    (file : ∀ f, f? = some f → ∃ c, q = .collection c ∧ f = s.slot name c)
    (exec : (s.answer below q).exec w =
      (s.asking f? (below q) q).exec ((w.on d).logged lines))

theorem opening (hs : s.account = .text name) (hname : Store.isAccountName name = true)
    (below : Request → Action Answer) (q : Request) (w : World) : s.Opening name below q w := by
  cases q with
  | collection c =>
    obtain ⟨r, d, hfile, hmade, hslot⟩ := made_file? hs hname c w
    cases r with
    | error e =>
      obtain ⟨lines, hexec⟩ := hfile
      exact .closed lines hmade (Action.exec_bind_error hexec _)
    | ok f? =>
      obtain ⟨lines, hexec⟩ := exec_collection_eq hfile (below (.collection c))
      cases hlooked : s.looked c (w.on d) f? with
      | error e =>
        rw [hlooked] at hexec
        exact .closed lines hmade hexec
      | ok items? =>
        rw [hlooked] at hexec
        cases items? with
        | some items => exact .closed lines hmade hexec
        | none => exact .asks f? lines hmade (fun f hf => ⟨c, rfl, hslot f (hf ▸ rfl)⟩) hexec
  | item c uri =>
    obtain ⟨r, d, hfile, hmade, -⟩ := made_file? hs hname c w
    cases r with
    | error e =>
      obtain ⟨lines, hexec⟩ := hfile
      exact .closed lines hmade (Action.exec_bind_error hexec _)
    | ok f? =>
      obtain ⟨lines, hexec⟩ := exec_item_eq hfile uri (below (.item c uri))
      cases hlooked : s.looked c (w.on d) f? with
      | error e =>
        rw [hlooked] at hexec
        exact .closed lines hmade hexec
      | ok items? =>
        rw [hlooked] at hexec
        dsimp only at hexec
        cases hfirst : (items?.getD []).find? (hasAddress uri) with
        | some entry =>
          rw [hfirst] at hexec
          exact .closed lines hmade hexec
        | none =>
          rw [hfirst] at hexec
          exact .asks none lines hmade nofun hexec
  | linkTypes | fields | serverInfo =>
    refine .asks (d := w.disk) none [] (.refl _ _) nofun ?_
    rw [World.logged_nil]
    rfl

/-! ## From the question on -/

theorem exec_asking_error (s : Cached) (f? : Option CacheFile) {r : Reply}
    (hfetch : fetch.exec w = (r, w')) {e : Failure} (h : q.consume r = .error e) :
    (s.asking f? fetch q).exec w = (.error e, w') := by
  cases q with
  | collection c =>
    have h : (fun vs => Answer.value (.list vs)) <$> (r >>= Answer.collect) = .error e := h
    rw [asking, exec_fetched s c f? hfetch]
    cases hcollect : r >>= Answer.collect with
    | ok vs =>
      rw [hcollect] at h
      cases h
    | error e' =>
      rw [hcollect] at h
      rw [Except.error.inj h]
  | item | linkTypes | fields | serverInfo =>
    obtain rfl : r = .error e := h
    exact hfetch

theorem exec_asking (s : Cached) (f? : Option CacheFile) {r : Reply}
    (hfetch : fetch.exec w = (r, w')) (q : Request) :
    ∃ events, events.filterMap Event.question? = [] ∧
      (((s.asking f? fetch q).exec w).2 = w'.after w'.disk events ∨
        ∃ c f t, q = .collection c ∧ f? = some f ∧ ((s.asking f? fetch q).exec w).2 =
          w'.after (Save.run ⟨f.path, t, w'.faults, w'.now⟩ w'.disk).1 events) := by
  have hnothing : w' = w'.after w'.disk [] := w'.after_nil.symm
  cases q with
  | collection c =>
    rw [asking, exec_fetched s c f? hfetch]
    cases r >>= Answer.collect with
    | error e => exact ⟨[], rfl, .inl hnothing⟩
    | ok vs =>
      cases f? with
      | none => exact ⟨[], rfl, .inl hnothing⟩
      | some f =>
        obtain ⟨events, hexec, hquiet⟩ := exec_keep_eq s c f vs w'
        refine ⟨events, hquiet, ?_⟩
        dsimp only
        rw [hexec]
        rcases disk_kept c vs w' (some f) with hsame | ⟨f', t, hf, hsaved⟩
        · rw [hsame]
          exact .inl rfl
        · rw [hsaved]
          exact .inr ⟨c, f', t, rfl, hf, rfl⟩
  | item | linkTypes | fields | serverInfo =>
    refine ⟨[], rfl, .inl ?_⟩
    change (fetch.exec w).2 = _
    rw [hfetch]
    exact hnothing

/-! ## Whole calls -/

/-- What a call may do to the disk: it makes the directory of the account, and a catalog that was
fetched may take the place to which its path leads then. -/
inductive Touches (s : Cached) (name : Text) (q : Request) (asked : Prop) (d d' : Disk) : Prop
  | directories (grown : Disk.Grown (s.directory name) d d')
  | file {c : Catalog} {opened : Disk} {target : Location} (catalog : q = .collection c)
    (fetched : asked) (grown : Disk.Grown (s.directory name) d opened)
    (leads : opened.locate false (s.slot name c).path = .ok target)
    (kept : ∀ l, l ≠ target → opened.Kept d' l)

/-- **Discipline.** A call asks for nothing or once for what it was asked. What is no catalog and no
entry of one is passed on without a look at the disk. Besides directories, no call changes anything
but the file of the catalog that it has fetched. -/
theorem call_disciplined (hs : s.account = .text name) (hname : Store.isAccountName name = true)
    (remote : Text) (q : Request) (w : World) :
    ∃ r after events, ((Client.cached s (.remote remote)).answer q).exec w = (r, after) ∧
      after.trace = w.trace ++ events ∧
      (events.filterMap Event.question? = [] ∨
        events.filterMap Event.question? = [(remote, q)]) ∧
      (q.catalog? = none → r = w.remotes remote (w.askedOf remote) q ∧
        after = w.record (.asked remote q)) ∧
      (w.faults .discard = none → s.Touches name q
        (events.filterMap Event.question? = [(remote, q)]) w.disk after.disk) := by
  have hpass : q.catalog? = none → ((Client.cached s (.remote remote)).answer q).exec w =
      (w.remotes remote (w.askedOf remote) q, w.record (.asked remote q)) := by
    intro hnone
    cases q with
    | collection | item => cases hnone
    | linkTypes | fields | serverInfo => exact Action.exec_ask remote _ w
  cases s.opening hs hname (Client.remote remote).answer q w with
  | closed lines made exec =>
    refine ⟨_, _, lines.map Event.log, exec, rfl, .inl (questions_logs lines), fun hnone => ?_,
      fun _ => .directories made.grown⟩
    exact Prod.mk.inj (exec.symm.trans (hpass hnone))
  | @asks d f? lines made file exec =>
    have hask : ((Client.remote remote).answer q).exec ((w.on d).logged lines) = _ :=
      exec_ask_on remote q w d lines
    obtain ⟨events, hquiet, hafter⟩ := s.exec_asking f? hask q
    have hquestions : (lines.map Event.log ++ [Event.asked remote q] ++ events).filterMap
        Event.question? = [(remote, q)] := by
      rw [List.filterMap_append, List.filterMap_append, questions_logs, hquiet]
      rfl
    generalize (s.asking f? _ q).exec _ = done at exec hafter
    obtain ⟨r, after⟩ := done
    refine ⟨r, after, lines.map Event.log ++ [Event.asked remote q] ++ events, exec, ?_,
      .inr hquestions, fun hnone => Prod.mk.inj (exec.symm.trans (hpass hnone)), fun hdiscard => ?_⟩
    · rcases hafter with rfl | ⟨_, _, _, -, -, rfl⟩ <;>
        simp only [World.after, List.append_assoc]
    · rcases hafter with rfl | ⟨c, f, t, rfl, hf, rfl⟩
      · exact .directories made.grown
      · obtain ⟨_, ⟨⟩, rfl⟩ := file f hf
        rw [hquestions]
        obtain ⟨hhome, hkept | ⟨target, htarget, hkept⟩⟩ :=
          Save.run_kept ⟨(s.slot name c).path, t, w.faults, w.now⟩ d hdiscard
        · exact .directories (made.grown_of_kept hhome hkept)
        · exact .file rfl rfl made.grown htarget.leads hkept

theorem sample_disciplined :
    ∃ r after, ((Client.cached (sample .zero) (.remote "jira")).answer
        (.collection .resolutions)).exec (sampleWorld fun _ => []) = (r, after) ∧
      (after.trace.filterMap Event.question? = [] ∨
        after.trace.filterMap Event.question? = [(↑"jira", .collection .resolutions)]) ∧
      (sample .zero).Touches "ana" (.collection .resolutions)
        (after.trace.filterMap Event.question? = [(↑"jira", .collection .resolutions)])
        (Disk.empty 0) after.disk := by
  have haccount : (sample .zero).account = .text "ana" := rfl
  obtain ⟨r, after, events, hexec, htrace, hquestions, -, htouches⟩ :=
    call_disciplined haccount (by decide) "jira" (.collection .resolutions)
      (sampleWorld fun _ => [])
  have htrace : after.trace = events := htrace
  rw [← htrace] at hquestions htouches
  exact ⟨r, after, hexec, hquestions, htouches rfl⟩

end Cached

end CatalogCache
