import CatalogCache.Proofs.Growth
import CatalogCache.Proofs.Isolation
import CatalogCache.Proofs.Repetition

/-!
# Stacks of layers

Layers that only forward, and layers that cache for the same account in the same store, may be put
on each other in any order. As long as one of them caches, the stack does what a single cached
client does: the same results, the same questions and the same disk.
-/

namespace CatalogCache

/-! ## Layers -/

inductive Layer
  | forwarding
  | cached
deriving DecidableEq

/-- The layers over a remote, from the outside in. -/
def Client.stack (s : Cached) (remote : Text) : List Layer → Client
  | [] => .remote remote
  | .forwarding :: rest => .forwarding (stack s remote rest)
  | .cached :: rest => .cached s (stack s remote rest)

theorem Client.answer_forwarding (s : Cached) (remote : Text) {layers : List Layer}
    (h : Layer.cached ∉ layers) : (Client.stack s remote layers).answer = Action.ask remote := by
  induction layers with
  | nil => rfl
  | cons layer rest ih =>
    rw [List.mem_cons, not_or] at h
    cases layer with
    | forwarding => exact ih h.2
    | cached => exact absurd rfl h.1

/-! ## Sound disks -/

theorem Disk.IsSound.of_tree {d d' : Disk} (h : d.IsSound) (htree : d'.IsTree)
    (hhome : d'.home = d.home) : d'.IsSound where
  toIsTree := htree
  good := by
    rw [Disk.hasGoodHome, hhome]
    exact h.good
  plain := by
    rw [hhome]
    exact h.plain
  short := by
    rw [hhome]
    exact h.short

namespace Cached

variable {s : Cached} {remote : Text} {c : Catalog} {w w' : World} {d d' : Disk}
  {f? : Option CacheFile} {vs : List Value}

theorem sound_opened (h : w.disk.IsSound) (s : Cached) (c : Catalog) :
    (s.opened c w).1.IsSound := by
  unfold opened
  cases Store.accountName s.account with
  | error e => exact h
  | ok name =>
    have hmade := Disk.made_ensureDirectories w.disk Faults.none (s.store.root.child name) w.now
    exact h.of_tree (h.toIsTree.ensureDirectories ..) hmade.home

theorem sound_run (h : d.IsSound) (v : Save) (hfaults : v.faults = Faults.none) :
    (v.run d).1.IsSound := by
  have hdiscard : v.faults .discard = none := by
    rw [hfaults]
    rfl
  exact h.of_tree (Save.isTree_run h.toIsTree v hdiscard) (v.run_kept d hdiscard).1

theorem sound_outcome (h : w.disk.IsSound) (hfaults : w.faults = Faults.none) (s : Cached)
    (remote : Text) (q : Request) : (s.outcome remote w q).disk.IsSound := by
  rcases disk_outcome s remote w q with hsame | ⟨c, hopened | ⟨f, t, -, hsaved⟩⟩
  · rwa [hsame]
  · rw [hopened]
    exact sound_opened h s c
  · rw [hsaved]
    exact sound_run (sound_opened h s c) _ hfaults

/-! ## Each step again -/

theorem opened_again (h : w.disk.IsSound) (hdisk : w'.disk = (s.opened c w).1)
    (hnow : w'.now = w.now) : s.opened c w' = s.opened c w := by
  unfold opened at hdisk ⊢
  cases hname : Store.accountName s.account with
  | error e =>
    rw [hname] at hdisk
    rw [hdisk]
  | ok name =>
    rw [hname] at hdisk
    dsimp only at hdisk ⊢
    rw [hdisk, hnow]
    unfold Store.make
    cases hgood : (s.store.root.child name).isAddressable with
    | false =>
      obtain ⟨e, he⟩ := Disk.isShut_of_unaddressable (d := w.disk) hgood w.now
      rw [he]
      dsimp only
      rw [he]
    | true =>
      cases hmade : w.disk.ensureDirectories Faults.none (s.store.root.child name) w.now with
      | mk d r =>
        obtain ⟨-, hthere, hsystem⟩ := Disk.ensureDirectories_spec hgood hmade
        dsimp only
        cases r with
        | ok =>
          obtain ⟨m, hm⟩ := hthere rfl rfl
          rw [Disk.ensureDirectories_there hgood rfl hm]
        | error e =>
          obtain ⟨e₁, rfl⟩ := hsystem e rfl
          obtain ⟨e₂, he₂⟩ := Disk.isShut_of_failed h.toIsTree hgood hmade w.now
          obtain ⟨e₃, rfl⟩ := (Disk.ensureDirectories_spec hgood he₂).2.2 e₂ rfl
          rw [he₂]
          rfl

/-- Unless the path or the text has no bytes, the attempt to keep values goes well, whatever the
system does. -/
theorem kept_ok_iff {f : CacheFile} : kept c vs w (some f) = (.ok (), d) ↔
    ∃ packed, vs.mapM (Stored.ofAnswered c.stored) = .ok packed ∧
      ((∃ path cause, f.encode (.list packed) = .error (.cacheWrite path cause)) ∧ d = w.disk ∨
        ∃ t r, f.encode (.list packed) = .ok t ∧
          Save.run ⟨f.path, t, w.faults, w.now⟩ w.disk = (d, r) ∧
          (r = .ok () ∨ ∃ e, r = .error (.system e))) := by
  unfold kept
  cases vs.mapM (Stored.ofAnswered c.stored) with
  | error e => simp
  | ok packed =>
    simp only [Except.ok.injEq, exists_eq_left']
    cases f.encode (.list packed) with
    | error e => cases e <;> simp [eq_comm]
    | ok t =>
      simp only [Except.ok.injEq, exists_and_left, exists_eq_left']
      generalize Save.run ⟨f.path, t, w.faults, w.now⟩ w.disk = ran
      obtain ⟨d', r⟩ := ran
      cases r with
      | ok => simp
      | error e => cases e <;> simp

theorem kept_again {f : CacheFile} {above : FilePath} {name : Text} (hname : name.IsPlain)
    (hpath : f.path = above.child name) (hgood : f.path.isAddressable = true)
    (hpart : name.isAddressable = true) (hfaults : w.faults = Faults.none) (h : w.disk.IsSound)
    (hkept : kept c vs w (some f) = (.ok (), d)) (hdisk : w'.disk = d) (hnow : w'.now = w.now)
    (hfaults' : w'.faults = w.faults) : kept c vs w' (some f) = (.ok (), d) := by
  subst hdisk
  rw [kept_ok_iff] at hkept ⊢
  obtain ⟨packed, hpacks, ⟨hunwritable, -⟩ | ⟨t, r, hencode, hrun, hr⟩⟩ := hkept
  · exact ⟨packed, hpacks, .inl ⟨hunwritable, rfl⟩⟩
  · have hsave : (⟨f.path, t, w.faults, w.now⟩ : Save).Good w.disk := by
      refine ⟨hgood, h.good, ?_⟩
      show f.path.name.isAddressable = true
      rw [hpath, FilePath.name, FilePath.child]
      simpa using hpart
    obtain ⟨r', hagain, hends⟩ := Save.run_again (s := ⟨f.path, t, w.faults, w.now⟩) hname hpath
      hfaults hsave h.toIsTree
    rw [hrun] at hagain hends
    refine ⟨packed, hpacks, .inr ⟨t, r', hencode, by rwa [hnow, hfaults'], ?_⟩⟩
    rcases hends with rfl | ⟨-, hsystem⟩
    · exact hr
    · exact .inr hsystem

/-! ## One layer more -/

variable {name : Text} {inner : Client} {q : Request}

theorem opened_good (hs : s.account = .text name) {f : CacheFile}
    (h : (s.opened c w).2 = .ok (some f)) :
    f = s.slot name c ∧ f.path.isAddressable = true := by
  obtain ⟨hname, hmade, rfl⟩ := opened_file hs h
  refine ⟨rfl, FilePath.isAddressable_child ?_ c.isAddressable_fileName⟩
  by_contra hbad
  obtain ⟨e, he⟩ := Disk.isShut_of_unaddressable (d := w.disk) (Bool.not_eq_true _ ▸ hbad) w.now
  have hmade : (w.disk.ensureDirectories Faults.none (s.directory name) w.now).2 = .ok () := hmade
  rw [he] at hmade
  cases hmade

/-- The world in which the client below is asked. -/
def below (s : Cached) (c : Catalog) (w : World) (lines : List LogLine) : World :=
  (w.on (s.opened c w).1).logged lines

theorem outcome_below (h : w.disk.IsSound) (lines : List LogLine)
    (hq : q = .collection c ∨ ∃ uri, q = .item c uri) :
    s.outcome remote (s.below c w lines) q = s.outcome remote w q := by
  have hopened : s.opened c (s.below c w lines) = s.opened c w := opened_again h rfl rfl
  have hasked : (s.below c w lines).askedOf remote = w.askedOf remote := askedOf_logged _ _ _
  rcases hq with rfl | ⟨uri, rfl⟩
  · unfold outcome reply
    dsimp only
    rw [hopened, hasked]
    rfl
  · unfold outcome
    dsimp only
    rw [hopened, hasked]
    rfl

theorem comes_after {r : Reply} {w' : World} {o : Outcome} (lines : List LogLine)
    (h : Comes remote ((w.on d).logged lines) (r, w') o) :
    Comes remote w (r, w') o := by
  obtain ⟨hresult, events, hworld, hasked⟩ := h
  refine ⟨hresult, lines.map .log ++ events, ?_, ?_⟩
  · rw [hworld]
    simp [World.after, World.logged, World.on]
  · rw [List.filterMap_append, questions_logs, hasked]
    rfl

theorem exec_keep_again (hs : s.account = .text name) (h : w.disk.IsSound)
    (hfaults : w.faults = Faults.none) {f : CacheFile} (hopened : s.opened c w = (d, .ok (some f)))
    (hkept : kept c vs (w.on d) (some f) = (.ok (), d')) (hdisk : w'.disk = d')
    (hnow : w'.now = w.now) (hfaults' : w'.faults = w.faults) :
    ∃ events, (s.keep c f vs).exec w' = (.ok (), w'.after d' events) ∧
      events.filterMap Event.question? = [] := by
  obtain ⟨rfl, hgood⟩ := opened_good (w := w) hs (congrArg Prod.snd hopened)
  have hsound := sound_opened h s c
  rw [hopened] at hsound
  obtain ⟨events, hexec, hquiet⟩ := exec_keep_eq s c (s.slot name c) vs w'
  rw [kept_again (w := w.on d) c.isPlain_fileName rfl hgood c.isAddressable_fileName hfaults
    hsound hkept hdisk hnow hfaults'] at hexec
  exact ⟨events, hexec, hquiet⟩

/-- What is left of a call after the question, if the client below has done all of it already. -/
theorem comes_fetched (hs : s.account = .text name) (h : w.disk.IsSound)
    (hfaults : w.faults = Faults.none) (hopened : s.opened c w = (d, .ok f?))
    (hlooked : s.looked c (w.on d) f? = .ok none) (lines : List LogLine)
    {fetch : Action Answer} (hfetch : Comes remote (s.below c w lines)
      (fetch.exec (s.below c w lines)) (s.outcome remote w (.collection c))) :
    Comes remote w ((s.fetched c f? fetch).exec ((w.on d).logged lines))
      (s.outcome remote w (.collection c)) := by
  have hbelow : s.below c w lines = (w.on d).logged lines := by
    rw [below, hopened]
  rw [hbelow] at hfetch
  generalize hcall : fetch.exec ((w.on d).logged lines) = call at hfetch
  obtain ⟨r, w'⟩ := call
  rw [exec_fetched s c f? hcall]
  rw [outcome_missed hopened hlooked] at hfetch ⊢
  cases hreply : reply w remote c with
  | error e =>
    rw [hreply] at hfetch
    obtain rfl : r = .error e := hfetch.result
    exact comes_after lines hfetch
  | ok vs =>
    rw [hreply] at hfetch
    dsimp only at hfetch ⊢
    cases hkept : kept c vs (w.on d) f? with
    | mk k d' =>
      rw [hkept] at hfetch
      cases k with
      | error e =>
        obtain rfl : r = .error e := hfetch.result
        exact comes_after lines hfetch
      | ok =>
        obtain rfl : r = .ok (.value (.list vs)) := hfetch.result
        cases f? with
        | none => exact comes_after lines hfetch
        | some f =>
          obtain ⟨-, events, rfl, hasked⟩ := hfetch
          obtain ⟨more, hexec, hquiet⟩ := exec_keep_again hs h hfaults hopened hkept
            (rfl : (((w.on d).logged lines).after d' events).disk = d') rfl rfl
          show Comes remote w (((s.keep c f vs).exec _).1.map _,
            ((s.keep c f vs).exec (((w.on d).logged lines).after d' events)).2) _
          rw [hexec]
          refine comes_after (d := d) lines ⟨rfl, events ++ more, World.after_after .., ?_⟩
          rw [List.filterMap_append, hasked, hquiet, List.append_nil]

theorem comes_over (hs : s.account = .text name) (h : w.disk.IsSound)
    (hfaults : w.faults = Faults.none)
    (hinner : ∀ w', w'.disk.IsSound → w'.faults = Faults.none →
      Comes remote w' ((inner.answer q).exec w') (s.outcome remote w' q)) :
    Comes remote w (((Client.cached s inner).answer q).exec w) (s.outcome remote w q) := by
  cases q with
  | collection c =>
    refine comes_collection hfaults fun d f? lines hopened hlooked =>
      comes_fetched hs h hfaults hopened hlooked lines ?_
    rw [← outcome_below h lines (.inl rfl)]
    exact hinner _ (sound_opened h s c) hfaults
  | item c uri =>
    refine comes_item hfaults fun d f? items? lines hopened hlooked hfirst => ?_
    have hbelow : s.below c w lines = (w.on d).logged lines := by
      rw [below, hopened]
    rw [← outcome_below (c := c) h lines (.inr ⟨uri, rfl⟩), hbelow]
    refine comes_after lines (hinner _ ?_ hfaults)
    have hsound := sound_opened h s c
    rwa [hopened] at hsound
  | linkTypes | fields | serverInfo => exact hinner w h hfaults

/-- **A stack.** It does what one cached client does, as soon as one of its layers caches. -/
theorem comes_stack (hs : s.account = .text name) {layers : List Layer}
    (hlayers : Layer.cached ∈ layers) (q : Request) (h : w.disk.IsSound)
    (hfaults : w.faults = Faults.none) :
    Comes remote w (((Client.stack s remote layers).answer q).exec w) (s.outcome remote w q) := by
  induction layers generalizing w with
  | nil => cases hlayers
  | cons layer rest ih =>
    by_cases hrest : Layer.cached ∈ rest
    · have hinner := fun w' h hfaults => @ih w' hrest h hfaults
      cases layer with
      | forwarding => exact hinner w h hfaults
      | cached => exact comes_over hs h hfaults hinner
    · obtain rfl : layer = .cached :=
        (List.mem_cons.mp hlayers).elim Eq.symm fun h => absurd h hrest
      show Comes remote w ((s.answer (Client.stack s remote rest).answer q).exec w) _
      rw [Client.answer_forwarding s remote hrest]
      exact comes_answer hfaults s q

end Cached

/-! ## Runs -/

/-- In each turn the client of the account may stand under more layers. -/
def Turn.stack (store : Store) (layers : Turn → List Layer) (t : Turn) : Client :=
  .stack (t.cached store) t.remote (layers t)

section

variable {store : Store} {layers : Turn → List Layer} {w w' : World} {t : Turn}

/-- The worlds are the same, but for what was written to the log and how often files were saved. -/
structure Alike (w w' : World) : Prop where
  disk : w'.disk = w.disk
  asked : ∀ remote, w'.askedOf remote = w.askedOf remote

theorem Alike.outcome (h : Alike w w') (store : Store) (t : Turn) :
    t.outcome store w' = t.outcome store w := by
  have hdisk : (t.enter w').disk = (t.enter w).disk := h.disk
  refine Cached.outcome_congr hdisk rfl rfl (fun q => ?_) ..
  show t.remotes t.remote (w'.askedOf t.remote) q = t.remotes t.remote (w.askedOf t.remote) q
  rw [h.asked]

theorem Alike.play (h : Alike w w') (hsound : w'.disk.IsSound) (hfaults : t.faults = Faults.none)
    (hlayers : Layer.cached ∈ layers t) :
    (t.play (t.stack store layers) w').seen = (t.play (t.client store) w).seen ∧
      Alike (t.play (t.client store) w).after (t.play (t.stack store layers) w').after ∧
      (t.play (t.stack store layers) w').after.disk.IsSound := by
  have hone := Turn.comes hfaults store w
  have hall : t.Comes store (t.stack store layers) w' :=
    t.comes_of (Cached.comes_stack rfl hlayers t.operation.question hsound hfaults)
  have houtcome := h.outcome store t
  refine ⟨hone.seen_eq hall ?_, ⟨?_, ?_⟩, ?_⟩
  · rw [houtcome]
    exact ⟨rfl, rfl⟩
  · rw [hone.disk, hall.disk, houtcome]
  · intro remote
    rw [hone.history, hall.history, h.asked, houtcome]
  · have hsound : (t.enter w').disk.IsSound := hsound
    rw [hall.disk]
    exact Cached.sound_outcome hsound hfaults (t.cached store) t.remote t.operation.question

theorem Alike.run {turns : List Turn} (h : Alike w w') (hsound : w'.disk.IsSound)
    (hfaults : ∀ t ∈ turns, t.faults = Faults.none)
    (hlayers : ∀ t ∈ turns, Layer.cached ∈ layers t) :
    (reports (Turn.stack store layers) w' turns).map (fun r => (r.seen, r.after.disk)) =
      (reports (Turn.client store) w turns).map fun r => (r.seen, r.after.disk) := by
  induction turns generalizing w w' with
  | nil => rfl
  | cons t rest ih =>
    rw [List.forall_mem_cons] at hfaults hlayers
    obtain ⟨hseen, hafter, hsound⟩ := h.play hsound hfaults.1 hlayers.1
    have hrest := ih hafter hsound hfaults.2 hlayers.2
    simp only [reports, List.map_cons]
    rw [hseen, hafter.disk, hrest]

/-- **Stacks.** Over a sound disk, and as long as no call to the disk fails, stacks in which some
layer caches get the same results as one cached client does, ask the same, and leave the same disk
after every turn. -/
theorem stacks_alike {turns : List Turn} (hsound : w.disk.IsSound)
    (hfaults : ∀ t ∈ turns, t.faults = Faults.none)
    (hlayers : ∀ t ∈ turns, Layer.cached ∈ layers t) :
    (reports (Turn.stack store layers) w turns).map (fun r => (r.seen, r.after.disk)) =
      (reports (Turn.client store) w turns).map fun r => (r.seen, r.after.disk) :=
  Alike.run ⟨rfl, fun _ => rfl⟩ hsound hfaults hlayers

end

theorem sample_stacked :
    (reports (Turn.stack Cached.sampleStore fun _ => [.cached, .forwarding, .cached])
        (Cached.sampleWorld sampleLists) [firstTurn, secondTurn]).map
      (fun r => (r.seen, r.after.disk)) =
    [(firstReport.seen, firstReport.after.disk), (secondReport.seen, secondReport.after.disk)] := by
  have hfaults : ∀ t ∈ [firstTurn, secondTurn], t.faults = Faults.none := by
    simp only [List.forall_mem_cons]
    exact ⟨rfl, rfl, nofun⟩
  have hlayers : ∀ t ∈ [firstTurn, secondTurn],
      Layer.cached ∈ [Layer.cached, .forwarding, .cached] := fun _ _ => .head _
  exact stacks_alike (Disk.isSound_empty 0) hfaults hlayers

end CatalogCache
