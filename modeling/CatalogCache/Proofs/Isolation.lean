import CatalogCache.Proofs.CallOutcomes
import CatalogCache.Proofs.Roots
import CatalogCache.Proofs.SaveAgreement
import CatalogCache.Proofs.Staleness

/-!
# Accounts do not interfere

What the clients of an account get, what they ask and what they store is the same whether or not the
clients of other accounts are at work in between.
-/

namespace CatalogCache

/-! ## Disks that an account cannot tell apart -/

namespace Store

variable {s : Store} {d e : Disk} {a : Text}

/-- The account cannot tell the disks apart, whatever it does. -/
inductive Parallel (s : Store) (a : Text) : Disk → Disk → Prop
  | rooted {ρ : Root} {d e : Disk} (h : s.Agree ρ a d e) : Parallel s a d e
  | blocked {d : Disk} (h : s.IsBlocked d) : Parallel s a d d

theorem Founded.agree {ρ : Root} (h : s.Founded ρ d) (a : Text) : s.Agree ρ a d d where
  first := h.rooted
  second := h.rooted
  home := rfl
  groundedFirst := h.grounded a
  groundedSecond := h.grounded a
  here := .inl rfl
  below := fun _ _ => rfl

theorem IsPlaced.parallel (h : s.IsPlaced d) (a : Text) : s.Parallel a d d := by
  rcases h with ⟨ρ, hfounded⟩ | hblocked
  · exact .rooted (hfounded.agree a)
  · exact .blocked hblocked

theorem Parallel.symm (h : s.Parallel a d e) : s.Parallel a e d := by
  cases h with
  | rooted h => exact .rooted h.symm
  | blocked h => exact .blocked h

theorem Parallel.status_iff (h : s.Parallel a d e) (ha : isAccountName a = true) (c : Catalog)
    (n : Node) : d.status (s.slot a c) = .ok n ↔ e.status (s.slot a c) = .ok n := by
  cases h with
  | rooted h => exact h.status_iff ha c n
  | blocked => rfl

end Store

/-! ## One call -/

namespace Cached

open Store

variable {s : Cached} {ρ : Root} {a b remote : Text} {c : Catalog} {w w' : World} {d e : Disk}

/-- What opening the file of a catalog comes to on both disks. -/
inductive Opens (s : Cached) (a : Text) (c : Catalog) :
    Disk × Except Failure (Option CacheFile) → Disk × Except Failure (Option CacheFile) → Prop
  | file {ρ : Root} {d e : Disk} (h : s.store.Twin ρ a d e) :
    Opens s a c (d, .ok (some (s.slot a c))) (e, .ok (some (s.slot a c)))
  | nothing {d e : Disk} (h : s.store.Parallel a d e) : Opens s a c (d, .ok none) (e, .ok none)
  | failed {d e : Disk} {err : Failure} (h : s.store.Parallel a d e) :
    Opens s a c (d, .error err) (e, .error err)

theorem opens_of_agree (hs : s.account = .text a) (ha : isAccountName a = true)
    (h : s.store.Agree ρ a w.disk w'.disk) (hnow : w'.now = w.now) (c : Catalog) :
    s.Opens a c (s.opened c w) (s.opened c w') := by
  have hgood := h.first.good_child ha
  have hiff := h.make_ok_iff ha w.now
  rw [opened_valid hs ha, opened_valid hs ha, hnow]
  cases hmade : (s.store.make a w.now w.disk).2 with
  | ok =>
    rw [hiff.mp hmade]
    exact .file (h.twin_of_make ha hmade)
  | error err =>
    cases hmade' : (s.store.make a w.now w'.disk).2 with
    | ok =>
      rw [hiff.mpr hmade'] at hmade
      cases hmade
    | error err' =>
      obtain ⟨e₁, rfl⟩ := (Disk.ensureDirectories_spec hgood rfl).2.2 err hmade
      obtain ⟨e₂, rfl⟩ := (Disk.ensureDirectories_spec hgood rfl).2.2 err' hmade'
      exact .nothing (.rooted (h.make ha w.now))

theorem opens (hs : s.account = .text a) (h : s.store.Parallel a w.disk w'.disk)
    (hnow : w'.now = w.now) (c : Catalog) : s.Opens a c (s.opened c w) (s.opened c w') := by
  cases ha : isAccountName a with
  | false =>
    rw [opened_invalid hs ha, opened_invalid hs ha]
    exact .failed h
  | true =>
    generalize hd : w.disk = d at h
    generalize he : w'.disk = e at h
    cases h with
    | rooted h =>
      subst hd he
      exact opens_of_agree hs ha h hnow c
    | blocked h =>
      obtain ⟨err, hmade⟩ := h a w.now ha
      rw [opened_valid hs ha, opened_valid hs ha, hnow, hd, he, hmade]
      cases err with
      | system err => exact .nothing (.blocked h)
      | nullByte | unencodable => exact .failed (.blocked h)

theorem looked_paired (h : s.store.Twin ρ a d e) (hnow : w'.now = w.now)
    (hfaults : w'.faults = w.faults) (c : Catalog) :
    s.looked c (w'.on e) (some (s.slot a c)) = s.looked c (w.on d) (some (s.slot a c)) := by
  have hstatus : (w'.on e).disk.status (s.slot a c).path = (w.on d).disk.status (s.slot a c).path :=
    h.status_eq c
  have hnow' : (w'.on e).now = (w.on d).now := hnow
  exact CacheFile.look_congr hnow' hfaults hstatus _

theorem kept_paired (h : s.store.Twin ρ a d e) (hnow : w'.now = w.now)
    (hfaults : w'.faults = w.faults) (vs : List Value) :
    (kept c vs (w'.on e) (some (s.slot a c))).1 = (kept c vs (w.on d) (some (s.slot a c))).1 ∧
      s.store.Twin ρ a (kept c vs (w.on d) (some (s.slot a c))).2
        (kept c vs (w'.on e) (some (s.slot a c))).2 := by
  unfold kept
  cases vs.mapM (Stored.ofAnswered c.stored) with
  | error err => exact ⟨rfl, h⟩
  | ok packed =>
    dsimp only
    cases (s.slot a c).encode (.list packed) with
    | error err => cases err <;> exact ⟨rfl, h⟩
    | ok t =>
      have hpath : (⟨(s.slot a c).path, t, w.faults, w.now⟩ : Save).path = s.store.slot a c := rfl
      have hrun := Save.run_paired hpath h
      simp only [World.on, hnow, hfaults]
      generalize Save.run ⟨(s.slot a c).path, t, w.faults, w.now⟩ d = ran at hrun ⊢
      generalize Save.run ⟨(s.slot a c).path, t, w.faults, w.now⟩ e = ran' at hrun ⊢
      obtain ⟨d', r⟩ := ran
      obtain ⟨e', r'⟩ := ran'
      obtain ⟨rfl, htwin⟩ := hrun
      cases r' with
      | ok => exact ⟨rfl, htwin⟩
      | error err => cases err <;> exact ⟨rfl, htwin⟩

/-- Who called cannot tell the outcomes apart. -/
structure Outcome.Same (o o' : Outcome) : Prop where
  result : o'.result = o.result
  asked : o'.asked = o.asked

/-- Nor can the account, whatever it does then. -/
structure Outcome.Paired (store : Store) (a : Text) (o o' : Outcome) : Prop
    extends Outcome.Same o o' where
  disks : store.Parallel a o.disk o'.disk

theorem outcome_collection_paired (hopens : s.Opens a c (s.opened c w) (s.opened c w'))
    (hnow : w'.now = w.now) (hfaults : w'.faults = w.faults)
    (hreply : reply w' remote c = reply w remote c) :
    (s.outcome remote w (.collection c)).Paired s.store a
      (s.outcome remote w' (.collection c)) := by
  unfold outcome
  dsimp only
  generalize s.opened c w = opened at hopens ⊢
  generalize s.opened c w' = opened' at hopens ⊢
  cases hopens with
  | failed h => exact ⟨⟨rfl, rfl⟩, h⟩
  | nothing h =>
    dsimp only [looked]
    rw [hreply]
    cases reply w remote c with
    | error err => exact ⟨⟨rfl, rfl⟩, h⟩
    | ok vs => exact ⟨⟨rfl, rfl⟩, h⟩
  | @file ρ d e h =>
    have hparallel : s.store.Parallel a d e := .rooted h.toAgree
    dsimp only
    rw [looked_paired h hnow hfaults, hreply]
    cases s.looked c (w.on d) (some (s.slot a c)) with
    | error err => exact ⟨⟨rfl, rfl⟩, hparallel⟩
    | ok items? =>
      cases items? with
      | some items => exact ⟨⟨rfl, rfl⟩, hparallel⟩
      | none =>
        dsimp only
        cases reply w remote c with
        | error err => exact ⟨⟨rfl, rfl⟩, hparallel⟩
        | ok vs =>
          obtain ⟨hresult, htwin⟩ := kept_paired (c := c) h hnow hfaults vs
          exact ⟨⟨congrArg (Except.map _) hresult, rfl⟩, .rooted htwin.toAgree⟩

theorem outcome_item_paired (hopens : s.Opens a c (s.opened c w) (s.opened c w'))
    (hnow : w'.now = w.now) (hfaults : w'.faults = w.faults) {uri : Value}
    (hreply : w'.remotes remote (w'.askedOf remote) (.item c uri) =
      w.remotes remote (w.askedOf remote) (.item c uri)) :
    (s.outcome remote w (.item c uri)).Paired s.store a (s.outcome remote w' (.item c uri)) := by
  unfold outcome
  dsimp only
  rw [hreply]
  generalize s.opened c w = opened at hopens ⊢
  generalize s.opened c w' = opened' at hopens ⊢
  cases hopens with
  | failed h => exact ⟨⟨rfl, rfl⟩, h⟩
  | nothing h => exact ⟨⟨rfl, rfl⟩, h⟩
  | @file ρ d e h =>
    have hparallel : s.store.Parallel a d e := .rooted h.toAgree
    dsimp only
    rw [looked_paired h hnow hfaults]
    cases s.looked c (w.on d) (some (s.slot a c)) with
    | error err => exact ⟨⟨rfl, rfl⟩, hparallel⟩
    | ok items? =>
      dsimp only
      cases (items?.getD []).find? (hasAddress uri) with
      | some entry => exact ⟨⟨rfl, rfl⟩, hparallel⟩
      | none => exact ⟨⟨rfl, rfl⟩, hparallel⟩

theorem outcome_paired (hs : s.account = .text a) (h : s.store.Parallel a w.disk w'.disk)
    (hnow : w'.now = w.now) (hfaults : w'.faults = w.faults)
    (hreply : ∀ q, w'.remotes remote (w'.askedOf remote) q =
      w.remotes remote (w.askedOf remote) q) (q : Request) :
    (s.outcome remote w q).Paired s.store a (s.outcome remote w' q) := by
  cases q with
  | collection c =>
    apply outcome_collection_paired (opens hs h hnow c) hnow hfaults
    rw [reply, reply, hreply]
  | item c uri => exact outcome_item_paired (opens hs h hnow c) hnow hfaults (hreply _)
  | linkTypes | fields | serverInfo => exact ⟨⟨hreply _, rfl⟩, h⟩

theorem outcome_spares (hs : s.account = .text b) (hne : a ≠ b) (h : s.store.Rooted ρ w.disk)
    (q : Request) : s.store.Spares ρ a w.disk (s.outcome remote w q).disk := by
  have hopened : ∀ c, s.store.Spares ρ a w.disk (s.opened c w).1 := by
    intro c
    cases hb : isAccountName b with
    | false =>
      rw [opened_invalid hs hb]
      exact .refl h
    | true =>
      rw [opened_valid hs hb]
      exact h.make_spares hb hne
  rcases disk_outcome s remote w q with hsame | ⟨c, hsame | ⟨f, t, hf, hsaved⟩⟩
  · rw [hsame]
    exact .refl h
  · rw [hsame]
    exact hopened c
  · obtain ⟨hb, -, rfl⟩ := opened_file hs hf
    rw [hsaved]
    exact (hopened c).trans ((hopened c).rooted.run_spares (c := c) hb hne rfl)

theorem outcome_blocked (hs : s.account = .text b) (h : s.store.IsBlocked w.disk) (q : Request) :
    (s.outcome remote w q).disk = w.disk := by
  have hopened : ∀ c, (s.opened c w).1 = w.disk ∧ ∀ f, (s.opened c w).2 ≠ .ok (some f) := by
    intro c
    cases hb : isAccountName b with
    | false =>
      rw [opened_invalid hs hb]
      exact ⟨rfl, nofun⟩
    | true =>
      obtain ⟨err, hmade⟩ := h b w.now hb
      rw [opened_valid hs hb, hmade]
      refine ⟨rfl, fun f hf => ?_⟩
      cases err <;> cases hf
  rcases disk_outcome s remote w q with hsame | ⟨c, hsame | ⟨f, t, hf, -⟩⟩
  · exact hsame
  · exact hsame.trans (hopened c).1
  · exact absurd hf ((hopened c).2 f)

theorem outcome_other (hs : s.account = .text b) (hne : a ≠ b)
    (h : s.store.Parallel a w.disk e) (q : Request) :
    s.store.Parallel a (s.outcome remote w q).disk e := by
  generalize hd : w.disk = d at h
  cases h with
  | rooted h =>
    subst hd
    exact .rooted (h.spared (outcome_spares hs hne h.first q))
  | blocked h =>
    rw [outcome_blocked hs (hd ▸ h), hd]
    exact .blocked h

end Cached

/-! ## One turn -/

def TurnReport.asked (report : TurnReport) : List (Text × Request) :=
  report.events.filterMap Event.question?

/-- What the client of a turn can tell of it: how it ended, and what was asked. -/
def TurnReport.seen (report : TurnReport) : Except Failure Answer × List (Text × Request) :=
  (report.result, report.asked)

theorem World.askedOf_eq (w : World) (remote : Text) : w.askedOf remote =
    (w.trace.filterMap Event.question?).filterMap fun asked =>
      if asked.1 = remote then some asked.2 else none := by
  unfold askedOf
  rw [List.filterMap_filterMap]
  apply List.filterMap_congr
  intro e _
  cases e <;> rfl

theorem World.askedOf_append {w after : World} {events : List Event} {remote : Text}
    {requests : List Request} (htrace : after.trace = w.trace ++ events)
    (hasked : events.filterMap Event.question? = requests.map (remote, ·)) (name : Text) :
    after.askedOf name = w.askedOf name ++ if name = remote then requests else [] := by
  rw [askedOf_eq, askedOf_eq, htrace, List.filterMap_append, List.filterMap_append, hasked,
    List.filterMap_map]
  by_cases hname : name = remote
  · subst hname
    simp
  · simp [hname, Ne.symm hname]

section

variable {store : Store} {a : Text} {w w' : World} {e : Disk} {t : Turn} {own : Text → Prop}

/-- What the request of a turn comes to. -/
def Turn.outcome (store : Store) (t : Turn) (w : World) : Cached.Outcome :=
  (t.cached store).outcome t.remote (t.enter w) t.operation.question

/-- What the client does in a turn comes to the outcome of its request. -/
structure Turn.Comes (store : Store) (client : Client) (t : Turn) (w : World) : Prop where
  result : (t.play client w).result = t.operation.finish (t.outcome store w).result
  disk : (t.play client w).after.disk = (t.outcome store w).disk
  asked : (t.play client w).asked = (t.outcome store w).asked.map (t.remote, ·)
  history : ∀ remote, (t.play client w).after.askedOf remote =
    w.askedOf remote ++ if remote = t.remote then (t.outcome store w).asked else []

theorem Turn.comes_of {client : Client} (h : Cached.Comes t.remote (t.enter w)
    ((client.answer t.operation.question).exec (t.enter w)) (t.outcome store w)) :
    t.Comes store client w := by
  obtain ⟨hresult, events, hworld, hasked⟩ := h
  have hafter := t.after_play client w
  rw [hworld] at hafter
  have htrace : (t.play client w).after.trace = w.trace ++ events := by
    rw [hafter]
    rfl
  refine ⟨?_, ?_, ?_, World.askedOf_append htrace hasked⟩
  · rw [t.result_play]
    exact congrArg t.operation.finish hresult
  · rw [hafter]
    rfl
  · rw [TurnReport.asked, TurnReport.events_eq htrace]
    exact hasked

theorem Turn.comes (hfaults : t.faults = Faults.none) (store : Store) (w : World) :
    t.Comes store (t.client store) w :=
  t.comes_of (Cached.comes_answer hfaults (t.cached store) t.operation.question)

theorem Turn.Comes.seen_eq {client client' : Client} (h : t.Comes store client w)
    (h' : t.Comes store client' w') (hsame : (t.outcome store w).Same (t.outcome store w')) :
    (t.play client' w').seen = (t.play client w).seen := by
  rw [TurnReport.seen, TurnReport.seen, h.result, h'.result, h.asked, h'.asked, hsame.result,
    hsame.asked]

/-- The account cannot tell the worlds apart, by its files or by what its remotes were asked. -/
structure Beside (store : Store) (a : Text) (own : Text → Prop) (w w' : World) : Prop where
  disks : store.Parallel a w.disk w'.disk
  asked : ∀ remote, own remote → w'.askedOf remote = w.askedOf remote

theorem Beside.play_own (h : Beside store t.account own w w') (hfaults : t.faults = Faults.none)
    (hown : own t.remote) :
    (t.play (t.client store) w').seen = (t.play (t.client store) w).seen ∧
      Beside store t.account own (t.play (t.client store) w).after
        (t.play (t.client store) w').after := by
  have hcomes := Turn.comes hfaults store w
  have hcomes' := Turn.comes hfaults store w'
  have hreply : ∀ q, (t.enter w').remotes t.remote ((t.enter w').askedOf t.remote) q =
      (t.enter w).remotes t.remote ((t.enter w).askedOf t.remote) q := by
    intro q
    show t.remotes t.remote (w'.askedOf t.remote) q = t.remotes t.remote (w.askedOf t.remote) q
    rw [h.asked t.remote hown]
  have hdisks : (t.cached store).store.Parallel t.account (t.enter w).disk (t.enter w').disk :=
    h.disks
  obtain ⟨hsame, hdisks⟩ : (t.outcome store w).Paired store t.account (t.outcome store w') :=
    Cached.outcome_paired rfl hdisks rfl rfl hreply t.operation.question
  refine ⟨hcomes.seen_eq hcomes' hsame, ?_, ?_⟩
  · rw [hcomes.disk, hcomes'.disk]
    exact hdisks
  · intro remote hremote
    rw [hcomes.history, hcomes'.history, h.asked remote hremote, hsame.asked]

theorem Beside.play_other (h : Beside store a own w w') (hfaults : t.faults = Faults.none)
    (hne : a ≠ t.account) (hother : ¬own t.remote) :
    Beside store a own (t.play (t.client store) w).after w' := by
  have hcomes := Turn.comes hfaults store w
  refine ⟨?_, ?_⟩
  · rw [hcomes.disk]
    have hdisks : (t.cached store).store.Parallel a (t.enter w).disk w'.disk := h.disks
    exact Cached.outcome_other rfl hne hdisks t.operation.question
  · intro remote hremote
    have hname : remote ≠ t.remote := by
      rintro rfl
      exact hother hremote
    rw [hcomes.history, if_neg hname, List.append_nil]
    exact h.asked remote hremote

/-! ## Whole runs -/

def worldAfter (clients : Turn → Client) (w : World) : List Turn → World
  | [] => w
  | t :: rest => worldAfter clients (t.play (clients t) w).after rest

/-- **A run.** The turns of the account look the same without the turns of other accounts. -/
theorem Beside.run {turns : List Turn} (h : Beside store a own w w')
    (hfaults : ∀ t ∈ turns, t.faults = Faults.none)
    (hown : ∀ t ∈ turns, own t.remote ↔ t.account = a) :
    ((reports (Turn.client store) w turns).filter (·.turn.account = a)).map TurnReport.seen =
      (reports (Turn.client store) w' (turns.filter (·.account = a))).map TurnReport.seen ∧
    Beside store a own (worldAfter (Turn.client store) w turns)
      (worldAfter (Turn.client store) w' (turns.filter (·.account = a))) := by
  induction turns generalizing w w' with
  | nil => exact ⟨rfl, h⟩
  | cons t rest ih =>
    rw [List.forall_mem_cons] at hfaults hown
    by_cases ha : t.account = a
    · subst ha
      obtain ⟨hseen, hafter⟩ := h.play_own hfaults.1 (hown.1.mpr rfl)
      obtain ⟨hrest, hend⟩ := ih hafter hfaults.2 hown.2
      have hturn : ∀ w, (t.play (t.client store) w).turn.account = t.account := fun _ => rfl
      simp only [reports, worldAfter, List.filter_cons, hturn, decide_true, if_true, List.map_cons]
      exact ⟨List.cons_eq_cons.mpr ⟨hseen.symm, hrest⟩, hend⟩
    · have hafter := h.play_other hfaults.1 (Ne.symm ha) (mt hown.1.mp ha)
      obtain ⟨hrest, hend⟩ := ih hafter hfaults.2 hown.2
      have hturn : ∀ w, (t.play (t.client store) w).turn.account = t.account := fun _ => rfl
      simp only [reports, worldAfter, List.filter_cons, hturn, ha, decide_false]
      exact ⟨hrest, hend⟩

/-- The remotes that an account asks. -/
def remotesOf (turns : List Turn) (a remote : Text) : Prop :=
  ∃ t ∈ turns, t.account = a ∧ t.remote = remote

/-- **Isolation.** In every run over a store that is placed well, in which no call to the disk fails
and no two accounts share a remote, the clients of an account get and ask the same as if those of
the other accounts were not there, and the files of the account are the same in the end. -/
theorem accounts_apart {turns : List Turn} (hplaced : store.IsPlaced w.disk)
    (hfaults : ∀ t ∈ turns, t.faults = Faults.none)
    (hremotes : ∀ t ∈ turns, ∀ u ∈ turns, t.remote = u.remote → t.account = u.account) (a : Text) :
    ((reports (Turn.client store) w turns).filter (·.turn.account = a)).map TurnReport.seen =
      (reports (Turn.client store) w (turns.filter (·.account = a))).map TurnReport.seen ∧
    (Store.isAccountName a = true → ∀ c n,
      (worldAfter (Turn.client store) w turns).disk.status (store.slot a c) = .ok n ↔
        (worldAfter (Turn.client store) w (turns.filter (·.account = a))).disk.status
          (store.slot a c) = .ok n) := by
  have hbeside : Beside store a (remotesOf turns a) w w := ⟨hplaced.parallel a, fun _ _ => rfl⟩
  have hown : ∀ t ∈ turns, remotesOf turns a t.remote ↔ t.account = a := by
    intro t ht
    constructor
    · rintro ⟨u, hu, rfl, hsame⟩
      exact hremotes t ht u hu hsame.symm
    · intro ha
      exact ⟨t, ht, ha, rfl⟩
  obtain ⟨hseen, hend⟩ := hbeside.run hfaults hown
  exact ⟨hseen, fun ha c n => hend.disks.status_iff ha c n⟩

end

theorem Disk.node?_empty {m : Instant} {l : Location} {n : Node}
    (h : (empty m).node? l = some n) : l = [] ∧ n = .directory m := by
  cases l with
  | nil => exact ⟨rfl, (Option.some.inj h).symm⟩
  | cons name l => cases h

theorem Disk.isSound_empty (m : Instant) : (empty m).IsSound := by
  refine ⟨⟨⟨m, rfl⟩, ⟨m, rfl⟩, ?_⟩, rfl, nofun, nofun⟩
  intro l n hn
  obtain ⟨rfl, -⟩ := node?_empty hn
  exact ⟨m, rfl⟩

theorem sampleStore_isPlaced :
    Cached.sampleStore.IsPlaced (Cached.sampleWorld sampleLists).disk := by
  apply Store.isPlaced_of_names (Disk.isSound_empty 0)
  · intro name hname
    obtain rfl := List.mem_singleton.mp hname
    exact Store.isPlain_of_isAccountName rfl
  · intro base m _ _ k t _ hk
    obtain ⟨-, hlink⟩ := Disk.node?_empty hk
    cases hlink

/-- Another account asks for all resolutions too, of a remote of its own. -/
def othersTurn : Turn :=
  { sampleTurn 0 (.request (.collection .resolutions)) with account := "bob", remote := "other" }

theorem sample_apart :
    ((reports (Turn.client Cached.sampleStore) (Cached.sampleWorld sampleLists)
        [firstTurn, othersTurn, secondTurn]).filter (·.turn.account = ("ana" : Text))).map
      TurnReport.seen = [firstReport.seen, secondReport.seen] ∧
    ∀ c n, (worldAfter (Turn.client Cached.sampleStore) (Cached.sampleWorld sampleLists)
        [firstTurn, othersTurn, secondTurn]).disk.status (Cached.sampleStore.slot "ana" c) = .ok n ↔
      secondReport.after.disk.status (Cached.sampleStore.slot "ana" c) = .ok n := by
  have hfaults : ∀ t ∈ [firstTurn, othersTurn, secondTurn], t.faults = Faults.none := by
    simp only [List.forall_mem_cons]
    exact ⟨rfl, rfl, rfl, nofun⟩
  have hremotes : ∀ t ∈ [firstTurn, othersTurn, secondTurn],
      ∀ u ∈ [firstTurn, othersTurn, secondTurn], t.remote = u.remote → t.account = u.account := by
    decide
  obtain ⟨hseen, hfiles⟩ := accounts_apart sampleStore_isPlaced hfaults hremotes "ana"
  exact ⟨hseen, hfiles rfl⟩

end CatalogCache
