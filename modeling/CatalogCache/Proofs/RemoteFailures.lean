import CatalogCache.Proofs.Ahead
import CatalogCache.Proofs.CallDiscipline

/-!
# Failures of remotes

A failure of a remote goes through a cached client as it is. At most it leaves directories behind,
and then nobody can tell later that there was such a call.
-/

namespace CatalogCache

section

variable {store : Store} {w w' w₀ w₀' : World} {t : Turn} {e : Failure}

/-! ## The call that fails -/

theorem TurnReport.asked_of_after {report : TurnReport} {d : Disk} {events : List Event}
    (h : report.after = report.before.after d events) :
    report.asked = events.filterMap Event.question? := by
  rw [asked, events_eq]
  rw [h]
  rfl

theorem Operation.finish_error (o : Operation) (e : Failure) : o.finish (.error e) = .error e := by
  cases o <;> rfl

theorem Turn.disk_of_passed (h : t.operation.question.catalog? = none) (store : Store) (w : World) :
    (t.play (t.client store) w).after.disk = w.disk := by
  rw [t.after_play]
  cases hq : t.operation.question with
  | collection c | item c => simp [hq, Request.catalog?] at h
  | linkTypes | fields | serverInfo =>
    exact congrArg (·.2.disk) (Action.exec_ask t.remote _ (t.enter w))

theorem Turn.fails (store : Store) (hname : Store.isAccountName t.account = true)
    (hfails : t.operation.question.consume
      (t.remotes t.remote (w.askedOf t.remote) t.operation.question) = .error e) :
    ((t.play (t.client store) w).asked = [] ∨
      (t.play (t.client store) w).asked = [(t.remote, t.operation.question)] ∧
        (t.play (t.client store) w).result = .error e) ∧
    Disk.Made (store.root.child t.account) w.disk (t.play (t.client store) w).after.disk := by
  have hafter := t.after_play (t.client store) w
  have hresult := t.result_play (t.client store) w
  cases (t.cached store).opening rfl hname t.bare.answer t.operation.question (t.enter w) with
  | @closed r d lines made exec =>
    have hafter := hafter.trans (congrArg (·.2) exec)
    refine ⟨.inl ?_, ?_⟩
    · rw [TurnReport.asked_of_after hafter, questions_logs]
    · rw [hafter]
      exact made
  | @asks d f? lines made file exec =>
    have hask : (t.bare.answer t.operation.question).exec (((t.enter w).on d).logged lines) = _ :=
      Cached.exec_ask_on t.remote t.operation.question (t.enter w) d lines
    have hall := exec.trans ((t.cached store).exec_asking_error f? hask hfails)
    have hafter := hafter.trans (congrArg (·.2) hall)
    refine ⟨.inr ⟨?_, ?_⟩, ?_⟩
    · rw [TurnReport.asked_of_after hafter, List.filterMap_append, questions_logs]
      rfl
    · rw [hresult]
      exact (congrArg (t.operation.finish ·.1) hall).trans (t.operation.finish_error e)
    · rw [hafter]
      exact made

/-! ## Afterwards -/

/-- The remotes of a turn reply alike from one of the worlds on and from the other. -/
def Turn.RepliesAlike (t : Turn) (w w' : World) : Prop :=
  ∀ remote history q, t.remotes remote (w'.askedOf remote ++ history) q =
    t.remotes remote (w.askedOf remote ++ history) q

/-- No client can tell the worlds apart, and since two others the same was asked. -/
structure Close (store : Store) (w₀ w₀' w w' : World) : Prop where
  disks : w'.disk = w.disk ∨ store.Near w.disk w'.disk
  asked : ∀ remote, ∃ history, w.askedOf remote = w₀.askedOf remote ++ history ∧
    w'.askedOf remote = w₀'.askedOf remote ++ history

theorem Close.outcome (h : Close store w₀ w₀' w w') (hreplies : t.RepliesAlike w₀ w₀') :
    (t.outcome store w).Same (t.outcome store w') ∧
      ((t.outcome store w').disk = (t.outcome store w).disk ∨
        store.Near (t.outcome store w).disk (t.outcome store w').disk) := by
  have hreply : ∀ q, (t.enter w').remotes t.remote ((t.enter w').askedOf t.remote) q =
      (t.enter w).remotes t.remote ((t.enter w).askedOf t.remote) q := by
    intro q
    obtain ⟨history, hfirst, hsecond⟩ := h.asked t.remote
    show t.remotes t.remote (w'.askedOf t.remote) q = t.remotes t.remote (w.askedOf t.remote) q
    rw [hfirst, hsecond]
    exact hreplies t.remote history q
  rcases h.disks with hsame | hnear
  · have hdisk : (t.enter w').disk = (t.enter w).disk := hsame
    have houtcome : t.outcome store w' = t.outcome store w :=
      Cached.outcome_congr hdisk rfl rfl hreply _ _
    rw [houtcome]
    exact ⟨⟨rfl, rfl⟩, .inl rfl⟩
  · have hdisks : (t.cached store).store.Near (t.enter w).disk (t.enter w').disk := hnear
    obtain ⟨hseen, hafter⟩ := Cached.outcome_near rfl hdisks rfl rfl hreply t.operation.question
    exact ⟨hseen, .inr hafter⟩

theorem Close.play (h : Close store w₀ w₀' w w') (hfaults : t.faults = Faults.none)
    (hreplies : t.RepliesAlike w₀ w₀') :
    (t.play (t.client store) w').seen = (t.play (t.client store) w).seen ∧
      Close store w₀ w₀' (t.play (t.client store) w).after (t.play (t.client store) w').after := by
  have hcomes := Turn.comes hfaults store w
  have hcomes' := Turn.comes hfaults store w'
  obtain ⟨hsame, hdisks⟩ := h.outcome hreplies
  refine ⟨hcomes.seen_eq hcomes' hsame, ?_, ?_⟩
  · rw [hcomes.disk, hcomes'.disk]
    exact hdisks
  · intro remote
    obtain ⟨history, hfirst, hsecond⟩ := h.asked remote
    refine ⟨history ++ if remote = t.remote then (t.outcome store w).asked else [], ?_, ?_⟩
    · rw [hcomes.history, hfirst, List.append_assoc]
    · rw [hcomes'.history, hsecond, hsame.asked, List.append_assoc]

/-- **A later run.** It looks the same in both worlds. -/
theorem Close.run {turns : List Turn} (h : Close store w₀ w₀' w w')
    (hfaults : ∀ t ∈ turns, t.faults = Faults.none)
    (hreplies : ∀ t ∈ turns, t.RepliesAlike w₀ w₀') :
    (reports (Turn.client store) w' turns).map TurnReport.seen =
      (reports (Turn.client store) w turns).map TurnReport.seen ∧
    Close store w₀ w₀' (worldAfter (Turn.client store) w turns)
      (worldAfter (Turn.client store) w' turns) := by
  induction turns generalizing w w' with
  | nil => exact ⟨rfl, h⟩
  | cons t rest ih =>
    rw [List.forall_mem_cons] at hfaults hreplies
    obtain ⟨hseen, hafter⟩ := h.play hfaults.1 hreplies.1
    obtain ⟨hrest, hend⟩ := ih hafter hfaults.2 hreplies.2
    exact ⟨List.cons_eq_cons.mpr ⟨hseen, hrest⟩, hend⟩

theorem Close.status_iff (h : Close store w₀ w₀' w w') {a : Text}
    (ha : Store.isAccountName a = true) (c : Catalog) (n : Node) :
    w'.disk.status (store.slot a c) = .ok n ↔ w.disk.status (store.slot a c) = .ok n := by
  rcases h.disks with hsame | hnear
  · rw [hsame]
  · exact (hnear.status_iff ha c n).symm

/-- **Failures.** Whatever fails on the disk meanwhile, if the remote is asked and fails, the call
fails with the same, and nothing is done but that directories are made on the path to that of the
account. If the disk was changed at all, let it be a tree in which the root of the store is founded.
Then in every later run in which no call to the disk fails, and the remotes reply as if they had not
been asked, all clients of the store get and ask the same as without the call, and in the end all
accounts have the same files. -/
theorem remote_failure (hname : Store.isAccountName t.account = true)
    (hfails : t.operation.question.consume
      (t.remotes t.remote (w.askedOf t.remote) t.operation.question) = .error e) :
    let failed := t.play (t.client store) w
    (failed.asked = [] ∨
      failed.asked = [(t.remote, t.operation.question)] ∧ failed.result = .error e) ∧
    Disk.Made (store.root.child t.account) w.disk failed.after.disk ∧
    (t.operation.question.catalog? = none → failed.after.disk = w.disk) ∧
    ((failed.after.disk = w.disk ∨ w.disk.IsTree ∧ ∃ ρ, store.Founded ρ w.disk) →
      ∀ turns : List Turn, (∀ u ∈ turns, u.faults = Faults.none) →
        (∀ u ∈ turns, u.RepliesAlike w failed.after) →
        (reports (Turn.client store) failed.after turns).map TurnReport.seen =
          (reports (Turn.client store) w turns).map TurnReport.seen ∧
        ∀ a, Store.isAccountName a = true → ∀ c n,
          (worldAfter (Turn.client store) failed.after turns).disk.status (store.slot a c) =
              .ok n ↔
            (worldAfter (Turn.client store) w turns).disk.status (store.slot a c) = .ok n) := by
  intro failed
  obtain ⟨hends, hmade⟩ := Turn.fails store hname hfails
  refine ⟨hends, hmade, fun hpassed => Turn.disk_of_passed hpassed store w, ?_⟩
  intro hplace turns hfaults hreplies
  have hdisks : failed.after.disk = w.disk ∨ store.Near w.disk failed.after.disk := by
    rcases hplace with hsame | ⟨htree, ρ, hfounded⟩
    · exact .inl hsame
    · exact .inr (hfounded.near htree hname hmade)
  have hclose : Close store w failed.after w failed.after :=
    ⟨hdisks, fun remote => ⟨[], (List.append_nil _).symm, (List.append_nil _).symm⟩⟩
  obtain ⟨hseen, hend⟩ := hclose.run hfaults hreplies
  exact ⟨hseen, fun a ha c n => hend.status_iff ha c n⟩

end

/-- The remote has nothing to say. -/
def failingTurn : Turn :=
  { sampleTurn 0 (.request (.collection .resolutions)) with
    remotes := fun _ _ _ => .error .endOfInput }

theorem sample_forgotten :
    let world := Cached.sampleWorld sampleLists
    let failed := failingTurn.play (failingTurn.client Cached.sampleStore) world
    failed.seen = (.error .endOfInput, [(↑"jira", .collection .resolutions)]) ∧
    Disk.Made (Cached.sampleStore.root.child "ana") world.disk failed.after.disk ∧
    (reports (Turn.client Cached.sampleStore) failed.after [firstTurn, secondTurn]).map
      TurnReport.seen = [firstReport.seen, secondReport.seen] := by
  intro world failed
  have hfounded : ∃ ρ, Cached.sampleStore.Founded ρ world.disk := by
    refine sampleStore_isPlaced.resolve_right fun hblocked => ?_
    obtain ⟨e, he⟩ := hblocked "ana" 0 rfl
    have hmade : (Cached.sampleStore.make "ana" 0 world.disk).2 = .ok () := by cbv
    rw [he] at hmade
    cases hmade
  obtain ⟨hends, hmade, -, hlater⟩ :=
    @remote_failure Cached.sampleStore world failingTurn .endOfInput rfl rfl
  have hasked : failed.asked = [(↑"jira", .collection .resolutions)] := by cbv
  refine ⟨?_, hmade, ?_⟩
  · rcases hends with hnothing | ⟨-, hresult⟩
    · cases hnothing.symm.trans hasked
    · exact Prod.ext hresult hasked
  · refine (hlater (.inr ⟨(Disk.isSound_empty 0).toIsTree, hfounded⟩) [firstTurn, secondTurn]
      ?_ ?_).1
    · simp only [List.forall_mem_cons]
      exact ⟨rfl, rfl, List.forall_mem_nil _⟩
    · simp only [List.forall_mem_cons]
      exact ⟨fun _ _ _ => rfl, fun _ _ _ => rfl, List.forall_mem_nil _⟩

/-- The directory of one account is a link to that of another, which is missing. -/
def linkedWorld : World :=
  { Cached.sampleWorld (fun _ => []) with
    disk := ⟨[([], .directory 0), (["store"], .directory 0), (["store", "bob"], .link "ana")], []⟩ }

def bobsTurn : Turn :=
  { sampleTurn 0 (.request (.collection .resolutions)) with
    account := "bob"
    remote := "other"
    remotes := fun _ _ => Cached.sampleAnswers fun _ => [] }

/-- There the call that fails is what makes it possible to store anything through the link. -/
theorem link_remembers :
    let failed := failingTurn.play (failingTurn.client Cached.sampleStore) linkedWorld
    failed.seen = (.error .endOfInput, [(↑"jira", .collection .resolutions)]) ∧
    (∀ u ∈ [bobsTurn, bobsTurn], u.faults = Faults.none ∧
      u.RepliesAlike linkedWorld failed.after) ∧
    (reports (Turn.client Cached.sampleStore) linkedWorld [bobsTurn, bobsTurn]).map
      TurnReport.asked = [[(↑"other", .collection .resolutions)],
        [(↑"other", .collection .resolutions)]] ∧
    (reports (Turn.client Cached.sampleStore) failed.after [bobsTurn, bobsTurn]).map
      TurnReport.asked = [[(↑"other", .collection .resolutions)], []] := by
  intro failed
  refine ⟨?_, ?_, ?_, ?_⟩
  · cbv
  · simp only [List.forall_mem_cons]
    exact ⟨⟨rfl, fun _ _ _ => rfl⟩, ⟨rfl, fun _ _ _ => rfl⟩, List.forall_mem_nil _⟩
  · cbv
  · cbv

end CatalogCache
