import CatalogCache.Lookup
import CatalogCache.Proofs.Ages
import CatalogCache.Proofs.Persisting
import CatalogCache.Proofs.Slots

/-!
# Runs

In each turn of a run one client is asked for one thing. From turn to turn the clock may go either
way, other calls to the disk may fail, and remotes may change their minds.
-/

namespace CatalogCache

/-! ## Operations -/

inductive Operation
  | request (r : Request)
  | find (c : Catalog) (name : Value)

namespace Operation

def run (client : Client) : Operation → Action Answer
  | request r => client.answer r
  | find c name => .value <$> client.find c name

def question : Operation → Request
  | request r => r
  | find c _ => .collection c

/-- What becomes of the answer. -/
def finish : Operation → Except Failure Answer → Except Failure Answer
  | request _, r => r
  | find c name, r => do return .value (← Lookup.find c (← r) name).2

theorem exec_run (o : Operation) (client : Client) (w : World) :
    (o.run client).exec w = (o.finish ((client.answer o.question).exec w).1,
      ((client.answer o.question).exec w).2) := by
  cases o with
  | request r => rfl
  | find c name =>
    show (Answer.value <$> client.find c name).exec w = _
    rw [Action.exec_map, Client.find, Action.exec_bind, question]
    cases (client.answer (.collection c)).exec w with
    | mk r w' =>
      cases r with
      | error e => rfl
      | ok a =>
        dsimp only
        rw [Action.exec_bind, Action.exec_ofExcept]
        cases hfind : Lookup.find c a name <;> simp [finish, hfind]

end Operation

/-! ## Turns -/

/-- Who is asked for what, and what the world is like meanwhile. -/
structure Turn where
  account : Text
  lifetimes : PerCatalog Duration
  remote : Text
  operation : Operation
  now : Instant
  faults : Faults
  remotes : Text → Remote

structure TurnReport where
  turn : Turn
  before : World
  result : Except Failure Answer
  after : World

namespace Turn

def bare (t : Turn) : Client := .remote t.remote

def cached (store : Store) (t : Turn) : Cached := ⟨.text t.account, store, t.lifetimes⟩

def client (store : Store) (t : Turn) : Client := .cached (t.cached store) t.bare

def enter (t : Turn) (w : World) : World :=
  { w with now := t.now, faults := t.faults, remotes := t.remotes }

def play (t : Turn) (client : Client) (w : World) : TurnReport where
  turn := t
  before := t.enter w
  result := ((t.operation.run client).exec (t.enter w)).1
  after := ((t.operation.run client).exec (t.enter w)).2

theorem result_play (t : Turn) (client : Client) (w : World) :
    (t.play client w).result =
      t.operation.finish ((client.answer t.operation.question).exec (t.enter w)).1 :=
  congrArg (·.1) (t.operation.exec_run client (t.enter w))

theorem after_play (t : Turn) (client : Client) (w : World) :
    (t.play client w).after = ((client.answer t.operation.question).exec (t.enter w)).2 :=
  congrArg (·.2) (t.operation.exec_run client (t.enter w))

end Turn

/-- The age of every file that a call looks at can be told. -/
def TurnReport.Timely (store : Store) (report : TurnReport) : Prop :=
  ∀ c, (report.turn.cached store).AtFile c report.before CacheFile.Timely

def reports (clients : Turn → Client) (w : World) : List Turn → List TurnReport
  | [] => []
  | t :: rest =>
    t.play (clients t) w :: reports clients (t.play (clients t) w).after rest

/-- What holds before a run and is kept by each of its turns holds before every turn. -/
theorem invariant_reports (inv : List TurnReport → World → Prop) {clients : Turn → Client}
    {allowed : Turn → Prop}
    (hstep : ∀ history w t, inv history w → allowed t →
      inv (history ++ [t.play (clients t) w]) (t.play (clients t) w).after)
    {history : List TurnReport} {w : World} {turns : List Turn} (hinv : inv history w)
    (hturns : ∀ t ∈ turns, allowed t) {earlier later : List TurnReport} {report : TurnReport}
    (hrun : reports clients w turns = earlier ++ report :: later) :
    ∃ w t, inv (history ++ earlier) w ∧ allowed t ∧ report = t.play (clients t) w := by
  induction turns generalizing history w earlier with
  | nil => simp [reports] at hrun
  | cons t rest ih =>
    rw [List.forall_mem_cons] at hturns
    cases earlier with
    | nil =>
      obtain ⟨rfl, -⟩ := List.cons.inj hrun
      exact ⟨w, t, by simpa using hinv, hturns.1, rfl⟩
    | cons first earlier =>
      obtain ⟨rfl, hrest⟩ := List.cons.inj hrun
      obtain ⟨w', t', hinv', ht', hreport⟩ := ih (hstep history w t hinv hturns.1) hturns.2 hrest
      exact ⟨w', t', by simpa using hinv', ht', hreport⟩

/-! ## A small run -/

def sampleLists : Catalog → List Value
  | .resolutions => [.record .resolution [.text "/1", .int 1, .text "Done", .null]]
  | _ => []

theorem sampleLists_entries (c : Catalog) : c.Entries (sampleLists c) := by
  cases c with
  | resolutions =>
    rintro v hv
    obtain rfl := List.mem_singleton.mp hv
    exact Stored.inhabits_record
      (.cons (.text _) (.cons (.optional (.int 1)) (.cons (.text _) (.cons (.null _) .nil))))
  | _ => exact nofun

def sampleTurn (now : Instant) (operation : Operation) : Turn where
  account := "ana"
  lifetimes := fun _ => .days 1
  remote := "jira"
  operation := operation
  now := now
  faults := Faults.none
  remotes := fun _ _ => Cached.sampleAnswers sampleLists

/-- First all resolutions are asked for, and then one of them by its name. -/
def firstTurn : Turn := sampleTurn 0 (.request (.collection .resolutions))

def secondTurn : Turn := sampleTurn 1 (.find .resolutions (.text "Done"))

def firstReport : TurnReport :=
  firstTurn.play (firstTurn.client Cached.sampleStore) (Cached.sampleWorld sampleLists)

def secondReport : TurnReport :=
  secondTurn.play (secondTurn.client Cached.sampleStore) firstReport.after

theorem reports_sample : reports (Turn.client Cached.sampleStore) (Cached.sampleWorld sampleLists)
    [firstTurn, secondTurn] = [firstReport, secondReport] := rfl

theorem after_firstReport : ∃ bytes, firstReport.after.disk =
    Cached.sampleDisk.put ["store", "ana", "resolutions.json"] (.file bytes 0) := by
  refine ⟨(firstReport.after.disk.file? ["store", "ana", "resolutions.json"]).elim [] Prod.fst, ?_⟩
  cbv

theorem sampleStore_isEmpty :
    Cached.sampleStore.IsEmpty ["store"] (Cached.sampleWorld sampleLists).disk where
  root := rfl
  home := rfl
  leads := by
    refine ⟨[], ["store"], [], 0, rfl, rfl, .nil _ _, rfl, ?_, ?_⟩
    · rintro part hpart
      obtain rfl := List.mem_singleton.mp hpart
      exact Store.isPlain_of_isAccountName rfl
    · rintro k n hnode ⟨rest, rfl⟩
      cases hnode

theorem CacheFile.timely_of_modified {f : CacheFile} {w : World} {m : Instant}
    (hgood : f.path.isAddressable = true) (hall : ∀ entry ∈ w.disk.nodes, entry.2.modified = m)
    (hrange : ∃ age, Duration.since? w.now m = .ok age) : f.Timely w := by
  intro n hstatus
  obtain ⟨l, -, hnode⟩ := (Disk.status_ok_iff hgood).mp (Disk.guard_ok hstatus)
  obtain ⟨entry, hfind, rfl⟩ := Option.map_eq_some_iff.mp hnode
  rw [hall entry (List.mem_of_find?_eq_some hfind)]
  exact hrange

theorem timely_firstReport : firstReport.Timely Cached.sampleStore := by
  intro c f w hexec
  have hof := Cached.sample_of (.days 1) sampleLists
  cases (Cached.sample_file? c (.days 1) sampleLists).symm.trans hexec
  refine CacheFile.timely_of_modified (m := 0) (hof.slot_good c) ?_
    ⟨.zero, Duration.since?_self 0⟩
  simp [World.on, Cached.sampleDisk, Node.modified]

theorem timely_of_firstReport {report : TurnReport} (lifetime : Duration)
    (hcached : report.turn.cached Cached.sampleStore = Cached.sample lifetime)
    (hdisk : report.before.disk = firstReport.after.disk)
    (hfaults : report.before.faults = Faults.none)
    (hage : ∃ age, Duration.since? report.before.now 0 = .ok age) :
    report.Timely Cached.sampleStore := by
  intro c f w hexec
  obtain ⟨bytes, hafter⟩ := after_firstReport
  rw [hafter] at hdisk
  have hof : (Cached.sample lifetime).Of "ana" report.before.disk :=
    ⟨rfl, rfl, rfl, by rw [hdisk]; rfl⟩
  have hthere : report.before.disk.status ((Cached.sample lifetime).directory "ana") =
      .ok (.directory 0) := by
    rw [hdisk]
    cbv
  have hnone : ∀ call, report.before.faults call = none := fun call => congrFun hfaults call
  rw [hcached] at hexec
  cases (Cached.exec_file?_there hof (hnone _) (hnone _) hthere c).symm.trans hexec
  refine CacheFile.timely_of_modified (m := 0) (hof.slot_good c) ?_ hage
  rw [hdisk]
  simp [Cached.sampleDisk, Disk.put, Disk.putNode, Node.modified]

theorem timely_secondReport : secondReport.Timely Cached.sampleStore :=
  timely_of_firstReport (.days 1) rfl rfl rfl
    ⟨_, Duration.since?_near (by decide) (by decide)⟩

end CatalogCache
