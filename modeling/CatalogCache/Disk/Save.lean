import CatalogCache.Disk.Call
import CatalogCache.Disk.Fault

/-!
# Saving a file

A new content goes to a temporary file first, which then takes the place of the old file. A save
is a machine, so that what is on the disk between two of its calls can be spoken about.
-/

namespace CatalogCache

structure Save where
  path : FilePath
  text : Text
  faults : Faults
  now : Instant

namespace Save

/-- How far a save has come. From the second stage on there is a temporary file at `place`. -/
inductive Stage
  | creating
  | opening (temp : FilePath) (place : Location)
  | writing (temp : FilePath) (place : Location)
  | flushing (temp : FilePath) (place : Location) (bytes : List UInt8)
  | syncing (temp : FilePath)
  | replacing (temp : FilePath)
  | discarding (temp : FilePath) (e : FileError)
  | done (r : Except FileError Unit)

/-- More stages to come at most. -/
def Stage.rank : Stage → Nat
  | creating => 7
  | opening .. => 6
  | writing .. => 5
  | flushing .. => 4
  | syncing _ => 3
  | replacing _ => 2
  | discarding .. => 1
  | done _ => 0

/-- A fault at a step where bytes go to the temporary file. Some of them may be there already. -/
def broken (s : Save) (fault : Fault) (temp : FilePath) (place : Location) (bytes : List UInt8)
    (d : Disk) : Stage × Disk :=
  (.discarding temp (.system fault.error), d.put place (.file (bytes.take fault.kept) s.now))

/-- One call. Whatever fails once the temporary file is there, the next call takes it out. -/
def step (s : Save) (stage : Stage) (d : Disk) : Stage × Disk :=
  match stage with
  | .creating => match s.faults.guard .createTemp (d.createTemp s.path s.now) with
    | .error e => (.done (.error e), d)
    | .ok (temp, place, d) => (.opening temp place, d)
  | .opening temp place => match s.faults.guard .openTemp (.ok ()) with
    | .error e => (.discarding temp e, d)
    | .ok () => (.writing temp place, d)
  | .writing temp place => match Utf8.encode s.text with
    | .error e => (.discarding temp (.unencodable e), d)
    | .ok bytes => match s.faults .writeTemp with
      | some fault => s.broken fault temp place bytes d
      | none => (.flushing temp place bytes, d.put place (.file bytes s.now))
  | .flushing temp place bytes => match s.faults .flush with
    | some fault => s.broken fault temp place bytes d
    | none => (.syncing temp, d)
  | .syncing temp => match s.faults.guard .sync (.ok ()) with
    | .error e => (.discarding temp e, d)
    | .ok () => (.replacing temp, d)
  | .replacing temp => match s.faults.guard .rename (d.rename temp s.path s.now) with
    | .error e => (.discarding temp e, d)
    | .ok d => (.done (.ok ()), d)
  | .discarding temp e => match s.faults.guard .discard (d.unlink temp s.now) with
    | .error _ => (.done (.error e), d)
    | .ok d => (.done (.error e), d)
  | .done r => (.done r, d)

theorem rank_step (s : Save) (stage : Stage) (d : Disk) (h : stage.rank ≠ 0) :
    (s.step stage d).1.rank < stage.rank := by
  cases stage <;> simp only [step, broken] <;> repeat' split
  all_goals simp_all [Stage.rank]

def finish (s : Save) (stage : Stage) (d : Disk) : Disk × Except FileError Unit :=
  match _h : stage with
  | .done r => (d, r)
  | .creating | .opening .. | .writing .. | .flushing .. | .syncing _ | .replacing _
  | .discarding .. => s.finish (s.step stage d).1 (s.step stage d).2
termination_by stage.rank
decreasing_by all_goals (subst _h; exact s.rank_step _ d (by simp [Stage.rank]))

def run (s : Save) (d : Disk) : Disk × Except FileError Unit := s.finish .creating d

end Save

end CatalogCache
