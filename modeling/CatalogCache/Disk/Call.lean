import CatalogCache.Disk.Fault
import CatalogCache.Disk.Walk

/-!
# Calls to the disk

What programs ask of a disk, by path. A call that fails leaves the disk as it was, except that
making a directory may leave some of the directories above it.
-/

namespace CatalogCache.Disk

def about {α : Type} (p : FilePath) (r : Except Errno α) : Except FileError α :=
  r.mapError fun errno => .system ⟨errno, [p.toText]⟩

def find (d : Disk) (follow : Bool) (p : FilePath) : Except FileError Location := do
  checkPath p.toText
  about p (d.locate follow p)

def status (d : Disk) (p : FilePath) : Except FileError Node := do
  let l ← d.find true p
  match d.node? l with
  | some n => return n
  | none => throw (.system ⟨.noEntry, [p.toText]⟩)

def read (d : Disk) (p : FilePath) : Except FileError (List UInt8) := do
  match ← d.status p with
  | .file bytes _ => return bytes
  | _ => throw (.system ⟨.isDirectory, [p.toText]⟩)

/-! ## Directories -/

def makeDirectory (d : Disk) (p : FilePath) (now : Instant) : Except FileError Disk := do
  let l ← d.find false p
  match d.node? l with
  | some _ => throw (.system ⟨.alreadyExists, [p.toText]⟩)
  | none => return d.enter l (.directory now) now

/-- Whether the path leads to a directory. A path that leads nowhere does not. -/
def isDirectory (d : Disk) (faults : Faults) (p : FilePath) : Except FileError Bool :=
  match faults.guard .checkDirectory (d.status p) with
  | .ok n => .ok n.isDirectory
  | .error (.system e) =>
    if e.errno = .noEntry ∨ e.errno = .notDirectory ∨ e.errno = .loop then .ok false
    else .error (.system e)
  | .error _ => .ok false

/-- Makes one directory, unless it is there already. To know that takes its status. -/
def ensureDirectory (d : Disk) (faults : Faults) (p : FilePath) (now : Instant) :
    Except FileError Disk :=
  match d.makeDirectory p now with
  | .ok d => .ok d
  | .error (.system e) =>
    if e.errno = .noEntry then .error (.system e)
    else do if ← d.isDirectory faults p then return d else throw (.system e)
  | .error e => .error e

/-- Makes a directory, and the missing ones above it, unless it is there already. -/
def ensureDirectories (d : Disk) (faults : Faults) (p : FilePath) (now : Instant) :
    Disk × Except FileError Unit :=
  match d.ensureDirectory faults p now with
  | .ok d => (d, .ok ())
  | .error e =>
    let missing : Bool := match e with
      | .system e => e.errno = .noEntry
      | _ => false
    if _h : missing ∧ p.parts ≠ [] then
      match d.ensureDirectories faults p.parent now with
      | (d, .error e) => (d, .error e)
      | (d, .ok ()) => match d.ensureDirectory faults p now with
        | .ok d => (d, .ok ())
        | .error e => (d, .error e)
    else (d, .error e)
termination_by p.parts.length
decreasing_by
  have := List.length_pos_iff.2 _h.2
  simp only [FilePath.parent, List.length_dropLast]
  omega

/-- What is left of making a directory that fails halfway: so many levels of its path, and never
the directory itself. -/
def ensureLevels (d : Disk) (faults : Faults) (p : FilePath) (levels : Nat) (now : Instant) :
    Disk :=
  match p.parts.dropLast.take levels with
  | [] => d
  | parts => (d.ensureDirectories faults ⟨p.root, parts⟩ now).1

/-! ## Temporary files -/

def tempName (name : Text) (serial : Nat) : Text :=
  List.flatten [".", name, ".", Text.padZeros 8 (Text.ofNat serial), ".tmp"]

def tempPath (d : Disk) (p : FilePath) (serial : Nat) : FilePath :=
  (d.absolute p.parent).child (tempName p.name serial)

/-- Nothing stands at a path. A path that leads nowhere counts as free. -/
def isFree (d : Disk) (p : FilePath) : Bool :=
  match d.locate false p with
  | .ok l => (d.node? l).isNone
  | .error _ => true

/-- The first number whose temporary file is not there. There are more numbers to choose from than
there are files. -/
def freeSerial (d : Disk) (p : FilePath) : Nat :=
  ((List.range (d.nodes.length + 1)).find? fun serial => d.isFree (d.tempPath p serial)).getD 0

def createTemp (d : Disk) (p : FilePath) (now : Instant) :
    Except FileError (FilePath × Location × Disk) := do
  let temp := d.tempPath p (d.freeSerial p)
  let l ← d.find false temp
  match d.node? l with
  | some _ => throw (.system ⟨.alreadyExists, [temp.toText]⟩)
  | none => return (temp, l, d.enter l (.file [] now) now)

/-! ## Files -/

def unlink (d : Disk) (p : FilePath) (now : Instant) : Except FileError Disk := do
  let l ← d.find false p
  match d.node? l with
  | none => throw (.system ⟨.noEntry, [p.toText]⟩)
  | some (.directory _) => throw (.system ⟨.isDirectory, [p.toText]⟩)
  | some _ => return d.leave l now

/-- A path that ends in no name cannot be renamed to. -/
def endsInName (p : FilePath) : Bool := p.parts.getLastD FilePath.dotDot ≠ FilePath.dotDot

/-- Gives the file at `source` the path `target`. What stands there is replaced, unless it is a
directory. One that holds the file, at whatever depth, is called not empty. -/
def rename (d : Disk) (source target : FilePath) (now : Instant) : Except FileError Disk := do
  checkPath source.toText
  checkPath target.toText
  let fail {α : Type} (errno : Errno) : Except FileError α :=
    .error (.system ⟨errno, [source.toText, target.toText]⟩)
  match d.locate false source, d.locate false target with
  | .error e, _ => fail e
  | _, .error e => fail e
  | .ok l, .ok m =>
    if !endsInName target then fail .busy
    else match d.node? l, d.node? m with
      | none, _ => fail .noEntry
      | _, some (.directory _) => fail (if m.isPrefixOf l.dropLast then .notEmpty else .isDirectory)
      | some n, _ => return (d.leave l now).enter m n now

/-! ## Changes from outside -/

def makeDirectories (d : Disk) (p : FilePath) (now : Instant) : Disk × Except FileError Unit :=
  match d.makeDirectory p now with
  | .ok d => (d, .ok ())
  | .error (.system e) =>
    if e.errno ≠ .noEntry then (d, .error (.system e))
    else match d.ensureDirectories Faults.none p.parent now with
      | (d, .error e) => (d, .error e)
      | (d, .ok ()) => match d.makeDirectory p now with
        | .ok d => (d, .ok ())
        | .error e => (d, .error e)
  | .error e => (d, .error e)

def write (d : Disk) (p : FilePath) (bytes : List UInt8) (modified now : Instant) :
    Disk × Except FileError Unit :=
  match d.ensureDirectories Faults.none p.parent now with
  | (d, .error e) => (d, .error e)
  | (d, .ok ()) => match d.find true p with
    | .error e => (d, .error e)
    | .ok l => match d.node? l with
      | some (.file ..) => (d.put l (.file bytes modified), .ok ())
      | some _ => (d, .error (.system ⟨.isDirectory, [p.toText]⟩))
      | none => (d.enter l (.file bytes modified) now, .ok ())

def touch (d : Disk) (p : FilePath) (modified : Instant) : Except FileError Disk := do
  let l ← d.find true p
  match d.node? l with
  | some (.file bytes _) => return d.put l (.file bytes modified)
  | some (.directory _) => return d.put l (.directory modified)
  | _ => throw (.system ⟨.noEntry, [p.toText]⟩)

def remove (d : Disk) (p : FilePath) (now : Instant) : Except FileError Disk := do
  let l ← d.find false p
  match d.node? l with
  | none => throw (.system ⟨.noEntry, [p.toText]⟩)
  | some _ => return d.leaveTree l now

def link (d : Disk) (p : FilePath) (target : Text) (now : Instant) : Except FileError Disk := do
  let l ← d.find false p
  match d.node? l with
  | some _ => throw (.system ⟨.alreadyExists, [target, p.toText]⟩)
  | none => return d.enter l (.link target) now

def below (d : Disk) (l : Location) : List (Location × Node) :=
  d.nodes.filterMap fun entry =>
    if l.isPrefixOf entry.1 && entry.1 != l then some (entry.1.drop l.length, entry.2) else none

end CatalogCache.Disk
