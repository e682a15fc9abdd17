import CatalogCache.Disk.FileError

/-!
# Faults

A call to a disk may fail although the disk would allow it: because of permissions, a full volume
or a broken device.
-/

namespace CatalogCache

/-- The calls to the disk that can fail for reasons outside the disk. -/
inductive DiskCall
  | makeDirectory
  /-- The status of a directory that could not be made, because it may be there already. -/
  | checkDirectory
  | status
  | read
  | createTemp
  | openTemp
  | writeTemp
  | flush
  | sync
  | rename
  | discard
deriving DecidableEq

structure Fault where
  error : SystemError
  /-- How much of the work is done before the call fails: the bytes that a failed write leaves in
  the file, or the levels of a path that are there once a directory could not be made. -/
  kept : Nat
deriving DecidableEq

abbrev Faults := DiskCall → Option Fault

def Faults.none : Faults := fun _ => .none

def Faults.guard {α : Type} (faults : Faults) (call : DiskCall) (r : Except FileError α) :
    Except FileError α :=
  match faults call with
  | some fault => .error (.system fault.error)
  | .none => r

end CatalogCache
