import CatalogCache.FilePath

/-! # Errors of the file system -/

namespace CatalogCache

inductive Errno
  | noEntry
  | denied
  | busy
  | alreadyExists
  | notDirectory
  | isDirectory
  | noSpace
  | nameTooLong
  | notEmpty
  | loop
deriving DecidableEq

namespace Errno

def code : Errno → Nat
  | noEntry => 2
  | denied => 13
  | busy => 16
  | alreadyExists => 17
  | notDirectory => 20
  | isDirectory => 21
  | noSpace => 28
  | nameTooLong => 36
  | notEmpty => 39
  | loop => 40

def reason : Errno → Text
  | noEntry => "No such file or directory"
  | denied => "Permission denied"
  | busy => "Device or resource busy"
  | alreadyExists => "File exists"
  | notDirectory => "Not a directory"
  | isDirectory => "Is a directory"
  | noSpace => "No space left on device"
  | nameTooLong => "File name too long"
  | notEmpty => "Directory not empty"
  | loop => "Too many levels of symbolic links"

end Errno

structure SystemError where
  errno : Errno
  paths : List Text
deriving DecidableEq

def SystemError.message (e : SystemError) : Text :=
  let about : Text := match e.paths with
    | [] => []
    | paths => List.flatten [": ", Text.join " -> " (paths.map Text.quoted)]
  List.flatten ["[Errno ", Text.ofNat e.errno.code, "] ", e.errno.reason, about]

/-- Why a path or a file could not be used. Only the first kind comes from the system. -/
inductive FileError
  | system (e : SystemError)
  /-- The path has a NUL in it. -/
  | nullByte
  /-- The path, or the text for the file, has no bytes. -/
  | unencodable (e : Unencodable)
deriving DecidableEq

def FileError.message : FileError → Text
  | system e => e.message
  | nullByte => "embedded null byte"
  | unencodable e => e.message

end CatalogCache
