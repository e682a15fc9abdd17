import CatalogCache.Disk

/-!
# Walking paths

From a path to a place on the disk. Links are followed, but only so many of them; the last name of
a path need not be there.
-/

namespace CatalogCache

/-! ## Names -/

/-- A code point that stands for a byte which is no text. -/
def CodePoint.isStrayByte (c : CodePoint) : Bool := 0xdc80 ≤ c.val && c.val ≤ 0xdcff

namespace Walk

/-- The first surrogates from `position` on that stand for no byte. -/
def unencodable? (position : Nat) : Text → Option Unencodable
  | [] => none
  | c :: rest =>
    if c.isSurrogate && !c.isStrayByte then
      some ⟨c, position, ((c :: rest).takeWhile CodePoint.isSurrogate).length⟩
    else unencodable? (position + 1) rest

def byteLength (t : Text) : Nat :=
  t.foldl (fun n c => n + if c.isStrayByte then 1 else (Utf8.encodePoint c).length) 0

/-- The longest name, in bytes. -/
def maxName : Nat := 255

/-- The longest path, in bytes. -/
def maxPath : Nat := 4095

/-- How many links may be followed on one path. -/
def maxLinks : Nat := 40

/-- The parts of the target of a link. A slash at the end asks for a directory. -/
def targetParts (target : Text) : List Text :=
  let pieces := Text.splitOn FilePath.slash target
  let closing : List Text := if pieces.getLast? = some [] then [FilePath.dot] else []
  pieces.filter (· ≠ []) ++ closing

/-! ## The walk -/

/-- Goes on from the directory at `l`. The last part is not followed if it is a link, unless
`follow` asks for that. -/
def walk (d : Disk) (follow : Bool) (links : Nat) (l : Location) (parts : List Text) :
    Except Errno Location :=
  match parts with
  | [] => .ok l
  | part :: rest =>
    if part = FilePath.dot then walk d follow links l rest
    else if part = FilePath.dotDot then walk d follow links l.dropLast rest
    else if maxName < byteLength part then .error .nameTooLong
    else match d.node? (l ++ [part]) with
      | none => if rest = [] then .ok (l ++ [part]) else .error .noEntry
      | some (.directory _) => walk d follow links (l ++ [part]) rest
      | some (.file ..) => if rest = [] then .ok (l ++ [part]) else .error .notDirectory
      | some (.link target) =>
        if rest = [] ∧ !follow then .ok (l ++ [part])
        else match links with
          | 0 => .error .loop
          | links + 1 =>
            walk d follow links (if target.head? = some FilePath.slash then [] else l)
              (targetParts target ++ rest)
termination_by (links, parts.length)

end Walk

namespace Disk

def checkPath (t : Text) : Except FileError Unit :=
  match Walk.unencodable? 0 t with
  | some e => .error (.unencodable e)
  | none => if t.contains 0 then .error .nullByte else .ok ()

/-- The place that a path leads to. The last part need not be there. -/
def locate (d : Disk) (follow : Bool) (p : FilePath) : Except Errno Location :=
  if Walk.maxPath < Walk.byteLength p.toText then .error .nameTooLong
  else Walk.walk d follow Walk.maxLinks (if p.isAbsolute then [] else d.home) p.parts

def absolute (d : Disk) (p : FilePath) : FilePath :=
  if p.isAbsolute then p.collapse
  else FilePath.collapse ⟨[FilePath.slash], d.home ++ p.parts⟩

end Disk

end CatalogCache
