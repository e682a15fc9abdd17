import CatalogCache.Text.Utf8
import CatalogCache.Text.Quoted

/-!
# Paths

A path is kept in parts. Doubled slashes, single dots and trailing slashes carry no meaning and are
not kept; double dots are. Exactly two slashes in front stay two.
-/

namespace CatalogCache

structure FilePath where
  /-- The slashes in front: none, one or two. -/
  root : Text
  parts : List Text
deriving DecidableEq

namespace FilePath

def slash : CodePoint := 0x2f
def dot : Text := [0x2e]
def dotDot : Text := [0x2e, 0x2e]

def rootOf (t : Text) : Text :=
  match (t.takeWhile (· = slash)).length with
  | 0 => []
  | 2 => [slash, slash]
  | _ => [slash]

def partsOf (t : Text) : List Text :=
  (Text.splitOn slash t).filter fun part => part ≠ [] ∧ part ≠ dot

def ofText (t : Text) : FilePath := ⟨rootOf t, partsOf t⟩

def toText (p : FilePath) : Text :=
  if p.root = [] ∧ p.parts = [] then dot else p.root ++ Text.join [slash] p.parts

def child (p : FilePath) (part : Text) : FilePath := ⟨p.root, p.parts ++ [part]⟩

def parent (p : FilePath) : FilePath := ⟨p.root, p.parts.dropLast⟩

def name (p : FilePath) : Text := p.parts.getLastD []

def isAbsolute (p : FilePath) : Bool := p.root ≠ []

/-- Double dots taken back together with the part in front of them, without asking the disk. -/
def collapse (p : FilePath) : FilePath :=
  let step (done : List Text) (part : Text) : List Text :=
    if part ≠ dotDot then done ++ [part]
    else if done = [] ∧ p.isAbsolute then []
    else if done = [] ∨ done.getLast? = some dotDot then done ++ [part]
    else done.dropLast
  ⟨p.root, p.parts.foldl step []⟩

end FilePath

end CatalogCache
