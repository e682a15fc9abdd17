import CatalogCache.Disk.FileError
import CatalogCache.Duration

/-!
# The disk

Files, directories and symbolic links by the place where they stand. A directory carries the time
at which its entries last changed.
-/

namespace CatalogCache

/-- The names on the way from the root of the disk. -/
abbrev Location := List Text

inductive Node
  | file (bytes : List UInt8) (modified : Instant)
  | directory (modified : Instant)
  | link (target : Text)
deriving DecidableEq

namespace Node

def isDirectory : Node → Bool
  | directory _ => true
  | _ => false

/-- When the content last changed. The time of a link is of no use to anybody. -/
def modified : Node → Instant
  | file _ modified | directory modified => modified
  | link _ => 0

end Node

structure Disk where
  nodes : List (Location × Node)
  /-- Where relative paths start. -/
  home : Location
deriving DecidableEq

namespace Disk

def empty (now : Instant) : Disk := ⟨[([], .directory now)], []⟩

def node? (d : Disk) (l : Location) : Option Node := (d.nodes.find? (·.1 = l)).map (·.2)

/-- The nodes with one set: in its place if there is one, else at the end. -/
def putNode (nodes : List (Location × Node)) (l : Location) (n : Node) : List (Location × Node) :=
  match nodes with
  | [] => [(l, n)]
  | entry :: rest => if entry.1 = l then (l, n) :: rest else entry :: putNode rest l n

def put (d : Disk) (l : Location) (n : Node) : Disk := { d with nodes := putNode d.nodes l n }

def take (d : Disk) (l : Location) : Disk := { d with nodes := d.nodes.filter (·.1 ≠ l) }

/-- Stamps the directory that holds a place. -/
def stamp (d : Disk) (l : Location) (now : Instant) : Disk :=
  match d.node? l.dropLast with
  | some (.directory _) => if l = [] then d else d.put l.dropLast (.directory now)
  | _ => d

def enter (d : Disk) (l : Location) (n : Node) (now : Instant) : Disk := (d.put l n).stamp l now

def leave (d : Disk) (l : Location) (now : Instant) : Disk := (d.take l).stamp l now

/-- Takes out a node and everything below it. -/
def leaveTree (d : Disk) (l : Location) (now : Instant) : Disk :=
  { d with nodes := d.nodes.filter fun entry => !l.isPrefixOf entry.1 }.stamp l now

theorem node?_put (d : Disk) (l m : Location) (n : Node) :
    (d.put l n).node? m = if m = l then some n else d.node? m := by
  obtain ⟨nodes, home⟩ := d
  simp only [put, node?]
  induction nodes with
  | nil => by_cases h : l = m <;> simp [putNode, h, eq_comm]
  | cons entry rest ih =>
    simp only [putNode]
    by_cases he : entry.1 = l
    · by_cases hm : m = l
      · simp [he, hm]
      · have : ¬l = m := fun e => hm e.symm
        simp [he, hm, this]
    · by_cases hem : entry.1 = m
      · have : ¬m = l := fun e => he (hem.trans e)
        simp [hem, this]
      · simpa [he, hem] using ih

theorem node?_take (d : Disk) (l m : Location) :
    (d.take l).node? m = if m = l then none else d.node? m := by
  obtain ⟨nodes, home⟩ := d
  simp only [take, node?]
  induction nodes with
  | nil => simp
  | cons entry rest ih =>
    by_cases hl : entry.1 = l <;> by_cases hm : entry.1 = m <;> grind

end Disk

end CatalogCache
