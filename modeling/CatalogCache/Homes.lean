import CatalogCache.Disk.Walk
import CatalogCache.Failure

/-!
# Home directories

In front of a path, a tilde stands for a home directory: alone for the user's own, with a name for
that of another user.
-/

namespace CatalogCache

/-- The home directories that are known: the user's own and those of others by name. -/
structure Homes where
  own : Text
  others : List (Text × Text)

namespace Homes

/-- The accounts that every system has. -/
def system (own : Text) : Homes where
  own := own
  others := [("root", "/root"), ("daemon", "/usr/sbin"), ("bin", "/bin"), ("sys", "/dev"),
    ("sync", "/bin"), ("games", "/usr/games"), ("man", "/var/cache/man"),
    ("lp", "/var/spool/lpd"), ("mail", "/var/mail"), ("news", "/var/spool/news"),
    ("uucp", "/var/spool/uucp"), ("proxy", "/bin"), ("www-data", "/var/www"),
    ("backup", "/var/backups"), ("list", "/var/list"), ("irc", "/run/ircd"),
    ("_apt", "/nonexistent"), ("nobody", "/nonexistent")]

/-- The home directory of a user. Without a name it is the user's own. The system is asked for a
name as it is asked for a path, so not every text is a name. -/
def find (homes : Homes) (user : Text) : Except Failure Text :=
  if user = [] then .ok homes.own
  else match Disk.checkPath user with
    | .error e => .error (.file e)
    | .ok () => match homes.others.find? (·.1 = user) with
      | some entry => .ok entry.2
      | none => .error .homeless

end Homes

/-- The path with a tilde in front replaced by the home directory that it stands for. -/
def FilePath.expandHome (homes : Homes) (p : FilePath) : Except Failure FilePath :=
  match p.root, p.parts with
  | [], (0x7e :: user) :: rest => do
    let home := FilePath.ofText (← homes.find user)
    return ⟨home.root, home.parts ++ rest⟩
  | _, _ => .ok p

end CatalogCache
