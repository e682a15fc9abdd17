import CatalogCache.Credentials
import CatalogCache.Lookup

/-!
# The report

What the command line prints: all catalogs, then the priority that is called "high". The second
look at the priorities is served from the cache.
-/

namespace CatalogCache.Report

def lineFeed : Text := [Text.lineFeed]

/-- The line of an entry. Subtasks are marked. -/
def line (c : Catalog) (entry : Value) : Except Failure Text := do
  let name ← entry.property "name"
  let mark : Text ← if c = .issueTypes then do
      if (← entry.property "is_subtask").isTrue then pure " (subtask)" else pure []
    else pure []
  return List.flatten ["- ", c.entryLabel, ": ", name.display, mark, lineFeed]

def lines (c : Catalog) (ending : Option Failure) : List Value → Text × Option Failure
  | [] => ([], ending)
  | entry :: rest => match line c entry with
    | .error e => ([], some e)
    | .ok t => let (more, failure) := lines c ending rest; (t ++ more, failure)

def catalog (client : Client) (c : Catalog) : Action (Text × Option Failure) := do
  match ← Action.attempt (client.answer (.collection c)) with
  | .error e => return ([], some e)
  | .ok answer => match answer.items? with
    | .error e => return ([], some e)
    | .ok items => return lines c items.ending items.values

/-- The lines of several catalogs. A failure ends them with a line of its own. -/
def catalogs (client : Client) : List Catalog → Action Text
  | [] => return []
  | c :: rest => do
    let (text, failure) ← catalog client c
    match failure with
    | some e =>
      return List.flatten [text, "Error connecting to Jira: ", e.message, lineFeed]
    | none => return text ++ (← catalogs client rest)

/-- The line of the priority that is called "high". -/
def resolved (client : Client) : Action Text := do
  match ← Action.attempt (client.find .priorities (.text "high")) with
  | .ok entry => return List.flatten ["- resolved 'high' -> ", entry.display, lineFeed]
  | .error e => return List.flatten ["Lookup failed: ", e.message, lineFeed]

def heading : Client → Text
  | .cached s _ =>
    List.flatten ["\nMetadata for account '", s.account.display, "' (cache: ",
      s.store.root.toText, ")", lineFeed]
  | _ => []

def print (client : Client) : Action Text := do
  let listing ← catalogs client Catalog.all
  return heading client ++ listing ++ (← resolved client)

end CatalogCache.Report
