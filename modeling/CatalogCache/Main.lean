import CatalogCache.Report

/-!
# Command line

Asks for missing credentials, and prints the report. The disk is kept in memory, and there is no
way to a server from here, so the report says that.
-/

open CatalogCache

namespace CatalogCache.CommandLine

/-- The variables that the settings and the credentials look at. -/
def variableNames : List Text :=
  [Settings.rootVariable, "XDG_CACHE_HOME", Settings.accountVariable]
    ++ Catalog.all.map (·.lifetimeVariable) ++ Credential.all.map (·.variableName)

def environment : IO Environment := do
  let values ← variableNames.mapM fun name => do
    return (name, ← IO.getEnv (Text.toString name))
  return values.filterMap fun (name, value?) => value?.map fun value => (name, Text.ofString value)

/-- What the user answers to the questions, up to the end of the input. -/
def inputs (missing : List Credential) : IO (List Text) := do
  let stdin ← IO.getStdin
  let lines ← missing.mapM fun c => do
    IO.print (Text.toString c.question)
    stdin.getLine
  return (lines.takeWhile (· ≠ "")).map fun line =>
    Text.dropEndWhile (· = Text.lineFeed) (Text.ofString line)

/-- No address can be reached. -/
def nowhere : Server := fun _ uri =>
  .error (.foreign "ConnectionError" (List.flatten ["no connection to ", uri.display]))

def world : World where
  disk := Disk.empty 0
  now := 0
  faults := Faults.none
  remotes := fun _ _ _ => .error (.foreign "ConnectionError" "no such remote")
  server := nowhere
  trace := []

def logText (line : LogLine) : Text :=
  List.flatten [line.level.name, " ", line.topic.name, ": ", line.message]

def run : IO Unit := do
  let env ← environment
  let home := (← IO.getEnv "HOME").getD "/"
  let caller : Caller :=
    ⟨Homes.system home, env, true, ← inputs (Credential.all.filter (·.isMissing env))⟩
  match caller.client .null none with
  | (_, .error e) => IO.eprintln (Text.toString e.message)
  | (_, .ok client) =>
    let (r, w) := (Report.print client).run.run world
    for line in w.log do IO.eprintln (Text.toString (logText line))
    match r with
    | .ok out => IO.print (Text.toString out)
    | .error e => IO.eprintln (Text.toString e.message)

end CatalogCache.CommandLine

def main : IO Unit := CommandLine.run
