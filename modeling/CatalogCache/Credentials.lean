import CatalogCache.Settings

/-!
# Credentials

What it takes to talk to a Jira site. It comes from the environment, and where that is allowed, the
user is asked for what is missing there.
-/

namespace CatalogCache

inductive Credential
  | baseUrl
  | email
  | token
deriving DecidableEq

namespace Credential

def all : List Credential := [baseUrl, email, token]

def variableName : Credential → Text
  | baseUrl => "JIRA_BASE_URL"
  | email => "JIRA_USER_EMAIL"
  | token => "JIRA_API_TOKEN"

def question : Credential → Text
  | baseUrl => "Jira base URL (e.g. https://myorg.atlassian.net): "
  | email => "Jira user email: "
  | token => "Jira API token: "

/-- The input is not shown, and is taken as it is. -/
def isHidden : Credential → Bool
  | token => true
  | _ => false

def ofInput (c : Credential) (input : Text) : Text := if c.isHidden then input else input.strip

def fromEnvironment (env : Environment) (c : Credential) : Text :=
  (Ordered.get? env c.variableName).getD []

def isMissing (env : Environment) (c : Credential) : Bool := c.fromEnvironment env = []

end Credential

namespace Credentials

/-- A text for each credential. -/
abbrev Given := Credential → Text

def site (given : Given) : Site :=
  Site.of (given .baseUrl) (given .email) (given .token)

def fromEnvironment (env : Environment) : Except Failure Site :=
  match Credential.all.filter (·.isMissing env) with
  | [] => .ok (site fun c => c.fromEnvironment env)
  | missing => .error (.missingCredentials (missing.map (·.variableName)))

/-- Asks for credentials, as long as there are inputs. What was asked for comes first. -/
def askAll (given : Given) (inputs : List Text) :
    List Credential → List Credential × Except Failure Given
  | [] => ([], .ok given)
  | c :: rest => match inputs with
    | [] => ([c], .error .endOfInput)
    | input :: inputs =>
      let (asked, r) := askAll (fun d => if d = c then c.ofInput input else given d) inputs rest
      (c :: asked, r)

/-- The site that the environment names, with the user asked for what is missing. -/
def ask (env : Environment) (inputs : List Text) : List Credential × Except Failure Site :=
  let (asked, r) := askAll (fun c => c.fromEnvironment env) inputs
    (Credential.all.filter (·.isMissing env))
  (asked, r.map site)

def find (env : Environment) (interactive : Bool) (inputs : List Text) :
    List Credential × Except Failure Site :=
  if interactive then ask env inputs else ([], fromEnvironment env)

end Credentials

/-! ## The client that callers should use -/

/-- Who asks for a client: the environment and the answers that a user gives. -/
structure Caller where
  homes : Homes
  env : Environment
  interactive : Bool
  inputs : List Text

namespace Caller

/-- The cached client of a Jira site, and the credentials that were asked for. Without settings
those of the environment are taken, and without an account the one of the settings. -/
def client (caller : Caller) (account : Value) (settings? : Option Settings) :
    List Credential × Except Failure Client :=
  match settings?.elim (Settings.read caller.homes caller.env) .ok with
  | .error e => ([], .error e)
  | .ok settings =>
    let (asked, r) := Credentials.find caller.env caller.interactive caller.inputs
    let account := if account.isTrue then account else .text settings.account
    (asked, do settings.cached caller.homes account (.site (← r)))

end Caller

end CatalogCache
