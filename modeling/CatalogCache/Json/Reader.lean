import CatalogCache.Json.Token
import CatalogCache.Text.Lines

/-!
# Reading JSON

A reader that keeps the open lists and objects on a stack and takes one token at a time. What it
expects next is its state, so every fault is reported where it is seen, and containers may nest up
to a fixed depth.
-/

namespace CatalogCache.Json

structure SyntaxError where
  problem : Problem
  position : Position
deriving DecidableEq

def SyntaxError.message (e : SyntaxError) : Text :=
  List.flatten [e.problem.message, ": ", e.position.message]

inductive ReadError
  | syntaxError (e : SyntaxError)
  /-- Nested too deeply. The container that was too much is a list or an object. -/
  | depth (inList : Bool)
  | longInteger (digits : Nat)
deriving DecidableEq

/-- A container that is still open around the value that is being read. -/
inductive Frame
  /-- A list with its items so far, the last one first. -/
  | list (items : List Json)
  /-- An object with its members so far, waiting for the value of `key`. -/
  | object (members : Members) (key : Text)

/-- What has been read, and what may come next. -/
inductive Reading
  | value (outer : List Frame)
  /-- A list was just opened: a value or its end. -/
  | item (outer : List Frame)
  /-- An object was just opened: a name or its end. -/
  | member (outer : List Frame)
  | name (members : Members) (outer : List Frame)
  | colon (members : Members) (key : Text) (outer : List Frame)
  /-- After an item: a comma or the end of the list. -/
  | afterItem (items : List Json) (outer : List Frame)
  /-- After a member: a comma or the end of the object. -/
  | afterMember (members : Members) (outer : List Frame)
  | done (j : Json)

/-- The state after a whole value. -/
def Reading.close (j : Json) : List Frame → Reading
  | [] => .done j
  | .list items :: outer => .afterItem (j :: items) outer
  | .object members key :: outer => .afterMember (Ordered.insert members key j) outer

inductive Stop
  | fault (f : Fault)
  | depth (inList : Bool)
  | longInteger (digits : Nat)

/-- One token where a value may stand. -/
def Reading.onValue (maxDepth : Nat) (outer : List Frame) (token : Token) (here : Text) :
    Except Stop Reading :=
  match token with
  | .openList => if outer.length < maxDepth then .ok (.item outer) else .error (.depth true)
  | .openObject => if outer.length < maxDepth then .ok (.member outer) else .error (.depth false)
  | .text t => .ok (close (.text t) outer)
  | .scalar j => .ok (close j outer)
  | .longInteger digits => .error (.longInteger digits)
  | .brokenText fault => .error (.fault fault)
  | _ => .error (.fault ⟨.value, here⟩)

/-- One token where a name may stand. -/
def Reading.onName (members : Members) (outer : List Frame) (token : Token) (here : Text) :
    Except Stop Reading :=
  match token with
  | .text t => .ok (.colon members t outer)
  | .brokenText fault => .error (.fault fault)
  | _ => .error (.fault ⟨.name, here⟩)

/-- The state after one token. `here` is the text from the token on. -/
def Reading.step (maxDepth : Nat) (state : Reading) (token : Token) (here : Text) :
    Except Stop Reading :=
  match state, token with
  | .value outer, token => onValue maxDepth outer token here
  | .item outer, .closeList => .ok (close (.list []) outer)
  | .item outer, token => onValue maxDepth (.list [] :: outer) token here
  | .member outer, .closeObject => .ok (close (.object []) outer)
  | .member outer, token => onName [] outer token here
  | .name members outer, token => onName members outer token here
  | .colon members key outer, .colon => .ok (.value (.object members key :: outer))
  | .colon .., _ => .error (.fault ⟨.colon, here⟩)
  | .afterItem items outer, .comma => .ok (.value (.list items :: outer))
  | .afterItem items outer, .closeList => .ok (close (.list items.reverse) outer)
  | .afterItem .., _ => .error (.fault ⟨.comma, here⟩)
  | .afterMember members outer, .comma => .ok (.name members outer)
  | .afterMember members outer, .closeObject => .ok (close (.object members) outer)
  | .afterMember .., _ => .error (.fault ⟨.comma, here⟩)
  | .done _, _ => .error (.fault ⟨.extra, here⟩)

/-- The document, if nothing is missing at the end of the text. -/
def Reading.finish : Reading → Except Stop Json
  | .done j => .ok j
  | .value _ | .item _ => .error (.fault ⟨.value, []⟩)
  | .member _ | .name .. => .error (.fault ⟨.name, []⟩)
  | .colon .. => .error (.fault ⟨.colon, []⟩)
  | .afterItem .. | .afterMember .. => .error (.fault ⟨.comma, []⟩)

/-- The four blanks that may stand between tokens. -/
def isSpace (c : CodePoint) : Bool := c = 0x20 || c = 0x9 || c = 0xa || c = 0xd

theorem rest_lt_of_dropWhile {p : CodePoint → Bool} {t rest : Text} {c : CodePoint}
    (h : t.dropWhile p = c :: rest) : (Token.scan c rest).2.length < t.length := by
  have hd : (c :: rest).length ≤ t.length := h ▸ (List.dropWhile_suffix p).length_le
  have hs := (Token.scan_suffix c rest).length_le
  simp only [List.length_cons] at hd
  omega

def Reading.run (maxDepth : Nat) (state : Reading) (t : Text) : Except Stop Json :=
  match _h : t.dropWhile isSpace with
  | [] => state.finish
  | c :: rest =>
    match state.step maxDepth (Token.scan c rest).1 (c :: rest) with
    | .error stop => .error stop
    | .ok next => next.run maxDepth (Token.scan c rest).2
termination_by t.length
decreasing_by exact rest_lt_of_dropWhile _h

/-- The place where what is left of `t` starts. -/
def placeOf (t here : Text) : Position := Position.after (t.take (t.length - here.length))

def Stop.locate (t : Text) : Stop → ReadError
  | fault f => .syntaxError ⟨f.problem, placeOf t f.here⟩
  | depth inList => .depth inList
  | longInteger digits => .longInteger digits

/-- Reads a whole text as one document whose containers nest at most `maxDepth` deep. -/
def readWithin (maxDepth : Nat) (t : Text) : Except ReadError Json :=
  if t.head? = some 0xfeff then .error (.syntaxError ⟨.byteOrderMark, Position.after []⟩)
  else (Reading.run maxDepth (.value []) t).mapError (·.locate t)

/-- The deepest nesting that is read or written. -/
def maxDepth : Nat := 1000

def read (t : Text) : Except ReadError Json := readWithin maxDepth t

end CatalogCache.Json
