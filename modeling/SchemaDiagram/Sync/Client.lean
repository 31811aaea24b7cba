import SchemaDiagram.Log
import SchemaDiagram.Settings
import SchemaDiagram.Sync.Payload
import SchemaDiagram.Text.Encoding
import SchemaDiagram.Web.Base64
import SchemaDiagram.Web.Url

/-!
The client of the diagram service. Each call makes one request; a reply counts as a success if it is
an object with a status that holds, under a code below 400, and its data is the answer.
-/

set_option autoImplicit false

namespace SchemaDiagram.Sync

inductive Method where
  | get
  | post
  | put
  deriving DecidableEq, Repr

def Method.name : Method → String
  | get => "GET"
  | post => "POST"
  | put => "PUT"

structure Request where
  method : Method
  url : Web.Url
  authorization : Option String
  /-- Seconds until the request is given up, as a number. -/
  timeout : Json
  body : Json
  deriving DecidableEq

def Request.contentType : String := "application/json"

inductive Transmission where
  /-- Nothing came back. -/
  | failed (message : String)
  | replied (code : Int) (body : String)
  deriving DecidableEq

/-- A line to the service on which answers are laid out in advance. What was sent is kept. -/
structure Line where
  answers : List Transmission := []
  sent : List Request := []

namespace Line

def plain : Transmission :=
  .replied 200 (Json.compact (.obj [("status", .bool true), ("data", .obj [])]))

def send (l : Line) (r : Request) : Line × Transmission :=
  match l.answers with
  | [] => ({ l with sent := l.sent ++ [r] }, plain)
  | a :: rest => (⟨rest, l.sent ++ [r]⟩, a)

end Line

inductive Call where
  /-- The starter diagram. -/
  | starter
  | diagram (id : Json)
  | list
  | create (data : Json)
  | update (id data : Json)
  /-- Updates a stored diagram, or creates it when it has no id yet. -/
  | save (id : Json) (payload : Payload)

namespace Call

def root : String := "/api/core/diagrams"

def pathOf (id : Json) : String := root ++ "/" ++ id.display

def untitled : String := "Untitled diagram"

def creation (payload : Payload) : Json :=
  match Record.toWire payload with
  | .obj members => .obj (Json.merge [("name", .str untitled)] members)
  | v => v

def method : Call → Method
  | starter | diagram _ | list => .get
  | create _ => .post
  | update _ _ => .put
  | save id _ => if id.truthy then .put else .post

def path : Call → String
  | starter => root ++ "/default"
  | diagram id | update id _ => pathOf id
  | list | create _ => root
  | save id _ => if id.truthy then pathOf id else root

def body : Call → Json
  | starter | diagram _ | list => .null
  | create data | update _ data => data
  | save id payload => if id.truthy then Record.toWire payload else creation payload

def log : Call → List LogLine
  | save id _ =>
    if id.truthy then [] else [⟨.info, .client, "Diagram has no id yet, creating it"⟩]
  | _ => []

def answer (c : Call) (data : Json) : Json :=
  match c with
  | list => data.orElse (.arr [])
  | _ => data

end Call

structure Client where
  base : String
  /-- What requests are authorised with, if it counts as given. -/
  token : Json
  timeout : Json
  deriving DecidableEq

namespace Client

def trimBars (s : String) : String :=
  String.ofList (s.toList.reverse.dropWhile (· = '/')).reverse

def create (base token timeout : Json) (settings : Settings) : Result Client :=
  let token := if token = .null then .ofText? settings.apiToken else token
  let timeout := if timeout = .null then .float settings.httpTimeout else timeout
  match base.orElse (.str settings.apiHost) with
  | .str s => .ok ⟨trimBars s, token, timeout⟩
  | v => .error (.noMember v.kindName "rstrip")

def bearer (c : Client) : Option String :=
  if c.token.truthy then some ("Bearer " ++ c.token.display) else none

/-- The header of a request to an address: a name or a password in the address takes the place of
    the token. -/
def authorization (c : Client) (url : Web.Url) : Option String :=
  let (name, password) := url.credentials
  if name = "" ∧ password = "" then c.bearer
  else some ("Basic " ++ String.ofList (Web.Base64.encode (Text.utf8 (name ++ ":" ++ password))))

def ofUrl {α : Type} : Except Web.UrlFault α → Result α
  | .ok a => .ok a
  | .error f => .error (.badUrl f)

mutual

def numberFault? : Json → Option Fault
  | .int i => if i.natAbs < Nat.pow 10 Decimal.maxDigits then none else some .longNumber
  | .float x => if x.isFinite then none else some .unwritableNumber
  | .arr items => itemsFault? items
  | .obj members => membersFault? members
  | .null | .bool _ | .str _ => none

def itemsFault? : List Json → Option Fault
  | [] => none
  | v :: rest => numberFault? v <|> itemsFault? rest

def membersFault? : List (String × Json) → Option Fault
  | [] => none
  | (_, v) :: rest => numberFault? v <|> membersFault? rest

end

def isAscii (s : String) : Bool := s.toList.all (·.toNat < 128)

def baseAddress (c : Client) : Except Web.UrlFault Web.Url := do
  (← Web.Url.ofString c.base).asBase

def require (holds : Bool) (f : Fault) : Result Unit :=
  if holds then .ok () else .error f

def checkNumbers (body : Json) : Result Unit :=
  match numberFault? body with
  | some f => .error f
  | none => .ok ()

def request (c : Client) (call : Call) : Result Request := do
  let base ← ofUrl c.baseAddress
  require (isAscii (c.bearer.getD "")) .unwritableHeader
  let target ← ofUrl (Web.Url.target call.path)
  let url ← ofUrl (base.append target)
  checkNumbers call.body
  require (isAscii url.host) .unwritableHeader
  return ⟨call.method, url, c.authorization url, c.timeout, call.body⟩

/-- Why a reply is refused: its own error, or else a default. -/
def refusal (members : List (String × Json)) (default : String) (status : Json) : Fault :=
  .persistence (((Json.lookup "error" members).getD .null).orElse (.str default)) status

def readBody (body : String) : Except Json.SyntaxFault Json :=
  match Text.ofDocument? body with
  | some cs => Json.parse .lenient (String.ofList cs)
  | none => .error .malformed

def classify (call : Call) (code : Int) (body : String) : Result Json :=
  let what := call.method.name ++ " " ++ call.path
  match readBody body with
  | .error (.tooDeep inObject) => .error (.deepDocument inObject)
  | .error _ =>
    .error (.persistence
      (.str (what ++ ": response is not JSON (HTTP " ++ toString code ++ ")")) (.int code))
  | .ok (.obj members) =>
    if 400 ≤ code then .error (refusal members ("HTTP " ++ toString code) (.int code))
    else if ((Json.lookup "status" members).getD .null).truthy then
      .ok ((Json.lookup "data" members).getD .null)
    else .error (refusal members "Request failed" ((Json.lookup "code" members).getD .null))
  | .ok _ => .error (.persistence (.str (what ++ ": unexpected response body")) (.int code))

def receive (call : Call) (url : Web.Url) : Transmission → Result Json
  | .failed message => .error (.persistence (.str message) .null)
  | .replied code body =>
    if url.hasKind then (classify call code body).map call.answer
    else
      let shown := { url with fragment := url.fragment.filter (· ≠ "") }
      .error (.unknownUrlKind shown.toString)

/-- Makes a call. Nothing is sent when the request cannot be written. -/
def run (c : Client) (call : Call) (line : Line) : Line × Result Json :=
  match c.request call with
  | .error f => (line, .error f)
  | .ok r =>
    let (line, t) := line.send r
    (line, receive call r.url t)

end Client

end SchemaDiagram.Sync
