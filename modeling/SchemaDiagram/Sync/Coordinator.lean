import SchemaDiagram.Channel
import SchemaDiagram.Debounce
import SchemaDiagram.Projection
import SchemaDiagram.Session.Edit
import SchemaDiagram.Settings
import SchemaDiagram.Sync.Backend
import SchemaDiagram.Sync.Payload

/-!
The coordinator's state, and what it does with messages. Parse requests are numbered; an answer
belongs to the request whose number it carries, or else to the one its place among the answers
says. An answer to anything but the newest request, or to a request older than a committed edit or
a load, is dropped.
-/

set_option autoImplicit false

namespace SchemaDiagram.Sync

inductive Event where
  /-- A message was sent. -/
  | sent (m : Message)
  /-- The backend was asked to save, with the status of the session at that moment. -/
  | save (time : Float) (id : Json) (status : Status) (payload : Payload)
  /-- A save is about to end, with a record unless it has failed. -/
  | answered (time : Float) (record : Option Json)
  | load (time : Float) (id : Json)
  | loadStarter (time : Float)
  | note (n : Note)
  deriving DecidableEq

structure Overrides where
  members : List (String × Json) := []
  schema : Option Schema := none
  deriving DecidableEq

inductive Inbound where
  | parsed
  | parseFailed
  | schemaUpdated
  deriving DecidableEq

structure World where
  settings : Settings
  session : Session := {}
  channel : Channel Inbound Unit := {}
  notifier : Notifier Unit
  backend : Backend := {}
  verdict : Option Verdict := none
  lastSaved : Json := .null
  /-- The connection as the watcher was last told. -/
  connected : Bool := false
  started : Bool := false
  parseSent : Nat := 0
  parseReceived : Nat := 0
  /-- The number of the first request whose answer counts. -/
  acceptFrom : Nat := 0
  /-- The number of loads begun. -/
  epoch : Nat := 0
  inFlight : Nat := 0
  /-- A save has the backend to itself. -/
  saving : Bool := false
  /-- The saves that wait for the backend, the first in front. -/
  queue : List TaskId := []
  trace : List Event := []

structure SaveCall where
  id : Json
  payload : Payload
  reply : Reply
  epoch : Nat

inductive AfterSave where
  /-- The record is the task's answer. -/
  | answer
  /-- The task goes on to wait for every save. -/
  | drain
  deriving DecidableEq

/-- The two waits for every save: `drain` looks again for a payload that waits, `close` does
    not. -/
inductive Wait where
  | drain
  | close
  deriving DecidableEq

inductive Point where
  /-- A save asked for from outside, its overrides unchecked. -/
  | request (members : List (String × Json))
  | save (o : Overrides) (after : AfterSave)
  /-- A save that waits for the backend. -/
  | queued (o : Overrides) (epoch : Nat) (after : AfterSave)
  | sending (call : SaveCall) (after : AfterSave)
  | flush
  | drain
  | close
  /-- A wait for the saves that edits have started. -/
  | spawned (wait : Wait)
  | load (id : Json)
  | loading (id : Json) (reply : Reply)

abbrev Coordinator := Debounce.Machine World Overrides Point Wait

namespace Coordinator

/-- The result of a step that may fail midway: what was done until then stays done. -/
abbrev Step := Coordinator × Option Fault

def session (m : Coordinator) : Session := m.world.session

def withSession (m : Coordinator) (s : Session) : Coordinator :=
  m.withWorld { m.world with session := s }

def mapSession (m : Coordinator) (f : Session → Session) : Coordinator :=
  withSession m (f (session m))

def witness (m : Coordinator) (e : Event) : Coordinator :=
  m.withWorld { m.world with trace := m.world.trace ++ [e] }

def logs (m : Coordinator) (level : LogLevel) (message : String) : Coordinator :=
  m.note ⟨level, .coordinator, message⟩

/-- The values to go through where a list is expected: the items of a list, the characters of a
    text, the keys of an object; nothing, if no value is given. -/
def iterate (v : Json) : Result (List Json) :=
  if v.truthy then
    match v with
    | .arr items => .ok items
    | .str s => .ok (s.toList.map fun c => .str (String.singleton c))
    | .obj members => .ok (members.map fun m => .str m.1)
    | v => .error (.notIterable v.kindName)
  else .ok []

def recordsOf (α : Type) [Record α] (v : Json) : Result (List α) := do
  (← iterate v).mapM (Record.validated .value)

def membersOf (payload : Json) : Result (List (String × Json)) :=
  match payload with
  | .obj members => .ok members
  | v => .error (.noMember v.kindName "get")

def member (members : List (String × Json)) (key : String) : Json :=
  (Json.lookup key members).getD .null

/-- The request that an answer belongs to, with its text: the version counts if it is an integer or
    a truth value. -/
def sequence (version : Json) (received : Nat) : Int × String :=
  match version with
  | .int i => (i, version.literal)
  | .bool b => (if b then 1 else 0, version.literal)
  | _ => (received, toString received)

/-- Counts an answer to a parse request and tells whether it is current. -/
def accept (payload : Json) (m : Coordinator) : Coordinator × Result Bool :=
  let w := { m.world with parseReceived := m.world.parseReceived + 1 }
  let m := m.withWorld w
  match membersOf payload with
  | .error f => (m, .error f)
  | .ok members =>
    let (number, shown) := sequence (member members "version") w.parseReceived
    if (w.acceptFrom : Int) ≤ number then (m, .ok true)
    else
      let m := logs m .debug ("Dropping stale parse response #" ++ shown ++
        " (accepting from #" ++ toString w.acceptFrom ++ ")")
      if w.parseSent ≤ w.parseReceived ∧ w.session.document.status = .parsing then
        (mapSession m (·.withStatus .idle), .ok false)
      else (m, .ok false)

def adopt (s : Session) (schema : Schema) (d : Diagram) : Session :=
  (((s.withSchema (some schema)).withDiagram d).withErrors []).withStatus .idle

/-- The answer to a parse request: errors leave the diagram as it is, a schema replaces it. -/
def handleParsed (payload : Json) (m : Coordinator) : Step :=
  match accept payload m with
  | (m, .error f) => (m, some f)
  | (m, .ok false) => (m, none)
  | (m, .ok true) =>
    match recordsOf TextError (payload.get "errors") with
    | .error f => (m, some f)
    | .ok errors =>
      if errors ≠ [] ∨ payload.get "ast" = .null then
        let status := if errors = [] then Status.idle else .error
        let m := mapSession m fun s => (s.withErrors errors).withStatus status
        (logs m .info ("Parse finished with " ++ toString errors.length ++
          " error(s); graph unchanged"), none)
      else
        match Record.validated .value (payload.get "ast") with
        | .error f => (m, some f)
        | .ok (schema : Schema) =>
          let nodes := (session m).diagram.nodes
          match schema.project m.world.settings.grid (Places.ofNodes nodes) with
          | .ok d =>
            let m := logs (mapSession m (adopt · schema d)) .debug
              ("Parse applied: " ++ toString d.nodes.length ++ " tables, " ++
                toString d.edges.length ++ " relationships")
            (m.schedule {}, none)
          | .error f =>
            match f with
            | .danglingRelationship _ _ _ =>
              let m := logs m .error ("Parsed AST is internally inconsistent: " ++ f.text)
              let e : TextError := { message := f.text, kind := .validation }
              (mapSession m fun s => (s.withErrors [e]).withStatus .error, some f)
            | f => (m, some f)

def handleParseFailed (payload : Json) (m : Coordinator) : Step :=
  match accept payload m with
  | (m, .error f) => (m, some f)
  | (m, .ok false) => (m, none)
  | (m, .ok true) =>
    let message := (payload.get "message").orElse (.str "Parsing error")
    let m := logs m .warning ("Parser reported failure: " ++ message.display)
    match message with
    | .str text =>
      (mapSession m fun s => (s.withErrors [{ message := text }]).withStatus .error, none)
    | _ => (m, some (.invalid ⟨Record.name TextError, [⟨[.key "message"], .notText⟩]⟩))

def handleSchemaUpdated (payload : Json) (m : Coordinator) : Step :=
  match membersOf payload with
  | .error f => (m, some f)
  | .ok members =>
    let text := member members "dbmlText"
    let m := if text = .null then m else mapSession m (·.withText text)
    match recordsOf TextError (member members "errors") with
    | .error f => (m, some f)
    | .ok errors =>
      let m := mapSession m (·.withErrors errors)
      if errors ≠ [] then (mapSession m (·.withStatus .error), none)
      else if (session m).document.status = .error then (mapSession m (·.withStatus .idle), none)
      else (m, none)

def handle : Inbound → Json → Coordinator → Step
  | .parsed => handleParsed
  | .parseFailed => handleParseFailed
  | .schemaUpdated => handleSchemaUpdated

def watch (up : Bool) (m : Coordinator) : Step :=
  let m := if up = m.world.connected then m
    else logs m .info (if up then "Parse channel connected" else "Parse channel disconnected")
  (m.withWorld { m.world with connected := up }, none)

def channelHost : ChannelHost Coordinator Inbound Unit where
  channel m := m.world.channel
  putChannel c m := m.withWorld { m.world with channel := c }
  handle := handle
  watch _ up m := watch up m
  log l m := m.note l
  sending message m := witness m (.sent message)

def requesting (text : Json) (m : Coordinator) : Coordinator :=
  mapSession (m.withWorld
    { m.world with parseSent := m.world.parseSent + 1, acceptFrom := m.world.parseSent + 1 })
    fun s => (s.withText text).withStatus .parsing

def parseRequest (text : Json) (m : Coordinator) : Message :=
  (Channel.Event.parse, .obj [("dbmlText", text), ("version", .int (m.world.parseSent + 1 : Nat))])

def parse (text : Json) (m : Coordinator) : Coordinator × Result Bool :=
  if m.world.connected then
    match channelHost.emit (parseRequest text m) (requesting text m) with
    | (m, some f) => (m, .error f)
    | (m, none) => (m, .ok true)
  else (logs m .warning "Channel not connected, cannot parse schema text", .ok false)

def start (m : Coordinator) : Step :=
  if m.world.started then (m, none)
  else
    let c := ((m.world.channel.on Channel.Event.parsed .parsed).on
      Channel.Event.parseFailed .parseFailed).on Channel.Event.schemaUpdated .schemaUpdated
    let m := m.withWorld { m.world with channel := c }
    match channelHost.addWatcher () m with
    | (m, some f) => (m, some f)
    | (m, none) => (m.withWorld { m.world with started := true }, none)

def unsubscribe (m : Coordinator) : Coordinator :=
  if m.world.started then
    let c := ((m.world.channel.off Channel.Event.parsed .parsed).off
      Channel.Event.parseFailed .parseFailed).off Channel.Event.schemaUpdated .schemaUpdated
    m.withWorld { m.world with channel := c.unwatch (), started := false }
  else m

def notify (n : Note) (m : Coordinator) : Step :=
  let m := (m.withWorld { m.world with notifier := m.world.notifier.keep n }).note n.log
  (witness m (.note n), none)

/-- A coordinator that has taken over a committed schema, before it tells of it: answers to older parse
    requests no longer count. -/
def superseding (schema : Schema) (m : Coordinator) : Coordinator :=
  let m := mapSession m (·.withSchema (some schema))
  m.withWorld { m.world with acceptFrom := m.world.parseSent + 1 }

def tell (schema : Schema) (m : Coordinator) : Step :=
  if m.world.connected then
    channelHost.emit (Channel.Event.updateSchema, .obj [("ast", Record.toWire schema)]) m
  else (m, none)

/-- Propagates a committed schema: the remote side is told, and a save of the schema is started. -/
def commit (schema : Schema) (m : Coordinator) : Step :=
  match tell schema (superseding schema m) with
  | (m, some f) => (m, some f)
  | (m, none) =>
    ({ m with loop :=
      (m.loop.spawnIn .spawned (.own (.save { schema := some schema } .answer))).1 }, none)

def editHost : EditHost Coordinator where
  session := session
  putSession s m := withSession m s
  putVerdict v m := m.withWorld { m.world with verdict := some v }
  log l m := m.note l
  notify := notify
  commit := commit

def edit (e : Edit) (m : Coordinator) : Coordinator × Result Json :=
  editHost.run m.world.settings.grid e m

def overridable : List String := ["dbml_text", "ast", "nodes", "edges", "errors", "status"]

def checkOverrides (members : List (String × Json)) : Result Unit :=
  let unknown := (members.map fun m => m.1).filter fun n => !overridable.contains n
  if unknown = [] then .ok ()
  else .error (.unknownSyncFields (unknown.mergeSort fun a b => decide (a ≤ b)))

def postpone (members : List (String × Json)) (m : Coordinator) : Step :=
  match checkOverrides members with
  | .error f => (m, some f)
  | .ok () => (m.schedule { members := members }, none)

def moveTable (id position : Json) (m : Coordinator) : Step :=
  match (Diagram.moveTable id position).run (session m).diagram with
  | .error f d => (mapSession m (·.withDiagram d), some f)
  | .ok () d => ((mapSession m (·.withDiagram d)).schedule {}, none)

end Coordinator

end SchemaDiagram.Sync
