import SchemaDiagram.Sync.Saving

/-!
Loads. A load begins a new session: what was pending is dropped, and answers and saves that belong
to the session before no longer count.
-/

set_option autoImplicit false

namespace SchemaDiagram.Sync.Coordinator

def loadName (id : Json) : String :=
  if id.truthy then "diagram " ++ id.display else "default diagram"

def loadedName (id : Json) : Result String :=
  match id with
  | .str _ => .ok (loadName id)
  | v => if v.truthy then .error (.notText .part v.kindName) else .ok (loadName id)

def membersIn (record : Json) : Result (List (String × Json)) :=
  membersOf (if record.truthy then record else .obj [])

def textIn (members : List (String × Json)) : Json := (member members "dbmlText").orElse (.str "")

def entitled (id : Json) (members : List (String × Json)) (m : Coordinator) : Coordinator :=
  if id.truthy then
    mapSession (mapSession m (·.withText (textIn members)))
      (·.withDiagramId ((member members "_id").orElse id))
  else mapSession m (·.withText (textIn members))

/-- The schema of a record, and the diagram in which it is laid out. -/
def drawnIn (grid : Grid) (members : List (String × Json)) : Result (Schema × Diagram) := do
  let schema : Schema ← Record.validated .value (member members "ast")
  let stored ← recordsOf Node (member members "nodes")
  let d ← schema.project grid (Places.ofNodes stored)
  return (schema, d)

/-- The session takes over the schema of a record, or has the text parsed that it has taken over. -/
def furnish (members : List (String × Json)) (m : Coordinator) : Step :=
  if (member members "ast").truthy then
    match drawnIn m.world.settings.grid members with
    | .error f => (m, some f)
    | .ok (schema, d) => (mapSession m fun s => (s.withSchema (some schema)).withDiagram d, none)
  else if (textIn members).truthy then
    match parse (textIn members) m with
    | (m, .error f) => (m, some f)
    | (m, .ok _) => (m, none)
  else (m, none)

/-- Fills the session from a record: with its schema and the places of its nodes, else with its
    text, which is parsed. -/
def fill (id record : Json) (m : Coordinator) : Step :=
  match membersIn record with
  | .error f => (m, some f)
  | .ok members => furnish members (entitled id members m)

def loaded (id : Json) (reply : Reply) (m : Coordinator) : Result Json :=
  m.world.backend.answerLoad reply (if id.truthy then some id else none)

def receiveLoad (t : TaskId) (id : Json) (reply : Reply) (m : Coordinator) : Coordinator :=
  match loaded id reply m with
  | .error (.persistence message _) =>
    match reportRefusal ("load " ++ loadName id) message m with
    | (m, none) => m.finish t (.returned (.bool false))
    | (m, some f) => m.finish t (.failed f)
  | .error f => m.finish t (.failed f)
  | .ok record =>
    match fill id record m with
    | (m, some f) => m.finish t (.failed f)
    | (m, none) =>
      match loadedName id with
      | .error f => m.finish t (.failed f)
      | .ok name =>
        let m := logs m .info ("Loaded " ++ name ++ ": " ++
          toString (session m).diagram.nodes.length ++ " tables")
        m.finish t (.returned (.bool true))

def blanking (id : Json) (m : Coordinator) : Coordinator :=
  let m := m.withWorld { m.world with epoch := m.world.epoch + 1 }
  let m := m.cancel
  let m := m.withWorld { m.world with acceptFrom := m.world.parseSent + 1, session := {} }
  let m := witness m (if id.truthy then .load m.loop.now id else .loadStarter m.loop.now)
  m.withWorld { m.world with backend := m.world.backend.nextLoad.1 }

def loadReply (m : Coordinator) : Reply := m.world.backend.nextLoad.2

/-- Begins a new session, which is blank until the backend answers. -/
def beginLoad (t : TaskId) (id : Json) (m : Coordinator) : Coordinator :=
  match (loadReply m).delay with
  | some seconds => { blanking id m with
      loop := (blanking id m).loop.sleep t seconds (.own (.loading id (loadReply m))) }
  | none => receiveLoad t id (loadReply m) (blanking id m)

/-- Sends the payload that waits, if there is one, then waits for every save. -/
def beginFlush (t : TaskId) (m : Coordinator) : Coordinator :=
  match m.takePending with
  | (m, some o) => beginSave t o .drain m
  | (m, none) => waitQuiet t .drain m

/-- Stops listening and drops the payload that waits; the saves that run are waited for. -/
def beginClose (t : TaskId) (m : Coordinator) : Coordinator :=
  waitQuiet t .close (unsubscribe m).cancel

def beginRequest (t : TaskId) (members : List (String × Json)) (m : Coordinator) : Coordinator :=
  match checkOverrides members with
  | .error f => m.finish t (.failed f)
  | .ok () => beginSave t { members := members } .answer m

def resume (t : TaskId) (p : Point) (signal : Signal) (m : Coordinator) : Coordinator :=
  match signal with
  | .failed f => m.finish t (.failed f)
  | .cancelled => m.finish t .cancelled
  | .go =>
    match p with
    | .request members => beginRequest t members m
    | .save o after => beginSave t o after m
    | .queued o epoch after => dequeue t o epoch after m
    | .sending call after => receiveSave t call after m
    | .flush => beginFlush t m
    | .drain => waitQuiet t .drain m
    | .close => beginClose t m
    | .spawned wait => waitSpawned t wait m
    | .load id => beginLoad t id m
    | .loading id reply => receiveLoad t id reply m

def use : Debounce.Use World Overrides Point Wait where
  start o := .save o .answer
  resume := resume
  afterQuiet := waitSpawned

def host : LoopHost Coordinator (Debounce.Point Point Wait) := use.host

end SchemaDiagram.Sync.Coordinator
