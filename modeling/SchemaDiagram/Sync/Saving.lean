import SchemaDiagram.Json.Agreement
import SchemaDiagram.Sync.Coordinator

/-!
Saves. One at a time has the backend to itself, the others wait in the order in which they came, so
that the id of a diagram that was created is known to the next. What a save sends is put together
when its turn comes. A save that was begun before a load sends nothing.
-/

set_option autoImplicit false

namespace SchemaDiagram.Sync.Coordinator

open Decode (text nullable list)

/-- A part of a payload: as given, or else as it stands in the session. -/
def part {α : Type} (o : Overrides) (name : String) (read : Json → Decoded α)
    (current : Decoded α) : Decoded α :=
  match Json.lookup name o.members with
  | some v => (read v).within (.key name)
  | none => current

def payloadOf (o : Overrides) (s : Session) : Decoded Payload :=
  Payload.mk
    <$> part o "dbml_text" (nullable text) ((nullable text s.document.text).within (.key "dbml_text"))
    <*> part o "ast" (nullable (Record.decode .value))
      (.ok (o.schema.or s.document.schema))
    <*> part o "nodes" (nullable (list .value (Record.decode .value))) (.ok (some s.diagram.nodes))
    <*> part o "edges" (nullable (list .value (Record.decode .value))) (.ok (some s.diagram.edges))
    <*> part o "errors" (nullable (list .value (Record.decode .value)))
      (.ok (some s.document.errors))
    <*> part o "status" (nullable StoredStatus.decode) (.ok none)

def release (m : Coordinator) : Coordinator :=
  let m := m.withWorld { m.world with saving := false }
  match m.world.queue with
  | [] => m
  | t :: _ => { m with loop := m.loop.wake t }

/-- Counts a save as ended; the last one ends the status of saving. -/
def endSave (m : Coordinator) : Coordinator :=
  let m := m.withWorld { m.world with inFlight := m.world.inFlight - 1 }
  if m.world.inFlight = 0 ∧ (session m).document.status = .saving then
    mapSession m (·.withStatus .idle)
  else m

/-- Goes on to wait, for the saves that edits have started or for quiet, or ends. -/
def waitSpawned (t : TaskId) (wait : Wait) (m : Coordinator) : Coordinator :=
  let tasks := m.loop.members .spawned
  if tasks = [] then
    match wait with
    | .close => m.finish t (.returned .null)
    | .drain =>
      match m.window? with
      | some w => { m with loop := m.loop.join t w (.quiet wait) }
      | none =>
        if m.running then { m with loop := m.loop.gather t m.fired (.quiet wait) }
        else m.finish t (.returned .null)
  else { m with loop := m.loop.gather t tasks (.own (.spawned wait)) }

/-- Waits until no payload waits and no action runs, then for the saves that edits have started. -/
def waitQuiet (t : TaskId) (wait : Wait) (m : Coordinator) : Coordinator :=
  match m.window? with
  | some w => { m with loop := m.loop.join t w (.quiet wait) }
  | none =>
    if m.running then { m with loop := m.loop.gather t m.fired (.quiet wait) }
    else waitSpawned t wait m

def afterSave (t : TaskId) (after : AfterSave) (result : Result Json) (m : Coordinator) :
    Coordinator :=
  match result, after with
  | .error f, _ => m.finish t (.failed f)
  | .ok v, .answer => m.finish t (.returned v)
  | .ok _, .drain => waitQuiet t .drain m

def leave (t : TaskId) (after : AfterSave) (result : Result Json) (m : Coordinator) :
    Coordinator :=
  afterSave t after result (endSave (release m))

/-- Takes over what a save has returned, unless a load has begun since. -/
def recordSaved (record : Json) (epoch : Nat) (m : Coordinator) : Coordinator :=
  if epoch ≠ m.world.epoch then
    logs m .debug "Save finished for a previous session; result ignored"
  else
    let id := record.get "_id"
    let m := if id.truthy && !id.agrees (session m).canvas.diagramId then
        mapSession m (·.withDiagramId id)
      else m
    m.withWorld { m.world with lastSaved := record }

def reportRefusal (what : String) (message : Json) (m : Coordinator) : Step :=
  let text := "Failed to " ++ what ++ ": " ++ message.display
  notify (Note.error text "persistence") (logs m .warning text)

def receiveSave (t : TaskId) (call : SaveCall) (after : AfterSave) (m : Coordinator) :
    Coordinator :=
  let (backend, result) := m.world.backend.answerSave call.reply call.id (Record.toWire call.payload)
  let m := witness m (.answered m.loop.now result.toOption)
  let m := m.withWorld { m.world with backend := backend }
  match result with
  | .ok record => leave t after (.ok record) (recordSaved record call.epoch m)
  | .error (.persistence message _) =>
    match reportRefusal "save diagram" message m with
    | (m, none) => leave t after (.ok .null) m
    | (m, some f) => leave t after (.error f) m
  | .error f => leave t after (.error f) m

def send (t : TaskId) (o : Overrides) (epoch : Nat) (after : AfterSave) (m : Coordinator) :
    Coordinator :=
  if epoch ≠ m.world.epoch then
    leave t after (.ok .null) (logs m .debug "Save queued for a previous session; skipped")
  else
    match payloadOf o (session m) with
    | .rejected ds => leave t after (.error (.invalid ⟨Record.name Payload, ds⟩)) m
    | .ok payload =>
      let id := (session m).canvas.diagramId
      let m := witness m (.save m.loop.now id (session m).document.status payload)
      let (backend, reply) := m.world.backend.nextSave
      let m := m.withWorld { m.world with backend := backend }
      let call : SaveCall := ⟨id, payload, reply, epoch⟩
      match reply.delay with
      | some seconds => { m with loop := m.loop.sleep t seconds (.own (.sending call after)) }
      | none => receiveSave t call after m

/-- Begins a save: it takes the backend if that is free and nobody waits, else it waits. -/
def beginSave (t : TaskId) (o : Overrides) (after : AfterSave) (m : Coordinator) : Coordinator :=
  let epoch := m.world.epoch
  let m := m.withWorld { m.world with inFlight := m.world.inFlight + 1 }
  let m := if (session m).document.status = .idle then mapSession m (·.withStatus .saving) else m
  if m.world.saving = false ∧ m.world.queue = [] then
    send t o epoch after (m.withWorld { m.world with saving := true })
  else
    { m.withWorld { m.world with queue := m.world.queue ++ [t] } with
      loop := m.loop.wait t (.own (.queued o epoch after)) }

def dequeue (t : TaskId) (o : Overrides) (epoch : Nat) (after : AfterSave) (m : Coordinator) :
    Coordinator :=
  send t o epoch after
    (m.withWorld { m.world with saving := true, queue := m.world.queue.erase t })

end SchemaDiagram.Sync.Coordinator
