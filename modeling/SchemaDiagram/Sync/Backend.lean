import SchemaDiagram.Fault
import SchemaDiagram.Json.Agreement

/-!
A backend that answers as it is told. Each call takes the next reply of its kind, which says how
long the call takes and how it ends; a call without a reply of its own is answered at once from the
records.
-/

set_option autoImplicit false

namespace SchemaDiagram.Sync

structure Reply where
  /-- Seconds until the answer. -/
  delay : Option Float := none
  /-- The message and the status code with which the backend refuses. -/
  refusal : Option (Json × Json) := none
  /-- The message with which the call breaks down. -/
  crash : Option String := none
  /-- The record a save returns, in the place of storing. -/
  record : Option Json := none
  deriving DecidableEq

structure Backend where
  saves : List Reply := []
  loads : List Reply := []
  /-- What is stored by id. -/
  records : List (Json × Json) := []
  starter : Json := .obj [("dbmlText", .str ""), ("ast", .null)]

namespace Backend

def nextSave (b : Backend) : Backend × Reply :=
  match b.saves with
  | [] => (b, {})
  | r :: rest => ({ b with saves := rest }, r)

def nextLoad (b : Backend) : Backend × Reply :=
  match b.loads with
  | [] => (b, {})
  | r :: rest => ({ b with loads := rest }, r)

def failure? (r : Reply) : Option Fault :=
  match r.refusal, r.crash with
  | some (message, status), _ => some (.persistence message status)
  | none, some message => some (.handler message)
  | none, none => none

def record? (b : Backend) (id : Json) : Option Json :=
  (b.records.find? fun r => r.1.agrees id).map fun r => r.2

/-- Stores a record under an id: one that is stored already keeps its place. -/
def put (id record : Json) : List (Json × Json) → List (Json × Json)
  | [] => [(id, record)]
  | r :: rest => if r.1.agrees id then (r.1, record) :: rest else r :: put id record rest

/-- Whether a value can be the id of a record: it must have no parts. -/
def checkId : Json → Result Unit
  | .arr _ => .error (.unhashable (Json.arr []).kindName)
  | .obj _ => .error (.unhashable (Json.obj []).kindName)
  | _ => .ok ()

def firstId : Json := .str "diagram-1"

/-- Ends a save of a payload in wire form: the record is stored under the diagram's id, or under a
    new one. -/
def answerSave (b : Backend) (r : Reply) (id payload : Json) : Backend × Result Json :=
  match failure? r with
  | some f => (b, .error f)
  | none =>
    match r.record with
    | some v => (b, .ok v)
    | none =>
      let id := id.orElse firstId
      let members := match payload with
        | .obj ms => Json.merge [("_id", id)] ms
        | _ => [("_id", id)]
      match checkId id with
      | .error f => (b, .error f)
      | .ok () => ({ b with records := put id (.obj members) b.records }, .ok (.obj [("_id", id)]))

/-- Ends the load of a diagram, or of the starter diagram when no id is asked for. -/
def answerLoad (b : Backend) (r : Reply) (id : Option Json) : Result Json :=
  match failure? r with
  | some f => .error f
  | none =>
    match id with
    | none => .ok b.starter
    | some id => do
      checkId id
      match b.record? id with
      | some v => return v
      | none => throw (.persistence (.str "Diagram not found") (.int 404))

end Backend

end SchemaDiagram.Sync
