import SchemaDiagram.Diagram.Edit
import SchemaDiagram.TextError

/-!
The state of one editing session: the canvas with its one-place rollback buffer, the document that
the diagram stands for, and the selection. Text and diagram id hold whatever the remote side sent.
-/

set_option autoImplicit false

namespace SchemaDiagram

inductive Status where
  | idle
  | parsing
  | saving
  | error
  deriving DecidableEq, Repr

namespace Status

def all : List Status := [idle, parsing, saving, error]

def spelling : Status → String
  | idle => "idle"
  | parsing => "parsing"
  | saving => "saving"
  | error => "error"

def ofJson (v : Json) : Result Status :=
  match v with
  | .str s =>
    match all.find? fun a => a.spelling = s with
    | some a => .ok a
    | none => .error (.notStatus v)
  | v => .error (.notStatus v)

end Status

/-- The diagram on the screen, the id under which it is stored, and the buffer for one rollback. -/
structure Canvas where
  diagram : Diagram := {}
  diagramId : Json := .null
  previous : Option Diagram := none
  deriving DecidableEq, Inhabited

namespace Canvas

def save (c : Canvas) : Canvas := { c with previous := some c.diagram }

def revert (c : Canvas) : Canvas :=
  match c.previous with
  | some d => { c with diagram := d }
  | none => c

end Canvas

structure Document where
  text : Json := .str ""
  schema : Option Schema := none
  errors : List TextError := []
  status : Status := .idle
  deriving DecidableEq, Inhabited

inductive Panel where
  | text
  | properties
  deriving DecidableEq, Repr

def Panel.spelling : Panel → String
  | text => "dbml"
  | properties => "properties"

structure Selection where
  panel : Panel := .text
  node : Json := .null
  deriving DecidableEq

instance : Inhabited Selection := ⟨{}⟩

def Selection.select (node : Json) : Selection := ⟨.properties, node⟩

structure Session where
  canvas : Canvas := {}
  document : Document := {}
  selection : Selection := {}
  deriving DecidableEq

instance : Inhabited Session := ⟨{}⟩

namespace Session

def blank : Session := {}

def diagram (s : Session) : Diagram := s.canvas.diagram

def withDiagram (s : Session) (d : Diagram) : Session :=
  { s with canvas := { s.canvas with diagram := d } }

def withStatus (s : Session) (status : Status) : Session :=
  { s with document := { s.document with status := status } }

def withErrors (s : Session) (errors : List TextError) : Session :=
  { s with document := { s.document with errors := errors } }

def withText (s : Session) (text : Json) : Session :=
  { s with document := { s.document with text := text } }

def withSchema (s : Session) (schema : Option Schema) : Session :=
  { s with document := { s.document with schema := schema } }

def withDiagramId (s : Session) (id : Json) : Session :=
  { s with canvas := { s.canvas with diagramId := id } }

end Session

end SchemaDiagram
