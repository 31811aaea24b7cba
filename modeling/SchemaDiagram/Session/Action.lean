import SchemaDiagram.Session.Edit
import SchemaDiagram.TextError

/-!
What can be done to the parts of a session directly. Nothing is checked and nothing is rolled back.
-/

set_option autoImplicit false

namespace SchemaDiagram

inductive Action where
  | reset
  | resetCanvas
  | resetDocument
  | clearSelection
  | select (node : Json)
  | setNodes (nodes : List Node)
  | setEdges (edges : List Edge)
  | setDiagramId (id : Json)
  | snapshot
  | save
  | revert
  | findNode (id : Json)
  | findEdge (id : Json)
  | setText (text : Json)
  | setSchema (schema : Option Schema)
  | setErrors (errors : List TextError)
  | setStatus (status : Status)
  | change (e : Edit)
  | moveTable (id position : Json)

namespace Action

def recordsOf (α : Type) [Record α] : Json → Result (List α)
  | .arr items => items.mapM (Record.validated .value)
  | _ => .ok []

def named (name : String) (args : List Json) : Result (Option Action) :=
  let first := args[0]?.getD .null
  match name with
  | "reset" => .ok (some reset)
  | "graph.reset" => .ok (some resetCanvas)
  | "schema.reset" => .ok (some resetDocument)
  | "selection.reset" | "selection.clear_selection" => .ok (some clearSelection)
  | "selection.select_node" => .ok (some (select first))
  | "graph.set_nodes" => (recordsOf Node first).map (some ∘ setNodes)
  | "graph.set_edges" => (recordsOf Edge first).map (some ∘ setEdges)
  | "graph.set_diagram_id" => .ok (some (setDiagramId first))
  | "graph.snapshot" => .ok (some snapshot)
  | "graph.save_previous_state" => .ok (some save)
  | "graph.revert_to_previous" => .ok (some revert)
  | "graph.get_node_by_id" => .ok (some (findNode first))
  | "graph.get_edge_by_id" => .ok (some (findEdge first))
  | "graph.update_node_position" => .ok (some (moveTable first (args[1]?.getD .null)))
  | "schema.set_dbml_text" => .ok (some (setText first))
  | "schema.set_ast" =>
    if first = .null then .ok (some (setSchema none))
    else (Record.validated .value first).map (some ∘ setSchema ∘ some)
  | "schema.set_errors" => (recordsOf TextError first).map (some ∘ setErrors)
  | "schema.set_status" => (Status.ofJson first).map (some ∘ setStatus)
  | name =>
    match name.splitOn "." with
    | ["graph", e] => .ok ((Edit.named? e args).map change)
    | _ => .ok none

def carryOut {α : Type} (change : Diagram.Change α) (answer : α → Json) (s : Session) :
    Session × Result Json :=
  match change.run s.diagram with
  | .ok a d => (s.withDiagram d, .ok (answer a))
  | .error f d => (s.withDiagram d, .error f)

def perform (grid : Grid) (a : Action) (s : Session) : Session × Result Json :=
  match a with
  | reset => (Session.blank, .ok .null)
  | resetCanvas => ({ s with canvas := {} }, .ok .null)
  | resetDocument => ({ s with document := {} }, .ok .null)
  | clearSelection => ({ s with selection := {} }, .ok .null)
  | select node => ({ s with selection := .select node }, .ok .null)
  | setNodes nodes => (s.withDiagram { s.diagram with nodes := nodes }, .ok .null)
  | setEdges edges => (s.withDiagram { s.diagram with edges := edges }, .ok .null)
  | setDiagramId id => (s.withDiagramId id, .ok .null)
  | snapshot => (s, .ok s.diagram.toJson)
  | save => ({ s with canvas := s.canvas.save }, .ok .null)
  | revert => ({ s with canvas := s.canvas.revert }, .ok (.bool s.canvas.previous.isSome))
  | findNode id => (s, .ok (.ofOption Record.toWire (s.diagram.node? id)))
  | findEdge id => (s, .ok (.ofOption Record.toWire (s.diagram.edge? id)))
  | setText text => (s.withText text, .ok .null)
  | setSchema schema => (s.withSchema schema, .ok .null)
  | setErrors errors => (s.withErrors errors, .ok .null)
  | setStatus status => (s.withStatus status, .ok .null)
  | change (.addColumn id update) => carryOut (Diagram.addColumn id update) .str s
  | change e => carryOut (e.apply grid) .ofText? s
  | moveTable id position => carryOut (Diagram.moveTable id position) (fun _ => .null) s

end Action

def Session.act (grid : Grid) (name : String) (args : List Json) (s : Session) :
    Session × Result Json :=
  match Action.named name args with
  | .error f => (s, .error f)
  | .ok none => (s, .ok .null)
  | .ok (some a) => a.perform grid s

end SchemaDiagram
