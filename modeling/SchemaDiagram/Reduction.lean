import SchemaDiagram.Fault

/-!
Diagrams as schemas. Nodes of other types are passed over, and so are edges with a loose end;
relationships are named by the labels that the nodes have now.
-/

set_option autoImplicit false

namespace SchemaDiagram

/-- The column of a node column: an open flag has its default. -/
def NodeColumn.toColumn (c : NodeColumn) : Column where
  name := c.title
  type := c.type
  primaryKey := c.primaryKey = some true
  nullable := c.nullable ≠ some false
  unique := c.unique = some true
  foreignKey := c.foreignKey
  defaultValue := c.defaultValue
  autoIncrement := c.autoIncrement

namespace Node

def toTable (n : Node) : Result Table :=
  match n.data.label with
  | .text name => .ok {
      id := n.id
      name := name
      columns := n.data.columns.map NodeColumn.toColumn
      comment := n.data.comment
      position := some n.position }
  | .malformed _ => .error (.invalid ⟨"TableNode", [⟨[.key "name"], .notText⟩]⟩)

def isTable (n : Node) : Bool := n.type = tableNodeType

end Node

namespace Diagram

/-- The node that an id stands for: the last one that has it. -/
def endpoint? (nodes : List Node) (id : String) : Option Node :=
  match nodes with
  | [] => none
  | n :: rest => (endpoint? rest id).or (if n.id = id then some n else none)

def tablesOf (nodes : List Node) : Result (List Table) :=
  (nodes.filter Node.isTable).mapM Node.toTable

/-- The cardinality of an edge's label; a missing or empty label stands for one to many. -/
def cardinality? (label : Option String) : Option Cardinality :=
  match label with
  | none => some .oneToMany
  | some s => if s = "" then some .oneToMany else Cardinality.ofText? s

def relate (e : Edge) (a b : Label) (c : Cardinality) : Result Relationship :=
  match a, b with
  | .text a, .text b => .ok {
      id := e.id
      fromTable := a
      fromColumn := Handle.column e.sourceHandle
      toTable := b
      toColumn := e.targetHandle.getD ""
      cardinality := c }
  | a, b =>
    let refused (name : String) : Label → List Detail
      | .text _ => []
      | .malformed _ => [⟨[.key name], .notText⟩]
    .error (.invalid ⟨"RelationshipEdge", refused "from_table" a ++ refused "to_table" b⟩)

def relationshipOf (nodes : List Node) (e : Edge) : Result (Option Relationship) :=
  if e.source = "" ∨ e.target = "" then .ok none
  else
    match endpoint? nodes e.source, endpoint? nodes e.target with
    | some a, some b =>
      match cardinality? e.label with
      | some c => some <$> relate e a.data.label b.data.label c
      | none => .error (.unknownLabel e.id (e.label.getD ""))
    | _, _ => .error (.danglingEdge e.id e.source e.target)

def relationshipsOf (nodes : List Node) : List Edge → Result (List Relationship)
  | [] => .ok []
  | e :: rest => do
    let r ← relationshipOf nodes e
    let rs ← relationshipsOf nodes rest
    return r.toList ++ rs

def reduce (d : Diagram) : Result Schema := do
  let tables ← tablesOf d.nodes
  let relationships ← relationshipsOf d.nodes d.edges
  return ⟨tables, relationships⟩

end Diagram

end SchemaDiagram
