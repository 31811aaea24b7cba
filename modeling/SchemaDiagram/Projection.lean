import SchemaDiagram.Grid

/-!
Schemas as diagrams: one node for each table in the order of the tables, one edge for each
relationship. A table keeps the place known for its id, else its own, else it gets its place in the
grid.
-/

set_option autoImplicit false

namespace SchemaDiagram

/-- Known places by table id; a later entry for an id replaces an earlier one. -/
abbrev Places := List (String × Position)

namespace Places

def find? (places : Places) (id : String) : Option Position :=
  match places with
  | [] => none
  | (k, p) :: rest => (find? rest id).or (if k = id then some p else none)

def ofNodes (nodes : List Node) : Places := nodes.map fun n => (n.id, n.position)

end Places

/-- The column as shown in a node; every flag is definite. -/
def Column.toNodeColumn (c : Column) : NodeColumn where
  title := c.name
  type := c.type
  primaryKey := some c.primaryKey
  foreignKey := c.foreignKey
  nullable := some c.nullable
  unique := some c.unique
  defaultValue := c.defaultValue
  autoIncrement := c.autoIncrement

def Table.toNode (t : Table) (p : Position) : Node where
  id := t.id
  type := tableNodeType
  position := p
  data := ⟨.text t.name, t.comment, t.columns.map Column.toNodeColumn⟩

namespace Schema

def placeOf (grid : Grid) (places : Places) (index : Nat) (t : Table) : Result Position :=
  match places.find? t.id with
  | some p => .ok p
  | none =>
    match t.position with
    | some p => .ok p
    | none => grid.place index

def nodesFrom (grid : Grid) (places : Places) : Nat → List Table → Result (List Node)
  | _, [] => .ok []
  | index, t :: rest => do
    let p ← placeOf grid places index t
    let nodes ← nodesFrom grid places (index + 1) rest
    return t.toNode p :: nodes

def toNodes (s : Schema) (grid : Grid) (places : Places) : Result (List Node) :=
  nodesFrom grid places 0 s.tables

/-- The edge of a relationship between the first tables of its two names. -/
def edgeOf (s : Schema) (r : Relationship) : Result Edge :=
  match s.table? r.fromTable, s.table? r.toTable with
  | some a, some b => .ok {
      id := r.id
      source := a.id
      target := b.id
      sourceHandle := some (Handle.ofColumn r.fromColumn)
      targetHandle := some r.toColumn
      type := defaultEdgeType
      label := some r.cardinality.spelling }
  | _, _ => .error (.danglingRelationship r.id r.fromTable r.toTable)

def toEdges (s : Schema) : Result (List Edge) :=
  s.relationships.mapM s.edgeOf

def project (s : Schema) (grid : Grid) (places : Places) : Result Diagram := do
  let nodes ← s.toNodes grid places
  let edges ← s.toEdges
  return ⟨nodes, edges⟩

end Schema

end SchemaDiagram
