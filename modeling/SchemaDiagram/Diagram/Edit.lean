import SchemaDiagram.Diagram.Record
import SchemaDiagram.Grid
import SchemaDiagram.Naming

/-!
The changes that can be made to a diagram. A change is carried out step by step: it looks up what it
is about, reads its arguments, and then puts nodes and edges in place, one after the other. A step
that fails ends the change, and nothing is taken back here. Arguments are taken as values. An id or
a title that is no text names nothing, even where its text in messages is that of a name.
-/

set_option autoImplicit false

namespace SchemaDiagram.Diagram

/-- A change of a diagram as it is carried out. It may fail, and what it has put in place until then
    stays. -/
abbrev Change (α : Type) := EStateM Fault Diagram α

instance : MonadLift Result Change where
  monadLift
    | .ok a => pure a
    | .error f => throw f

def node? (d : Diagram) (id : Json) : Option Node := d.nodes.find? fun n => .str n.id = id

def edge? (d : Diagram) (id : Json) : Option Edge := d.edges.find? fun e => .str e.id = id

def requireNode (id : Json) : Change Node := do
  match (← get).node? id with
  | some n => return n
  | none => throw (.noTable id)

def requireEdge (id : Json) : Change Edge := do
  match (← get).edge? id with
  | some e => return e
  | none => throw (.noRelationship id)

theorem id_of_node? {d : Diagram} {id : Json} {n : Node} (h : d.node? id = some n) :
    id = .str n.id := by
  simpa [eq_comm] using List.find?_some h

def mapNode (d : Diagram) (id : String) (f : Node → Node) : Diagram :=
  { d with nodes := d.nodes.map fun n => if n.id = id then f n else n }

def putData (d : Diagram) (id : String) (data : NodeData) : Diagram :=
  d.mapNode id fun n => { n with data := data }

def requireColumn (n : Node) (title : Json) : Result NodeColumn :=
  match n.data.columns.find? fun c => .str c.title = title with
  | some c => .ok c
  | none => .error (.noColumn title n.data.label)

def moveTable (id position : Json) : Change Unit := do
  let moved ← requireNode id
  let p : Position ← Record.validated .value position
  modify (·.mapNode moved.id fun n => { n with position := p })

def firstColumn : NodeColumn where
  title := "id"
  type := "integer"
  primaryKey := some true
  nullable := some false
  unique := some false

/-- The position given for a table; `null` stands for its place in the grid. -/
def tablePlace (grid : Grid) (index : Nat) (position : Json) : Result Position :=
  match position with
  | .null => grid.place index
  | v => Record.validated .value v

/-- Appends a table with a fresh id and a fresh name; without a position it stands in the grid at
    its index. Gives the id. -/
def addTable (grid : Grid) (position : Json) : Change String := do
  let nodes := (← get).nodes
  let id ← Naming.nextTableId nodes
  let p ← tablePlace grid nodes.length position
  let name ← Naming.nextTableName nodes
  let node : Node :=
    { id := id, position := p, data := { label := .text name, columns := [firstColumn] } }
  modify fun d => { d with nodes := d.nodes ++ [node] }
  return id

/-- Puts a new name on a table. The name is not checked here. -/
def renameTable (id name : Json) : Change Unit := do
  let n ← requireNode id
  modify (·.putData n.id { n.data with label := Label.ofName name })

def filterNodes (p : Node → Bool) (d : Diagram) : Diagram :=
  { d with nodes := d.nodes.filter p }

def filterEdges (p : Edge → Bool) (d : Diagram) : Diagram :=
  { d with edges := d.edges.filter p }

def mapEdges (f : Edge → Edge) (d : Diagram) : Diagram :=
  { d with edges := d.edges.map f }

def removeTable (id : Json) : Change Unit := do
  let removed ← requireNode id
  modify (filterNodes fun n => n.id ≠ removed.id)
  modify (filterEdges fun e => e.source ≠ removed.id ∧ e.target ≠ removed.id)

def columnFields : List Field :=
  [Field.word "title", Field.word "type", Column.primaryKeyField, Column.foreignKeyField,
   Field.word "nullable", Field.word "unique", Column.defaultValueField,
   Column.autoIncrementField]

def plainKey (key : String) : String :=
  match columnFields.find? fun f => f.wire = key with
  | some f => f.plain
  | none => key

def updateMembers : Json → Result (List (String × Json))
  | .obj members => .ok (Json.merge [] (members.map fun m => (plainKey m.1, m.2)))
  | v => .error (.noMember v.kindName "items")

def membersOf : Json → List (String × Json)
  | .obj members => members
  | _ => []

def mergeColumn (values : List (String × Json)) (update : Json) : Result NodeColumn := do
  let members ← updateMembers update
  Record.validated .value (.obj (Json.merge values members))

def columnDefaults (title : String) : List (String × Json) :=
  [("title", .str title), ("type", .str "varchar"), ("primary_key", .bool false),
   ("nullable", .bool true), ("unique", .bool false)]

/-- The column that an update makes of the defaults; `null` stands for no update. -/
def newColumn (columns : List NodeColumn) (update : Json) : Result NodeColumn :=
  let defaults := columnDefaults (Naming.nextColumnName columns)
  match update with
  | .null => mergeColumn defaults (.obj [])
  | v => mergeColumn defaults v

def addColumn (id update : Json) : Change String := do
  let n ← requireNode id
  let column ← newColumn n.data.columns update
  modify (·.putData n.id { n.data with columns := n.data.columns ++ [column] })
  return column.title

def columnsAt (e : Edge) (id : String) : List String :=
  (if e.source = id then [Handle.column e.sourceHandle] else []) ++
  (if e.target = id then [e.targetHandle.getD ""] else [])

def removeColumn (id title : Json) : Change Unit := do
  let n ← requireNode id
  let removed ← requireColumn n title
  modify (·.putData n.id
    { n.data with columns := n.data.columns.filter fun c => c.title ≠ removed.title })
  modify (filterEdges fun e => removed.title ∉ columnsAt e n.id)

/-- An edge whose handles follow a column's new title. -/
def retitleEdge (id old new : String) (e : Edge) : Edge :=
  { e with
    sourceHandle :=
      if e.source = id ∧ Handle.column e.sourceHandle = old then some (Handle.ofColumn new)
      else e.sourceHandle
    targetHandle :=
      if e.target = id ∧ e.targetHandle.getD "" = old then some new else e.targetHandle }

/-- Stores an update over the first column of a title and puts the result in the place of every
    column of that title; a new title is carried to the edges' handles. -/
def updateColumn (id title update : Json) : Change Unit := do
  let n ← requireNode id
  let current ← requireColumn n title
  let updated ← mergeColumn (membersOf (Record.write .full current)) update
  modify (·.putData n.id
    { n.data with columns := n.data.columns.map fun c =>
        if c.title = current.title then updated else c })
  if updated.title ≠ current.title then
    modify (mapEdges (retitleEdge n.id current.title updated.title))

/-- The column named at the target end, which must be a text or missing. -/
def targetHandle : Json → Result (Option String)
  | .null => .ok none
  | .str s => .ok (some s)
  | _ => .error (.invalid ⟨"GraphEdge", [⟨[.key "target_handle"], .notText⟩]⟩)

def addRelationship (fromId fromColumn toId toColumn cardinality : Json) : Change String := do
  let source ← requireNode fromId
  let goal ← requireNode toId
  let c ← Cardinality.ofJson cardinality
  let id ← Naming.nextRelationshipId (← get).edges
  let target ← targetHandle toColumn
  let edge : Edge := {
    id := id
    source := source.id
    target := goal.id
    sourceHandle := some (Handle.ofColumn fromColumn.display)
    targetHandle := target
    label := some c.spelling }
  modify fun d => { d with edges := d.edges ++ [edge] }
  return id

def removeRelationship (id : Json) : Change Unit := do
  let removed ← requireEdge id
  modify (filterEdges fun e => e.id ≠ removed.id)

def retypeRelationship (id cardinality : Json) : Change Unit := do
  let retyped ← requireEdge id
  let c ← Cardinality.ofJson cardinality
  modify (mapEdges fun e =>
    if e.id = retyped.id then { e with label := some c.spelling } else e)

end SchemaDiagram.Diagram
