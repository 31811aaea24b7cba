import SchemaDiagram.Notification
import SchemaDiagram.Reduction
import SchemaDiagram.Session

/-!
Validated edits. Each edit saves the diagram, changes it, reduces it to a schema and checks that.
A schema that passes is committed; one that does not, and a change or reduction that is refused,
puts the saved diagram back.
-/

set_option autoImplicit false

namespace SchemaDiagram

inductive Edit where
  | addTable (position : Json)
  | renameTable (id name : Json)
  | removeTable (id : Json)
  | addColumn (id update : Json)
  | removeColumn (id title : Json)
  | updateColumn (id title update : Json)
  | addRelationship (fromId fromColumn toId toColumn cardinality : Json)
  | removeRelationship (id : Json)
  | retypeRelationship (id cardinality : Json)
  deriving DecidableEq

namespace Edit

def name : Edit → String
  | addTable _ => "add_table"
  | renameTable _ _ => "update_table_name"
  | removeTable _ => "remove_table"
  | addColumn _ _ => "add_column"
  | removeColumn _ _ => "remove_column"
  | updateColumn _ _ _ => "update_column"
  | addRelationship _ _ _ _ _ => "add_relationship"
  | removeRelationship _ => "remove_relationship"
  | retypeRelationship _ _ => "update_relationship_type"

/-- The edit of a name with its arguments; those that are left out are `null`, and a relationship is
    one to many when nothing else is said. -/
def named? (name : String) (args : List Json) : Option Edit :=
  let arg (i : Nat) : Json := args[i]?.getD .null
  match name with
  | "add_table" => some (.addTable (arg 0))
  | "update_table_name" => some (.renameTable (arg 0) (arg 1))
  | "remove_table" => some (.removeTable (arg 0))
  | "add_column" => some (.addColumn (arg 0) (arg 1))
  | "remove_column" => some (.removeColumn (arg 0) (arg 1))
  | "update_column" => some (.updateColumn (arg 0) (arg 1) (arg 2))
  | "add_relationship" =>
    some (.addRelationship (arg 0) (arg 1) (arg 2) (arg 3)
      (args[4]?.getD (.str Cardinality.oneToMany.spelling)))
  | "remove_relationship" => some (.removeRelationship (arg 0))
  | "update_relationship_type" => some (.retypeRelationship (arg 0) (arg 1))
  | _ => none

/-- The change of a diagram that an edit asks for. Gives the fresh id of an edit that makes one. -/
def apply (grid : Grid) : Edit → Diagram.Change (Option String)
  | addTable p => some <$> Diagram.addTable grid p
  | renameTable id name => do
    Diagram.renameTable id name
    return none
  | removeTable id => do
    Diagram.removeTable id
    return none
  | addColumn id update => do
    let _ ← Diagram.addColumn id update
    return none
  | removeColumn id title => do
    Diagram.removeColumn id title
    return none
  | updateColumn id title update => do
    Diagram.updateColumn id title update
    return none
  | addRelationship a ac b bc c => some <$> Diagram.addRelationship a ac b bc c
  | removeRelationship id => do
    Diagram.removeRelationship id
    return none
  | retypeRelationship id c => do
    Diagram.retypeRelationship id c
    return none

/-- Whether the edit answers with an id; the others answer with a truth value. -/
def makesId : Edit → Bool
  | addTable _ | addRelationship _ _ _ _ _ => true
  | _ => false

def accepted (e : Edit) (id : Option String) : Json :=
  if e.makesId then .ofText? id else .bool true

def declined (e : Edit) : Json :=
  if e.makesId then .null else .bool false

end Edit

def Fault.reverts : Fault → Bool
  | invalid _ | noTable _ | noColumn _ _ | noRelationship _ | danglingEdge _ _ _
  | unknownLabel _ _ | notCardinality _ | noNumeral _ | longNumeral _ | longNumber => true
  | _ => false

inductive Attempt where
  | failed (f : Fault)
  | rolledBack (v : Verdict)
  | passed (schema : Schema) (id : Option String)
  deriving DecidableEq

namespace Session

/-- Changes the saved diagram and reduces the result. What a change that fails has put in place is
    still there. -/
def change (grid : Grid) (e : Edit) (c : Canvas) : Canvas × Result (Schema × Option String) :=
  match (e.apply grid).run c.diagram with
  | .error f d => ({ c with diagram := d }, .error f)
  | .ok id d =>
    let c := { c with diagram := d }
    match d.reduce with
    | .error f => (c, .error f)
    | .ok schema => (c, .ok (schema, id))

def attempt (grid : Grid) (e : Edit) (s : Session) : Session × Attempt :=
  let (c, outcome) := change grid e s.canvas.save
  match outcome with
  | .error f => ({ s with canvas := if f.reverts then c.revert else c }, .failed f)
  | .ok (schema, id) =>
    let verdict := schema.check
    if verdict.valid then ({ s with canvas := c }, .passed schema id)
    else ({ s with canvas := c.revert }, .rolledBack verdict)

def deselect (s : Session) (id : Json) : Session :=
  if s.selection.node = id then { s with selection := {} } else s

end Session

/-- What surrounds a session while edits are made to it: its own state, in which the session and
    the verdict on the latest edit are kept, and what it does with lines for the log, with notes
    for the user and with committed schemas. -/
structure EditHost (S : Type) where
  session : S → Session
  putSession : Session → S → S
  putVerdict : Verdict → S → S
  log : LogLine → S → S
  notify : Note → S → S × Option Fault
  commit : Schema → S → S × Option Fault

namespace EditHost

variable {S : Type}

def logAll (h : EditHost S) (lines : List LogLine) (s : S) : S :=
  lines.foldl (fun s l => h.log l s) s

def settle (h : EditHost S) (e : Edit) (s : S) : S :=
  match e with
  | .removeTable id => h.putSession ((h.session s).deselect id) s
  | _ => s

def rollbackLine (e : Edit) (v : Verdict) : LogLine :=
  ⟨.info, .edits, e.name ++ ": rolled back, " ++ toString v.issues.length ++ " issue(s): " ++
    (v.codes.head?.getD "")⟩

/-- Makes an edit. An edit that is rolled back is reported to the user and sends nothing on. -/
def run (h : EditHost S) (grid : Grid) (e : Edit) (s : S) : S × Result Json :=
  let (session, attempt) := (h.session s).attempt grid e
  let s := h.putSession session s
  match attempt with
  | .failed f => (s, .error f)
  | .rolledBack v =>
    let s := h.logAll (v.log ++ [rollbackLine e v]) (h.putVerdict v s)
    match h.notify (Note.error v.firstMessage Note.editorSource) s with
    | (s, some f) => (s, .error f)
    | (s, none) => (s, .ok e.declined)
  | .passed schema id =>
    let s := h.log ⟨.debug, .edits, e.name ++ ": committed"⟩ (h.putVerdict schema.check s)
    match h.commit schema s with
    | (s, some f) => (s, .error f)
    | (s, none) => (h.settle e s, .ok (e.accepted id))

end EditHost

end SchemaDiagram
