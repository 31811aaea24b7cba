import SchemaDiagram.Diagram.Record
import SchemaDiagram.Files.Tree
import SchemaDiagram.Json.Printer
import SchemaDiagram.Text.Blank

/-!
Schemas and diagrams as files. Both are written in wire form with indentation, in folders that are
made where they are missing.
-/

set_option autoImplicit false

namespace SchemaDiagram.Files

def readDocument (t : Tree) (what : String) (p : Path) : Result String := do
  unless ← Tree.ofFile (t.holds p) do
    throw (.noFile what p.toString)
  let text := Text.strip (← t.read p)
  if text = "" then throw (.emptyFile what p.toString)
  return text

def schemaOfText (text : String) : Except Rejection Schema :=
  match Json.parse .strict text with
  | .error _ => .error ⟨Record.name Schema, [⟨[], .badSyntax⟩]⟩
  | .ok v => Record.validate .text v

def loadSchema (t : Tree) (p : Path) : Result Schema := do
  match schemaOfText (← readDocument t "AST" p) with
  | .ok s => return s
  | .error r => throw (.unreadable "AST" p.toString (.invalid r))

def recordsUnder (α : Type) [Record α] (members : List (String × Json)) (key : String) :
    Except Rejection (List α) :=
  let v := ((Json.lookup key members).getD .null).orElse (.arr [])
  match Decode.list .value (Record.decode .value) v with
  | .ok xs => .ok xs
  | .rejected ds => .error ⟨"list[" ++ Record.name α ++ "]", ds⟩

def diagramOf (v : Json) : Result Diagram :=
  match v with
  | .obj members =>
    match recordsUnder Node members "nodes", recordsUnder Edge members "edges" with
    | .error r, _ => .error (.invalid r)
    | .ok _, .error r => .error (.invalid r)
    | .ok nodes, .ok edges => .ok ⟨nodes, edges⟩
  | v => .error (.noMember v.kindName "get")

def loadDiagram (t : Tree) (p : Path) : Result Diagram := do
  match Json.parse .lenient (← readDocument t "Graph" p) with
  | .error .malformed => throw (.unreadable "graph" p.toString .badJson)
  | .error (.longInteger n) => throw (.longNumeral n)
  | .error (.tooDeep inObject) => throw (.deepDocument inObject)
  | .ok v =>
    match diagramOf v with
    | .ok d => return d
    | .error f => throw (.unreadable "graph" p.toString f)

def save (t : Tree) (p : Path) (v : Json) : Tree × Option Fault :=
  match t.makeFolders p.parent with
  | (t, some f) => (t, some (.file f))
  | (t, none) =>
    match t.write p v.pretty with
    | .error f => (t, some (.file f))
    | .ok t => (t, none)

def saveSchema (t : Tree) (p : Path) (s : Schema) : Tree × Option Fault :=
  save t p (Record.toWire s)

def saveDiagram (t : Tree) (p : Path) (d : Diagram) : Tree × Option Fault :=
  save t p d.toJson

end SchemaDiagram.Files
