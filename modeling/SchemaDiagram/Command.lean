import SchemaDiagram.Files.Document
import SchemaDiagram.Log.Setup
import SchemaDiagram.Projection
import SchemaDiagram.Reduction
import SchemaDiagram.Schema.Validation
import SchemaDiagram.Text.Terminal

/-!
The commands of the command line. One checks a schema, the two others turn a schema into a diagram
and back. A conversion that fails writes nothing.
-/

set_option autoImplicit false

namespace SchemaDiagram

open Files (Path Tree)

inductive Command where
  | validate (schema : Path)
  | project (schema out : Path)
  | reduce (diagram out : Path)
  deriving DecidableEq

inductive Invocation where
  | run (c : Command)
  | help
  | misuse
  deriving DecidableEq

inductive Ending where
  | exit (code : Nat)
  | fault (f : Fault)
  deriving DecidableEq

structure Report where
  out : List String := []
  err : List String := []
  ending : Ending := .exit 0
  deriving DecidableEq

def Report.plain (r : Report) : Report :=
  { r with out := r.out.map Text.plainLine, err := r.err.map Text.plainLine }

namespace Command

def isOption (a : String) : Bool :=
  match a.toList with
  | '-' :: _ :: _ => true
  | _ => false

def helpOption : String := "--help"

/-- The arguments of a command without its options, and whether help is asked for; none if there is
    an unknown option. A double dash ends the options. -/
def positional : List String → Option (List String × Bool)
  | [] => some ([], false)
  | a :: rest =>
    if a = "--" then some (rest, false)
    else if isOption a then
      if a = helpOption then (positional rest).map fun (args, _) => (args, true) else none
    else (positional rest).map fun (args, help) => (a :: args, help)

def isPath (a : String) : Bool := Text.isSystemText a && !a.toList.contains '\x00'

def ofName (name : String) (args : List String) : Option Command :=
  if !args.all isPath then none
  else match name, args with
  | "validate", [a] => some (.validate (.ofString a))
  | "project", [a, b] => some (.project (.ofString a) (.ofString b))
  | "reduce", [a, b] => some (.reduce (.ofString a) (.ofString b))
  | _, _ => none

def names : List String := ["validate", "project", "reduce"]

def ofNamed : List String → Invocation
  | [] => .misuse
  | name :: rest =>
    if names.contains name then
      match positional rest with
      | none => .misuse
      | some (_, true) => .help
      | some (args, false) =>
        match ofName name args with
        | some c => .run c
        | none => .misuse
    else .misuse

/-- Reads the arguments. Options before the name of a command are read first. -/
def ofArguments (help : Bool) : List String → Invocation
  | [] => if help then .help else .misuse
  | a :: rest =>
    if a = "--" then if help then .help else ofNamed rest
    else if isOption a then if a = helpOption then ofArguments true rest else .misuse
    else if help then .help else ofNamed (a :: rest)

def issueLine (i : Issue) : String := "[" ++ i.code ++ "] " ++ i.message

def checkReport (s : Schema) : Report :=
  let v := s.check
  if v.valid then
    { out := ["✓ Valid: " ++ toString s.tables.length ++ " tables, " ++
        toString s.relationships.length ++ " relationships"] }
  else
    { err := v.issues.map issueLine ++ ["✗ " ++ toString v.issues.length ++ " issue(s) found"]
      ending := .exit 1 }

def saved (what : String) (out : Path) (first : String) : Tree × Option Fault → Tree × Report
  | (t, some f) => (t, { out := [first], ending := .fault f })
  | (t, none) =>
    (t, { out := [first, "✓ Complete! " ++ what ++ " written to " ++ out.toString] })

def refused (first : String) (f : Fault) : Report :=
  match f with
  | .danglingRelationship _ _ _ | .danglingEdge _ _ _ | .unknownLabel _ _ =>
    { out := [first], err := ["Error: " ++ f.text], ending := .exit 1 }
  | f => { out := [first], ending := .fault f }

def perform (grid : Grid) (t : Tree) : Command → Tree × Report
  | validate p =>
    match Files.loadSchema t p with
    | .error f => (t, { ending := .fault f })
    | .ok s => (t, checkReport s)
  | project p out =>
    let first := "Loading AST from " ++ p.toString
    match Files.loadSchema t p with
    | .error f => (t, { out := [first], ending := .fault f })
    | .ok s =>
      match s.project grid [] with
      | .error f => (t, refused first f)
      | .ok d => saved "Graph" out first (Files.saveDiagram t out d)
  | reduce p out =>
    let first := "Loading graph from " ++ p.toString
    match Files.loadDiagram t p with
    | .error f => (t, { out := [first], ending := .fault f })
    | .ok d =>
      match d.reduce with
      | .error f => (t, refused first f)
      | .ok s => saved "AST" out first (Files.saveSchema t out s)

def run (settings : Settings) (c : Command) (t : Tree) : Tree × Report :=
  match Logging.setup settings {} {} t with
  | (_, t, some f) => (t, { ending := .fault f })
  | (_, t, none) =>
    let (t, report) := perform settings.grid t c
    (t, report.plain)

end Command

namespace Invocation

def usage : List String :=
  ["Usage: COMMAND PATH...", "", "Commands:",
   "  validate AST_JSON             check a schema",
   "  project AST_JSON OUT_GRAPH    lay a schema out as a diagram",
   "  reduce GRAPH_JSON OUT_AST     recover the schema from a diagram"]

def perform (settings : Settings) (i : Invocation) (t : Tree) : Tree × Report :=
  match i with
  | run c => c.run settings t
  | help => (t, { out := usage })
  | misuse => (t, { err := usage, ending := .exit 2 })

end Invocation

end SchemaDiagram
