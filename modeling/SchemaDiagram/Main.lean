import SchemaDiagram.Command
import SchemaDiagram.Environment

/-!
The program. It reads the files that the arguments and the settings name into a tree, carries the
command out on the tree, and writes back what has changed.
-/

set_option autoImplicit false

open SchemaDiagram
open SchemaDiagram.Files (Path Place Tree Entry)

namespace SchemaDiagram.Program

def nameOf (place : Place) : String := "/" ++ String.intercalate "/" place

def entryAt (place : Place) : IO (Option Entry) := do
  try
    let _ ← IO.FS.realPath (nameOf place ++ "/.")
    return some .folder
  catch _ =>
    try
      let bytes ← IO.FS.readBinFile (nameOf place)
      match String.fromUTF8? bytes with
      | some s => return some (.file (.text s))
      | none => return some (.file .raw)
    catch _ => return none

def places (t : Tree) (p : Path) : List Place :=
  (List.range (p.parts.length + 1)).map fun k => (p.parts.take k).foldl Tree.step (t.start p)

def readPlaces (t : Tree) (ps : List Place) : IO Tree := do
  let all := (ps.flatMap fun p => (List.range p.length).map fun k => p.take (k + 1)).eraseDups
  let mut t := t
  for place in all do
    if let some e ← entryAt place then t := t.put place e
  return t

def setVariables : IO Variables := do
  let mut env : Variables := []
  for name in Settings.names do
    for spelling in [name.map Char.toUpper, name] do
      let stem := if spelling = name then Settings.environmentStem.map Char.toLower
        else Settings.environmentStem
      if let some v ← IO.getEnv (stem ++ spelling) then env := env ++ [(stem ++ spelling, v)]
  return env

def writeChanges (before after : Tree) : IO Unit := do
  for (place, e) in after.entries do
    if before.get? place ≠ some e then
      match e with
      | .folder => IO.FS.createDir (nameOf place)
      | .file (.text s) => IO.FS.writeFile (nameOf place) s
      | .file .raw => pure ()

def pathsOf : Invocation → List Path
  | .run (.validate p) => [p]
  | .run (.project p q) | .run (.reduce p q) => [p, q]
  | _ => []

def reportFault (f : Fault) : IO UInt32 := do
  IO.eprintln ("Error: " ++ f.line)
  return 1

def run (args : List String) : IO UInt32 := do
  let here := (Path.ofString (← IO.currentDir).toString).parts
  let empty : Tree := { here := here }
  let files := (List.range (Environment.levelsAbove + 1)).map fun k =>
    here.take (here.length - k) ++ [Environment.fileName]
  let t ← readPlaces empty (here :: files)
  match Environment.load t (← setVariables) with
  | .error f => reportFault f
  | .ok (_, env) =>
    match Settings.load [] env with
    | .error f => reportFault f
    | .ok settings =>
      let i := Command.ofArguments false args
      let paths := pathsOf i ++ settings.logFile.toList
      let before ← readPlaces t (paths.flatMap (places t))
      match Settings.prepare [] env before with
      | (_, .error f) => reportFault f
      | (t, .ok settings) =>
        let (after, report) := i.perform settings t
        for line in report.out do IO.println line
        for line in report.err do IO.eprintln line
        writeChanges before after
        match report.ending with
        | .exit code => return code.toUInt32
        | .fault f => reportFault f

end SchemaDiagram.Program

def main (args : List String) : IO UInt32 := SchemaDiagram.Program.run args
