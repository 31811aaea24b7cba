import SchemaDiagram.Environment.Lines
import SchemaDiagram.Files.Tree
import SchemaDiagram.Settings

/-!
The environment from which settings are taken. A file of variables is looked for in the working
folder and in three folders above it; it does not replace a variable that is set.
-/

set_option autoImplicit false

namespace SchemaDiagram

open Files (Tree Place)

abbrev Variables := List (String × String)

namespace Environment

def fileName : String := ".env"

def value? (env : Variables) (name : String) : Option String :=
  (env.find? fun v => v.1 = name).map fun v => v.2

def bind (name : String) (value : Option String) :
    List (String × Option String) → List (String × Option String)
  | [] => [(name, value)]
  | (n, v) :: rest => if n = name then (n, value) :: rest else (n, v) :: bind name value rest

/-- The bindings of a text with their references replaced: a variable that is set wins over one
    bound before in the same text. -/
def resolve (env : Variables) (bs : List Binding) : List (String × Option String) :=
  bs.foldl (fun acc b =>
    let lookup (name : String) : Option String :=
      match value? env name with
      | some v => some v
      | none => (acc.find? fun v => v.1 = name).map fun v => v.2.getD ""
    bind b.name (b.value.map (expand lookup)) acc) []

/-- Sets a variable. The system takes neither empty names nor names with an equals sign, and no texts
    with the character that ends them. -/
def set (env : Variables) (name value : String) : Result Variables :=
  if !Text.isSystemText name || !Text.isSystemText value then .error (.file .unencodable)
  else if name.toList.contains '\x00' ∨ value.toList.contains '\x00' then
    .error (.file .nulCharacter)
  else if name.toList.contains '=' then .error .illegalVariable
  else if name = "" then .error .namelessVariable
  else .ok (env.filter (fun v => v.1 ≠ name) ++ [(name, value)])

def ofList (given : List (String × Json)) : Result Variables :=
  given.foldlM (fun env v =>
    match v.2 with
    | .str value => set env v.1 value
    | w => .error (.notText .variable w.kindName)) []

/-- Sets what a text binds and is not set yet. -/
def extend (env : Variables) (text : String) : Result Variables :=
  (resolve env (bindings text)).foldlM (fun acc b =>
    match b.2 with
    | some v => if (value? acc b.1).isSome then .ok acc else set acc b.1 v
    | none => .ok acc) env

def disabled (env : Variables) : Bool :=
  let word := Text.toLower (Text.toUpper ((value? env "PYTHON_DOTENV_DISABLED").getD ""))
  ["1", "true", "t", "yes", "y"].contains word

/-- The first place of a file of variables in a folder and so many folders above it. -/
def search (t : Tree) : Nat → Place → Option Place
  | levels, folder =>
    let place := folder ++ [fileName]
    if (t.get? place).isSome then some place
    else
      match levels with
      | 0 => none
      | levels + 1 => if folder = [] then none else search t levels folder.dropLast

def levelsAbove : Nat := 3

/-- Finds the file of variables and sets what it binds. A folder of that name is found too, but it
    binds nothing. -/
def load (t : Tree) (env : Variables) : Result (Option Place × Variables) :=
  match search t levelsAbove t.here with
  | none => .ok (none, env)
  | some place =>
    match t.get? place with
    | some (.file c) =>
      if disabled env then .ok (some place, env)
      else do return (some place, ← extend env (← c.read))
    | _ => .ok (some place, env)

end Environment

namespace Settings

def prepare (given : List (String × Json)) (env : Variables) (t : Tree) : Tree × Result Settings :=
  match load given env with
  | .error f => (t, .error f)
  | .ok s =>
    match s.logFile with
    | none => (t, .ok s)
    | some p =>
      match t.makeFolders p.parent with
      | (t, none) => (t, .ok s)
      | (t, some f) => (t, .error (.file f))

end Settings

end SchemaDiagram
