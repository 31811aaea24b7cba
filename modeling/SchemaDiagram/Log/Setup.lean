import SchemaDiagram.Files.Tree
import SchemaDiagram.Log.Format
import SchemaDiagram.Settings
import SchemaDiagram.Text.Case

/-!
Where log lines go. Setting up gives the engine's logger a level, one handler for the console and
one for a file if a file is configured. The steps are made in order and are not undone: when a
format is refused the logger is left without handlers, and when the file cannot be opened only the
console is left.
-/

set_option autoImplicit false

namespace SchemaDiagram

open Files (Tree Place)

inductive LogTarget where
  | console
  | file (place : Place)
  deriving DecidableEq

structure LogHandler where
  target : LogTarget
  level : Int
  format : String
  deriving DecidableEq

structure Logging where
  level : Int := 0
  handlers : List LogHandler := []
  /-- Whether lines also go to the handlers of the surrounding program. -/
  propagate : Bool := true
  /-- The levels of the two loggers that report requests, the client's and that of its transport. -/
  clientLevel : Int := 0
  transportLevel : Int := 0
  /-- What has been written to the console. -/
  console : String := ""
  deriving DecidableEq

/-- What is asked of a setup, as it is given; what is not comes from the settings. -/
structure LogRequest where
  level : Json := .null
  file : Json := .null
  format : Json := .null
  deriving DecidableEq

namespace Logging

def engineName : String := "schemasync"

def defaultFormat : String :=
  "%(asctime)s - %(name)s - %(levelname)s - [%(filename)s:%(lineno)d] - %(message)s"

def basicFormat : String := "%(levelname)s:%(name)s:%(message)s"

def styleTable : String :=
  "\x7b'%': (<class 'logging.PercentStyle'>, '%(levelname)s:%(name)s:%(message)s'), " ++
  "'\x7b': (<class 'logging.StrFormatStyle'>, '\x7blevelname\x7d:\x7bname\x7d:\x7bmessage\x7d'), " ++
  "'$': (<class 'logging.StringTemplateStyle'>, '$\x7blevelname\x7d:$\x7bname\x7d:$\x7bmessage\x7d')\x7d"

def levels : List (String × Int) :=
  [("CRITICAL", 50), ("FATAL", 50), ("ERROR", 40), ("WARNING", 30), ("WARN", 30), ("INFO", 20),
   ("DEBUG", 10), ("NOTSET", 0)]

def debugLevel : Int := 10

/-- The level that a logger without a level of its own takes over. -/
def warningLevel : Int := 30

def levelOf (name : String) : Result Int :=
  match levels.find? fun l => l.1 = name with
  | some l => .ok l.2
  | none => .error (
      if name = "BASIC_FORMAT" then .levelIsFormat basicFormat
      else if name = "_STYLES" then .levelIsTable styleTable
      else .unknownLevel name)

def levelNamed (v : Json) : Result Int :=
  match v with
  | .str s => levelOf (Text.toUpper s)
  | v => .error (.noMember v.kindName "upper")

def nameOf (level : Int) : String :=
  match levels.find? fun l => l.2 = level with
  | some l => l.1
  | none => "Level " ++ toString level

def requestLevel (level : Int) : Int := if level ≤ debugLevel then debugLevel else warningLevel

/-- The place of a file, with double dots taken literally. -/
def placeOf (t : Tree) (p : Files.Path) : Place := p.parts.foldl Files.Tree.step (t.start p)

def openFile (t : Tree) (p : Files.Path) : Except FileFault Tree := do
  Files.Tree.check p
  t.appendAt (← t.walk [] (placeOf t p)) ""

def formatOf (v : Json) : Result String :=
  match v.orElse (.str defaultFormat) with
  | .str format =>
    if LogFormat.isValid format then .ok format else .error (.unknownFormat format)
  | v => .error (.notText .format v.kindName)

def fileOf (settings : Settings) (v : Json) (t : Tree) : Result (Option Place × Tree) := do
  let asked ← if v.truthy then some <$> Files.Path.ofJson v else .ok settings.logFile
  match asked with
  | none => return (none, t)
  | some p => return (some (placeOf t p), ← Tree.ofFile (openFile t p))

/-- Sets up the logger. What was done before a failure stays done. -/
def setup (settings : Settings) (r : LogRequest) (l : Logging) (t : Tree) :
    Logging × Tree × Option Fault :=
  match levelNamed (r.level.orElse (.str settings.logLevel)) with
  | .error f => (l, t, some f)
  | .ok level =>
    let l := { l with level := level, handlers := [] }
    match formatOf r.format with
    | .error f => (l, t, some f)
    | .ok format =>
      let l := { l with handlers := [⟨.console, level, format⟩] }
      match fileOf settings r.file t with
      | .error f => (l, t, some f)
      | .ok (place, t) =>
        let files := place.toList.map fun p => (⟨.file p, level, format⟩ : LogHandler)
        ({ l with
          handlers := l.handlers ++ files
          propagate := false
          clientLevel := requestLevel level
          transportLevel := requestLevel level }, t, none)

def loggerName (name : String) : String :=
  if name = engineName ∨ (engineName ++ ".").toList.isPrefixOf name.toList then name
  else engineName ++ "." ++ name

def loggerNamed (v : Json) : Result String :=
  match v with
  | .str name => .ok (loggerName name)
  | v => .error (.noMember v.kindName "startswith")

/-- Makes sure that a logger can write: without handlers the default setup is made. -/
def getLogger (settings : Settings) (name : Json) (l : Logging) (t : Tree) :
    Logging × Tree × Result String :=
  if l.handlers = [] then
    match setup settings {} l t with
    | (l, t, some f) => (l, t, .error f)
    | (l, t, none) => (l, t, loggerNamed name)
  else (l, t, loggerNamed name)

def threshold (l : Logging) : Int := if l.level = 0 then warningLevel else l.level

def field? (level : Int) (name : String) (message : Json) : String → Option LogFormat.Value
  | "name" => some (.json (.str name))
  | "levelname" => some (.json (.str (nameOf level)))
  | "levelno" => some (.json (.int level))
  | "msg" => some (.json message)
  | "message" => some (.json (.str message.display))
  | "threadName" => some (.json (.str "MainThread"))
  | "processName" => some (.json (.str "MainProcess"))
  | "exc_info" | "exc_text" | "stack_info" => some (.json .null)
  | "args" => some .noArguments
  | _ => none

/-- Writes a line to a handler. A line that does not fit the format is not written, and neither is
    one that a file cannot hold. -/
def emitTo (level : Int) (name : String) (message : Json) (s : Logging × Tree) (h : LogHandler) :
    Logging × Tree :=
  if h.level ≤ level then
    match LogFormat.render h.format (field? level name message), h.target with
    | none, _ => s
    | some text, .console => ({ s.1 with console := s.1.console ++ text ++ "\n" }, s.2)
    | some text, .file place =>
      if Text.hasUnpaired text then s
      else (s.1, (s.2.appendAt place (text ++ "\n")).toOption.getD s.2)
  else s

def write (level : Int) (name : String) (message : Json) (l : Logging) (t : Tree) :
    Logging × Tree :=
  if l.threshold ≤ level ∧ 0 < level then
    l.handlers.foldl (emitTo level name message) (l, t)
  else (l, t)

end Logging

end SchemaDiagram
