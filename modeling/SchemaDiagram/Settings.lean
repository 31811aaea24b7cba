import SchemaDiagram.Encode
import SchemaDiagram.Files.Path
import SchemaDiagram.Grid
import SchemaDiagram.Text.Case

/-!
The settings of the engine. A value given by name wins over one from the environment, which wins
over the default.
-/

set_option autoImplicit false

namespace SchemaDiagram

structure Settings where
  apiHost : String := "http://localhost:3000"
  wsHost : String := "ws://localhost:3000"
  apiToken : Option String := none
  /-- Seconds until a request is given up. -/
  httpTimeout : Float := 30.0
  /-- Seconds of quiet before a postponed save is sent. -/
  quietSeconds : Float := 1.0
  gridColumns : Int := 4
  gridSpacingX : Float := 300.0
  gridSpacingY : Float := 200.0
  /-- Notifications kept. -/
  history : Int := 50
  logLevel : String := "INFO"
  logFile : Option Files.Path := none
  deriving DecidableEq, Inhabited

namespace Settings

def grid (s : Settings) : Grid := ⟨s.gridColumns, s.gridSpacingX, s.gridSpacingY⟩

def names : List String :=
  ["api_host", "ws_host", "api_token", "http_timeout", "sync_debounce_seconds", "grid_columns",
   "grid_spacing_x", "grid_spacing_y", "notification_history", "log_level", "log_file"]

def environmentStem : String := "SCHEMASYNC_"

def decodePath : Json → Decoded Files.Path
  | .str s => .ok (Files.Path.ofString s)
  | _ => .fail .notPath

end Settings

open Decode in
instance : Record Settings where
  name := "Settings"
  read src o := Settings.mk
    <$> (Field.word "api_host").optional "http://localhost:3000" text o
    <*> (Field.word "ws_host").optional "ws://localhost:3000" text o
    <*> (Field.word "api_token").optional none (nullable text) o
    <*> (Field.word "http_timeout").optional 30.0 (float src) o
    <*> (Field.word "sync_debounce_seconds").optional 1.0 (float src) o
    <*> (Field.word "grid_columns").optional 4 int o
    <*> (Field.word "grid_spacing_x").optional 300.0 (float src) o
    <*> (Field.word "grid_spacing_y").optional 200.0 (float src) o
    <*> (Field.word "notification_history").optional 50 int o
    <*> (Field.word "log_level").optional "INFO" text o
    <*> (Field.word "log_file").optional none (nullable Settings.decodePath) o
  write form s := form.record [
    (Field.word "api_host", .str s.apiHost),
    (Field.word "ws_host", .str s.wsHost),
    (Field.word "api_token", .ofText? s.apiToken),
    (Field.word "http_timeout", .float s.httpTimeout),
    (Field.word "sync_debounce_seconds", .float s.quietSeconds),
    (Field.word "grid_columns", .int s.gridColumns),
    (Field.word "grid_spacing_x", .float s.gridSpacingX),
    (Field.word "grid_spacing_y", .float s.gridSpacingY),
    (Field.word "notification_history", .int s.history),
    (Field.word "log_level", .str s.logLevel),
    (Field.word "log_file", .ofText? (s.logFile.map Files.Path.toString))]
  shape := .record (Settings.names.map fun n => (Field.word n, .leaf))

namespace Settings

/-- The settings among environment variables, whose names may be written in any case; a later
    spelling of a name wins. -/
def ofEnvironment (env : List (String × String)) : List (String × Json) :=
  names.filterMap fun n =>
    let wanted := Text.toLower (environmentStem ++ n)
    (env.reverse.find? fun v => Text.toLower v.1 = wanted).map fun v => (n, .str v.2)

def load (given : List (String × Json)) (env : List (String × String)) : Result Settings :=
  Record.validated .value (.obj (Json.merge (ofEnvironment env) given))

end Settings

end SchemaDiagram
