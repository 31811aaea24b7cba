import SchemaDiagram.Schema.Validation

/-!
Lines for the log: who wrote them, how grave they are and what they say.
-/

set_option autoImplicit false

namespace SchemaDiagram

inductive LogLevel where
  | debug
  | info
  | warning
  | error
  deriving DecidableEq, Repr

namespace LogLevel

def weight : LogLevel → Int
  | debug => 10
  | info => 20
  | warning => 30
  | error => 40

def name : LogLevel → String
  | debug => "DEBUG"
  | info => "INFO"
  | warning => "WARNING"
  | error => "ERROR"

end LogLevel

inductive LogSource where
  | check
  | edits
  | notifications
  | channel
  | debouncer
  | coordinator
  | client
  deriving DecidableEq, Repr

def LogSource.logger : LogSource → String
  | check => "schemasync.ir.validators"
  | edits => "schemasync.editor.transactions"
  | notifications => "schemasync.notifications"
  | channel => "schemasync.sync.channel"
  | debouncer => "schemasync.sync.debounce"
  | coordinator => "schemasync.sync.coordinator"
  | client => "schemasync.sync.persistence"

structure LogLine where
  level : LogLevel
  source : LogSource
  message : String
  deriving DecidableEq, Repr

def LogLine.text (l : LogLine) : String :=
  l.level.name ++ ":" ++ l.source.logger ++ ":" ++ l.message

namespace Verdict

/-- The distinct codes of a verdict in alphabetical order. -/
def codeSummary (v : Verdict) : List String :=
  (v.codes.mergeSort fun a b => decide (a ≤ b)).eraseDups

def log (v : Verdict) : List LogLine :=
  if v.valid then []
  else [⟨.debug, .check, "Schema validation found " ++ toString v.issues.length ++ " issues: " ++
    String.intercalate ", " v.codeSummary⟩]

end Verdict

end SchemaDiagram
