import SchemaDiagram.Schema
import SchemaDiagram.Text.Blank

/-!
The structural check of schemas. Every violation is reported, the tables' first and then the
relationships', each in the order of the schema; the check changes nothing and always ends with a
verdict.
-/

set_option autoImplicit false

namespace SchemaDiagram

inductive Issue where
  | missingTableName (tableId : String)
  | duplicateTable (table : String)
  | emptyTable (table : String)
  | missingColumnName (table : String)
  | duplicateColumn (table column : String)
  | missingColumnType (table column : String)
  | invalidEndpoints (relationshipId : String)
  | unknownTable (table : String)
  | unknownColumn (table column : String)
  | selfReference (table column : String)
  deriving DecidableEq, Repr

namespace Issue

def code : Issue → String
  | missingTableName _ => "MISSING_TABLE_NAME"
  | duplicateTable _ => "DUPLICATE_TABLE"
  | emptyTable _ => "EMPTY_TABLE"
  | missingColumnName _ => "MISSING_COLUMN_NAME"
  | duplicateColumn _ _ => "DUPLICATE_COLUMN"
  | missingColumnType _ _ => "MISSING_COLUMN_TYPE"
  | invalidEndpoints _ => "INVALID_RELATIONSHIP_ENDPOINTS"
  | unknownTable _ => "INVALID_RELATIONSHIP_TABLE"
  | unknownColumn _ _ => "INVALID_RELATIONSHIP_COLUMN"
  | selfReference _ _ => "SELF_REFERENCING_COLUMN"

def message : Issue → String
  | missingTableName _ => "Table name is required"
  | duplicateTable t => "Duplicate table name: " ++ t
  | emptyTable t => "Table " ++ t ++ " must have at least one column"
  | missingColumnName _ => "Column name is required"
  | duplicateColumn t c => "Duplicate column name: " ++ c ++ " in table " ++ t
  | missingColumnType _ c => "Column " ++ c ++ " must have a type"
  | invalidEndpoints r => "Relationship " ++ r ++ " has invalid endpoints"
  | unknownTable t => "Relationship references non-existent table: " ++ t
  | unknownColumn t c => "Column " ++ c ++ " does not exist in table " ++ t
  | selfReference _ _ => "Cannot create relationship from column to itself"

/-- The table an issue points at: its id where it has no name. -/
def table? : Issue → Option String
  | missingTableName t | duplicateTable t | emptyTable t | missingColumnName t
  | duplicateColumn t _ | missingColumnType t _ | unknownTable t | unknownColumn t _
  | selfReference t _ => some t
  | invalidEndpoints _ => none

/-- The column an issue points at; a column without a name is called unknown. -/
def column? : Issue → Option String
  | missingColumnName _ => some "unknown"
  | duplicateColumn _ c | missingColumnType _ c | unknownColumn _ c | selfReference _ c => some c
  | _ => none

end Issue

structure Verdict where
  issues : List Issue
  deriving DecidableEq

namespace Verdict

def valid (v : Verdict) : Bool := v.issues.isEmpty

def firstMessage (v : Verdict) : String :=
  match v.issues with
  | [] => "Validation failed"
  | i :: _ => i.message

def codes (v : Verdict) : List String := v.issues.map Issue.code

end Verdict

namespace Schema

open Text (isBlank)

def columnIssues (table : String) : List String → List Column → List Issue
  | _, [] => []
  | seen, c :: rest =>
    if isBlank c.name then .missingColumnName table :: columnIssues table seen rest
    else
      let duplicate := if c.name ∈ seen then [Issue.duplicateColumn table c.name] else []
      let untyped := if isBlank c.type then [Issue.missingColumnType table c.name] else []
      duplicate ++ untyped ++ columnIssues table (c.name :: seen) rest

def registered? (known : List Table) (name : String) : Option Table :=
  known.find? fun t => t.name = name

/-- Registers a table under its name. A blank name registers nothing, and a name keeps the first
    table that has it. -/
def register (known : List Table) (t : Table) : List Table :=
  if isBlank t.name ∨ (registered? known t.name).isSome then known else known ++ [t]

/-- The issues of one table, given those registered before it. A table without a name or without
    columns is not looked into further. -/
def tableIssues (known : List Table) (t : Table) : List Issue :=
  if isBlank t.name then [.missingTableName t.id]
  else
    let duplicate :=
      if (registered? known t.name).isSome then [Issue.duplicateTable t.name] else []
    let inside := if t.columns.isEmpty then [Issue.emptyTable t.name]
      else columnIssues t.name [] t.columns
    duplicate ++ inside

def scanTables : List Table → List Table → List Issue × List Table
  | known, [] => ([], known)
  | known, t :: rest =>
    let (issues, known') := scanTables (register known t) rest
    (tableIssues known t ++ issues, known')

def missingTable (known : List Table) (table : String) : List Issue :=
  if (registered? known table).isNone then [.unknownTable table] else []

/-- The issue of a relationship's end whose table has no such column. An end without table or
    column is passed over. -/
def missingColumn (known : List Table) (table column : String) : List Issue :=
  match registered? known table with
  | none => []
  | some t =>
    if column ≠ "" ∧ ¬ t.columns.any (fun c => c.name = column) then [.unknownColumn table column]
    else []

def relationshipIssues (known : List Table) (r : Relationship) : List Issue :=
  if r.fromTable = "" ∨ r.toTable = "" then [.invalidEndpoints r.id]
  else
    missingTable known r.fromTable ++ missingTable known r.toTable ++
    missingColumn known r.fromTable r.fromColumn ++ missingColumn known r.toTable r.toColumn ++
    if r.fromTable = r.toTable ∧ r.fromColumn = r.toColumn ∧ r.fromColumn ≠ "" then
      [.selfReference r.fromTable r.fromColumn]
    else []

def check (s : Schema) : Verdict :=
  let (issues, known) := scanTables [] s.tables
  ⟨issues ++ s.relationships.flatMap (relationshipIssues known)⟩

end Schema

end SchemaDiagram
