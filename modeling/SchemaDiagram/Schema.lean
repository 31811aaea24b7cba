import SchemaDiagram.Encode

/-!
Schemas: tables with columns, and relationships between columns that name their tables. A table's
`id` stays the same when the table is renamed; relationships follow its name.
-/

set_option autoImplicit false

namespace SchemaDiagram

structure Position where
  x : Float := 0.0
  y : Float := 0.0
  deriving DecidableEq, Inhabited

inductive ReferentialAction where
  | cascade
  | setNull
  | restrict
  | noAction
  deriving DecidableEq, Repr

structure ForeignKey where
  table : String
  column : String
  onDelete : Option ReferentialAction := none
  onUpdate : Option ReferentialAction := none
  deriving DecidableEq

/-- A default value keeps its kind: `true`, `1`, `1.0` and `"1"` are four different ones. -/
inductive DefaultValue where
  | text (s : String)
  | int (i : Int)
  | float (x : Float)
  | bool (b : Bool)
  deriving DecidableEq

structure Column where
  name : String := ""
  type : String := ""
  primaryKey : Bool := false
  nullable : Bool := true
  unique : Bool := false
  foreignKey : Option ForeignKey := none
  defaultValue : Option DefaultValue := none
  autoIncrement : Option Bool := none
  deriving DecidableEq

structure Table where
  id : String
  name : String := ""
  columns : List Column := []
  comment : Option String := none
  position : Option Position := none
  deriving DecidableEq

inductive Cardinality where
  | oneToOne
  | oneToMany
  | manyToMany
  deriving DecidableEq, Repr

structure Relationship where
  id : String
  fromTable : String := ""
  fromColumn : String := ""
  toTable : String := ""
  toColumn : String := ""
  cardinality : Cardinality := .oneToMany
  deriving DecidableEq

structure Schema where
  tables : List Table := []
  relationships : List Relationship := []
  deriving DecidableEq, Inhabited

namespace Schema

def table? (s : Schema) (name : String) : Option Table :=
  s.tables.find? fun t => t.name = name

end Schema

namespace ReferentialAction

def all : List ReferentialAction := [cascade, setNull, restrict, noAction]

def spelling : ReferentialAction → String
  | cascade => "CASCADE"
  | setNull => "SET NULL"
  | restrict => "RESTRICT"
  | noAction => "NO ACTION"

def decode : Json → Decoded ReferentialAction :=
  Decode.choice spelling all .notLiteral

theorem decode_spelling (a : ReferentialAction) : decode (.str a.spelling) = .ok a := by
  cases a <;> rfl

end ReferentialAction

namespace Cardinality

def all : List Cardinality := [oneToOne, oneToMany, manyToMany]

def spelling : Cardinality → String
  | oneToOne => "ONE_TO_ONE"
  | oneToMany => "ONE_TO_MANY"
  | manyToMany => "MANY_TO_MANY"

def ofText? (s : String) : Option Cardinality :=
  all.find? fun c => c.spelling = s

def decode : Json → Decoded Cardinality :=
  Decode.choice spelling all .notMember

theorem eq_spelling_of_ofText? {s : String} {c : Cardinality} (h : ofText? s = some c) :
    s = c.spelling := by
  have := List.find?_some h
  simpa [eq_comm] using this

end Cardinality

end SchemaDiagram
