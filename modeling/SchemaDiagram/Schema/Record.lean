import SchemaDiagram.Schema

/-!
The records of a schema: how positions, foreign keys, columns, tables, relationships and schemas are
read from values and written as objects.
-/

set_option autoImplicit false

namespace SchemaDiagram

open Decode (text bool float nullable list items)
open Record (decode write shape)

namespace Json

def ofOption {α : Type} (f : α → Json) : Option α → Json
  | none => .null
  | some a => f a

end Json

instance : Record Position where
  name := "Position"
  read src o := Position.mk
    <$> (Field.word "x").optional 0.0 (float src) o
    <*> (Field.word "y").optional 0.0 (float src) o
  write form p := form.record [(Field.word "x", .float p.x), (Field.word "y", .float p.y)]
  shape := .record [(Field.word "x", .leaf), (Field.word "y", .leaf)]

namespace ForeignKey

def onDeleteField : Field := ⟨"on_delete", "onDelete"⟩

def onUpdateField : Field := ⟨"on_update", "onUpdate"⟩

end ForeignKey

open ForeignKey in
instance : Record ForeignKey where
  name := "ForeignKeyReference"
  read _ o := ForeignKey.mk
    <$> (Field.word "table").required text o
    <*> (Field.word "column").required text o
    <*> onDeleteField.optional none (nullable ReferentialAction.decode) o
    <*> onUpdateField.optional none (nullable ReferentialAction.decode) o
  write form k := form.record [
    (Field.word "table", .str k.table),
    (Field.word "column", .str k.column),
    (onDeleteField, .ofOption (fun a => .str a.spelling) k.onDelete),
    (onUpdateField, .ofOption (fun a => .str a.spelling) k.onUpdate)]
  shape := .record [(Field.word "table", .leaf), (Field.word "column", .leaf),
    (onDeleteField, .leaf), (onUpdateField, .leaf)]

namespace DefaultValue

/-- Every scalar is a default value as it stands; a list or an object fails in each of the four
    ways to be one. -/
def decode : Json → Decoded DefaultValue
  | .str s => .ok (.text s)
  | .int i => .ok (.int i)
  | .float x => .ok (.float x)
  | .bool b => .ok (.bool b)
  | _ => .rejected [⟨[.key "str"], .notText⟩, ⟨[.key "int"], .notInt⟩,
      ⟨[.key "float"], .notNumber⟩, ⟨[.key "bool"], .notBool⟩]

def toJson : DefaultValue → Json
  | text s => .str s
  | int i => .int i
  | float x => .float x
  | bool b => .bool b

theorem decode_toJson (d : DefaultValue) : decode d.toJson = .ok d := by
  cases d <;> rfl

end DefaultValue

namespace Column

def primaryKeyField : Field := ⟨"primary_key", "primaryKey"⟩

def foreignKeyField : Field := ⟨"foreign_key", "foreignKey"⟩

def defaultValueField : Field := ⟨"default_value", "defaultValue"⟩

def autoIncrementField : Field := ⟨"auto_increment", "autoIncrement"⟩

end Column

open Column in
instance : Record Column where
  name := "Column"
  read src o := Column.mk
    <$> (Field.word "name").optional "" text o
    <*> (Field.word "type").optional "" text o
    <*> primaryKeyField.optional false bool o
    <*> (Field.word "nullable").optional true bool o
    <*> (Field.word "unique").optional false bool o
    <*> foreignKeyField.optional none (nullable (decode src)) o
    <*> defaultValueField.optional none (nullable DefaultValue.decode) o
    <*> autoIncrementField.optional none (nullable bool) o
  write form c := form.record [
    (Field.word "name", .str c.name),
    (Field.word "type", .str c.type),
    (primaryKeyField, .bool c.primaryKey),
    (Field.word "nullable", .bool c.nullable),
    (Field.word "unique", .bool c.unique),
    (foreignKeyField, .ofOption (write form) c.foreignKey),
    (defaultValueField, .ofOption DefaultValue.toJson c.defaultValue),
    (autoIncrementField, .ofOption .bool c.autoIncrement)]
  shape := .record [(Field.word "name", .leaf), (Field.word "type", .leaf),
    (primaryKeyField, .leaf), (Field.word "nullable", .leaf), (Field.word "unique", .leaf),
    (foreignKeyField, shape ForeignKey), (defaultValueField, .leaf), (autoIncrementField, .leaf)]

instance : Record Table where
  name := "TableNode"
  read src o := Table.mk
    <$> (Field.word "id").required text o
    <*> (Field.word "name").optional "" text o
    <*> (Field.word "columns").optional [] (list src (decode src)) o
    <*> (Field.word "comment").optional none (nullable text) o
    <*> (Field.word "position").optional none (nullable (decode src)) o
  write form t := form.record [
    (Field.word "id", .str t.id),
    (Field.word "name", .str t.name),
    (Field.word "columns", .arr (t.columns.map (write form))),
    (Field.word "comment", .ofText? t.comment),
    (Field.word "position", .ofOption (write form) t.position)]
  shape := .record [(Field.word "id", .leaf), (Field.word "name", .leaf),
    (Field.word "columns", .list (shape Column)), (Field.word "comment", .leaf),
    (Field.word "position", shape Position)]

namespace Relationship

def fromTableField : Field := ⟨"from_table", "fromTable"⟩

def fromColumnField : Field := ⟨"from_column", "fromColumn"⟩

def toTableField : Field := ⟨"to_table", "toTable"⟩

def toColumnField : Field := ⟨"to_column", "toColumn"⟩

end Relationship

open Relationship in
instance : Record Relationship where
  name := "RelationshipEdge"
  read _ o := Relationship.mk
    <$> (Field.word "id").required text o
    <*> fromTableField.optional "" text o
    <*> fromColumnField.optional "" text o
    <*> toTableField.optional "" text o
    <*> toColumnField.optional "" text o
    <*> (Field.word "type").optional .oneToMany Cardinality.decode o
  write form r := form.record [
    (Field.word "id", .str r.id),
    (fromTableField, .str r.fromTable),
    (fromColumnField, .str r.fromColumn),
    (toTableField, .str r.toTable),
    (toColumnField, .str r.toColumn),
    (Field.word "type", .str r.cardinality.spelling)]
  shape := .record [(Field.word "id", .leaf), (fromTableField, .leaf), (fromColumnField, .leaf),
    (toTableField, .leaf), (toColumnField, .leaf), (Field.word "type", .leaf)]

instance : Record Schema where
  name := "SchemaAST"
  read src o := Schema.mk
    <$> (Field.word "tables").optional [] (list src (decode src)) o
    <*> (Field.word "relationships").optional [] (list src (decode src)) o
  write form s := form.record [
    (Field.word "tables", .arr (s.tables.map (write form))),
    (Field.word "relationships", .arr (s.relationships.map (write form)))]
  shape := .record [(Field.word "tables", .list (shape Table)),
    (Field.word "relationships", .list (shape Relationship))]

end SchemaDiagram
