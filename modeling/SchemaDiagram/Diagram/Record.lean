import SchemaDiagram.Diagram
import SchemaDiagram.Schema.Record

/-!
The records of a diagram: how node columns, node data, nodes and edges are read from values and
written as objects.
-/

set_option autoImplicit false

namespace SchemaDiagram

open Decode (text bool nullable list)
open Record (decode write shape)

open Column in
instance : Record NodeColumn where
  name := "SchemaField"
  read src o := NodeColumn.mk
    <$> (Field.word "title").optional "" text o
    <*> (Field.word "type").optional "" text o
    <*> primaryKeyField.optional none (nullable bool) o
    <*> foreignKeyField.optional none (nullable (decode src)) o
    <*> (Field.word "nullable").optional none (nullable bool) o
    <*> (Field.word "unique").optional none (nullable bool) o
    <*> defaultValueField.optional none (nullable DefaultValue.decode) o
    <*> autoIncrementField.optional none (nullable bool) o
  write form c := form.record [
    (Field.word "title", .str c.title),
    (Field.word "type", .str c.type),
    (primaryKeyField, .ofOption .bool c.primaryKey),
    (foreignKeyField, .ofOption (write form) c.foreignKey),
    (Field.word "nullable", .ofOption .bool c.nullable),
    (Field.word "unique", .ofOption .bool c.unique),
    (defaultValueField, .ofOption DefaultValue.toJson c.defaultValue),
    (autoIncrementField, .ofOption .bool c.autoIncrement)]
  shape := .record [(Field.word "title", .leaf), (Field.word "type", .leaf),
    (primaryKeyField, .leaf), (foreignKeyField, shape ForeignKey), (Field.word "nullable", .leaf),
    (Field.word "unique", .leaf), (defaultValueField, .leaf), (autoIncrementField, .leaf)]

namespace NodeData

def columnsField : Field := ⟨"columns", "schema"⟩

end NodeData

open NodeData in
instance : Record NodeData where
  name := "NodeData"
  read src o := NodeData.mk
    <$> (Field.word "label").optional (.text "") (fun v => Label.text <$> text v) o
    <*> (Field.word "comment").optional none (nullable text) o
    <*> columnsField.optional [] (list src (decode src)) o
  write form d := form.record [
    (Field.word "label", d.label.toJson),
    (Field.word "comment", .ofText? d.comment),
    (columnsField, .arr (d.columns.map (write form)))]
  shape := .record [(Field.word "label", .leaf), (Field.word "comment", .leaf),
    (columnsField, .list (shape NodeColumn))]

instance : Record Node where
  name := "GraphNode"
  read src o := Node.mk
    <$> (Field.word "id").required text o
    <*> (Field.word "type").optional tableNodeType text o
    <*> (Field.word "position").optional {} (decode src) o
    <*> (Field.word "data").optional {} (decode src) o
  write form n := form.record [
    (Field.word "id", .str n.id),
    (Field.word "type", .str n.type),
    (Field.word "position", write form n.position),
    (Field.word "data", write form n.data)]
  shape := .record [(Field.word "id", .leaf), (Field.word "type", .leaf),
    (Field.word "position", shape Position), (Field.word "data", shape NodeData)]

namespace Edge

def sourceHandleField : Field := ⟨"source_handle", "sourceHandle"⟩

def targetHandleField : Field := ⟨"target_handle", "targetHandle"⟩

end Edge

open Edge in
instance : Record Edge where
  name := "GraphEdge"
  read _ o := Edge.mk
    <$> (Field.word "id").required text o
    <*> (Field.word "source").optional "" text o
    <*> (Field.word "target").optional "" text o
    <*> sourceHandleField.optional none (nullable text) o
    <*> targetHandleField.optional none (nullable text) o
    <*> (Field.word "type").optional defaultEdgeType text o
    <*> (Field.word "label").optional none (nullable text) o
  write form e := form.record [
    (Field.word "id", .str e.id),
    (Field.word "source", .str e.source),
    (Field.word "target", .str e.target),
    (sourceHandleField, .ofText? e.sourceHandle),
    (targetHandleField, .ofText? e.targetHandle),
    (Field.word "type", .str e.type),
    (Field.word "label", .ofText? e.label)]
  shape := .record [(Field.word "id", .leaf), (Field.word "source", .leaf),
    (Field.word "target", .leaf), (sourceHandleField, .leaf), (targetHandleField, .leaf),
    (Field.word "type", .leaf), (Field.word "label", .leaf)]

def Diagram.toJson (d : Diagram) : Json :=
  .obj [("nodes", .arr (d.nodes.map Record.toWire)), ("edges", .arr (d.edges.map Record.toWire))]

end SchemaDiagram
