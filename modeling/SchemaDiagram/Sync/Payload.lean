import SchemaDiagram.Diagram.Record
import SchemaDiagram.TextError

/-!
What a save sends to the backend. Parts that are absent are not sent.
-/

set_option autoImplicit false

namespace SchemaDiagram.Sync

open Decode (text nullable list)
open Record (decode write shape)

inductive StoredStatus where
  | editing
  | idle
  | saving
  deriving DecidableEq, Repr

namespace StoredStatus

def all : List StoredStatus := [editing, idle, saving]

def spelling : StoredStatus → String
  | editing => "editing"
  | idle => "idle"
  | saving => "saving"

def decode : Json → Decoded StoredStatus :=
  Decode.choice spelling all .notLiteral

end StoredStatus

structure Payload where
  text : Option String := none
  schema : Option Schema := none
  nodes : Option (List Node) := none
  edges : Option (List Edge) := none
  errors : Option (List TextError) := none
  status : Option StoredStatus := none
  deriving DecidableEq

namespace Payload

def textField : Field := ⟨"dbml_text", "dbmlText"⟩

def schemaField : Field := Field.word "ast"

def nodesField : Field := Field.word "nodes"

def edgesField : Field := Field.word "edges"

def errorsField : Field := Field.word "errors"

def statusField : Field := Field.word "status"

end Payload

open Payload in
instance : Record Payload where
  name := "SyncPayload"
  read src o := Payload.mk
    <$> textField.optional none (nullable text) o
    <*> schemaField.optional none (nullable (decode src)) o
    <*> nodesField.optional none (nullable (list src (decode src))) o
    <*> edgesField.optional none (nullable (list src (decode src))) o
    <*> errorsField.optional none (nullable (list src (decode src))) o
    <*> statusField.optional none (nullable StoredStatus.decode) o
  write form p :=
    let all {α : Type} [Record α] (xs : List α) : Json := .arr (xs.map (write form))
    form.record [
      (textField, .ofText? p.text),
      (schemaField, .ofOption (write form) p.schema),
      (nodesField, .ofOption all p.nodes),
      (edgesField, .ofOption all p.edges),
      (errorsField, .ofOption all p.errors),
      (statusField, .ofOption (fun s => .str s.spelling) p.status)]
  shape := .record [(textField, .leaf), (schemaField, shape Schema),
    (nodesField, .list (shape Node)), (edgesField, .list (shape Edge)),
    (errorsField, .list (shape TextError)), (statusField, .leaf)]

end SchemaDiagram.Sync
