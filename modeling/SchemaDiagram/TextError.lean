import SchemaDiagram.Schema.Record

/-!
Errors in the schema text, as the remote parser reports them.
-/

set_option autoImplicit false

namespace SchemaDiagram

inductive TextError.Kind where
  | grammar
  | semantic
  | validation
  deriving DecidableEq, Repr

structure TextError where
  line : Int := 0
  column : Option Int := none
  message : String
  kind : TextError.Kind := .grammar
  code : Option String := none
  deriving DecidableEq

namespace TextError

namespace Kind

def all : List Kind := [.grammar, .semantic, .validation]

def spelling : Kind → String
  | .grammar => "syntax"
  | .semantic => "semantic"
  | .validation => "validation"

def decode : Json → Decoded Kind :=
  Decode.choice spelling all .notLiteral

end Kind

end TextError

open Decode (text nullable) in
instance : Record TextError where
  name := "ParseError"
  read _ o := TextError.mk
    <$> (Field.word "line").optional 0 Decode.int o
    <*> (Field.word "column").optional none (nullable Decode.int) o
    <*> (Field.word "message").required text o
    <*> (Field.word "type").optional .grammar TextError.Kind.decode o
    <*> (Field.word "code").optional none (nullable text) o
  write form e := form.record [
    (Field.word "line", .int e.line),
    (Field.word "column", .ofOption .int e.column),
    (Field.word "message", .str e.message),
    (Field.word "type", .str e.kind.spelling),
    (Field.word "code", .ofText? e.code)]
  shape := .record [(Field.word "line", .leaf), (Field.word "column", .leaf),
    (Field.word "message", .leaf), (Field.word "type", .leaf), (Field.word "code", .leaf)]

end SchemaDiagram
