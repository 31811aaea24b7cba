import SchemaDiagram.Decode

/-!
Writing records as JSON objects. The wire form spells fields in the wire spelling and leaves out
what is `null`; the full form spells them plainly and keeps every field. A shape tells which part
of a full form was given by the value it was read from.
-/

set_option autoImplicit false

namespace SchemaDiagram

inductive Form where
  | wire
  | full
  deriving DecidableEq, Repr

namespace Form

def key : Form → Field → String
  | wire, f => f.wire
  | full, f => f.plain

def record (form : Form) (fields : List (Field × Json)) : Json :=
  match form with
  | wire => .obj ((fields.filter fun p => p.2 ≠ .null).map fun p => (p.1.wire, p.2))
  | full => .obj (fields.map fun p => (p.1.plain, p.2))

end Form

inductive Shape where
  | leaf
  | list (item : Shape)
  | record (fields : List (Field × Shape))
  deriving Inhabited

namespace Shape

mutual

/-- The part of a full form that was given by the value it was read from: fields absent from the
    value are left out, at every depth. -/
def given : Shape → Json → Json → Json
  | .leaf, _, v => v
  | .list item, .arr sources, .arr vs => .arr (givenItems item sources vs)
  | .list _, _, v => v
  | .record fields, .obj source, .obj members => .obj (givenFields fields source members)
  | .record _, _, v => v

def givenItems (item : Shape) : List Json → List Json → List Json
  | s :: sources, v :: vs => given item s v :: givenItems item sources vs
  | _, _ => []

def givenFields : List (Field × Shape) → List (String × Json) → List (String × Json) →
    List (String × Json)
  | [], _, _ => []
  | (f, shape) :: fields, source, members =>
    let rest := givenFields fields source members
    match f.find? source, Json.lookup f.plain members with
    | some (_, s), some v => (f.plain, given shape s v) :: rest
    | _, _ => rest

end

end Shape

class Record (α : Type) where
  name : String
  read : Source → List (String × Json) → Decoded α
  write : Form → α → Json
  shape : Shape

namespace Record

variable {α : Type} [Record α]

def decode (src : Source) (v : Json) : Decoded α :=
  Decode.record src (name α) (read src) v

def validate (src : Source) (v : Json) : Except Rejection α :=
  match decode src v with
  | .ok a => .ok a
  | .rejected ds => .error ⟨name α, ds⟩

def toWire (a : α) : Json := write .wire a

end Record

end SchemaDiagram
