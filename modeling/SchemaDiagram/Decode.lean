import SchemaDiagram.Json
import SchemaDiagram.Decimal.Reader
import SchemaDiagram.Text.Unpaired

/-!
Reading records out of JSON values. A reading that fails lists every problem, in the order of the
fields and depth first, each at the path where it stands; fields are known by a plain and a wire
spelling, and members that belong to no field are passed over.
-/

set_option autoImplicit false

namespace SchemaDiagram

/-- Whether a value came as such or was read from a text; the wording of two problems differs. -/
inductive Source where
  | value
  | text
  deriving DecidableEq, Repr

inductive Step where
  | key (name : String)
  | index (i : Nat)
  deriving DecidableEq, Repr

inductive Problem where
  | missing
  | notText
  /-- A text cannot be encoded. -/
  | notUnicode
  | notBool
  | unclearBool
  | notInt
  | unclearInt
  | fractionalInt
  | longInt
  | infinite
  | notNumber
  | unclearNumber
  | notPath
  | notLiteral (choices : List String)
  | notMember (choices : List String)
  | notList (source : Source)
  | notRecord (source : Source) (record : String)
  | badSyntax
  deriving DecidableEq, Repr

namespace Problem

def code : Problem → String
  | missing => "missing"
  | notText => "string_type"
  | notUnicode => "string_unicode"
  | notBool => "bool_type"
  | unclearBool => "bool_parsing"
  | notInt => "int_type"
  | unclearInt => "int_parsing"
  | fractionalInt => "int_from_float"
  | longInt => "int_parsing_size"
  | infinite => "finite_number"
  | notNumber => "float_type"
  | unclearNumber => "float_parsing"
  | notPath => "path_type"
  | notLiteral _ => "literal_error"
  | notMember _ => "enum"
  | notList _ => "list_type"
  | notRecord _ _ => "model_type"
  | badSyntax => "json_invalid"

def choiceList : List String → String
  | [] => ""
  | [a] => "'" ++ a ++ "'"
  | [a, b] => "'" ++ a ++ "' or '" ++ b ++ "'"
  | a :: rest => "'" ++ a ++ "', " ++ choiceList rest

def message : Problem → String
  | missing => "Field required"
  | notText => "Input should be a valid string"
  | notUnicode => "Input should be a valid string, unable to parse raw data as a unicode string"
  | notBool => "Input should be a valid boolean"
  | unclearBool => "Input should be a valid boolean, unable to interpret input"
  | notInt => "Input should be a valid integer"
  | unclearInt => "Input should be a valid integer, unable to parse string as an integer"
  | fractionalInt => "Input should be a valid integer, got a number with a fractional part"
  | longInt => "Unable to parse input string as an integer, exceeded maximum size"
  | infinite => "Input should be a finite number"
  | notNumber => "Input should be a valid number"
  | unclearNumber => "Input should be a valid number, unable to parse string as a number"
  | notPath => "Input is not a valid path for <class 'pathlib.Path'>"
  | notLiteral choices => "Input should be " ++ choiceList choices
  | notMember choices => "Input should be " ++ choiceList choices
  | notList .value => "Input should be a valid list"
  | notList .text => "Input should be a valid array"
  | notRecord .value record => "Input should be a valid dictionary or instance of " ++ record
  | notRecord .text _ => "Input should be an object"
  | badSyntax => ""

end Problem

structure Detail where
  path : List Step
  problem : Problem
  deriving DecidableEq, Repr

inductive Decoded (α : Type) where
  | ok (value : α)
  | rejected (details : List Detail)

namespace Decoded

variable {α β : Type}

def map (f : α → β) : Decoded α → Decoded β
  | ok a => ok (f a)
  | rejected ds => rejected ds

def seq : Decoded (α → β) → Decoded α → Decoded β
  | ok f, ok a => ok (f a)
  | ok _, rejected ds => rejected ds
  | rejected ds, ok _ => rejected ds
  | rejected ds, rejected es => rejected (ds ++ es)

instance : Applicative Decoded where
  pure := ok
  seq f a := seq f (a ())

def within (step : Step) : Decoded α → Decoded α
  | ok a => ok a
  | rejected ds => rejected (ds.map fun d => ⟨step :: d.path, d.problem⟩)

def fail (p : Problem) : Decoded α := rejected [⟨[], p⟩]

@[simp] theorem map_ok (f : α → β) (a : α) : f <$> (ok a) = ok (f a) := rfl

@[simp] theorem seq_ok (f : α → β) (a : α) : (ok f <*> ok a) = ok (f a) := rfl

@[simp] theorem within_ok (step : Step) (a : α) : (ok a).within step = ok a := rfl

end Decoded

structure Field where
  plain : String
  wire : String
  deriving DecidableEq, Repr

namespace Field

def word (name : String) : Field := ⟨name, name⟩

def find? (f : Field) (members : List (String × Json)) : Option (String × Json) :=
  match Json.lookup f.wire members with
  | some v => some (f.wire, v)
  | none => (Json.lookup f.plain members).map fun v => (f.plain, v)

variable {α : Type}

def optional (f : Field) (default : α) (read : Json → Decoded α)
    (members : List (String × Json)) : Decoded α :=
  match f.find? members with
  | some (key, v) => (read v).within (.key key)
  | none => .ok default

/-- A field that has to be there; its absence is a problem under its wire spelling. -/
def required (f : Field) (read : Json → Decoded α) (members : List (String × Json)) :
    Decoded α :=
  match f.find? members with
  | some (key, v) => (read v).within (.key key)
  | none => .rejected [⟨[.key f.wire], .missing⟩]

end Field

namespace Decode

variable {α : Type}

def text : Json → Decoded String
  | .str s => .ok s
  | _ => .fail .notText

def boolWord? (s : String) : Option Bool :=
  if ["0", "off", "f", "false", "n", "no"].contains s then some false
  else if ["1", "on", "t", "true", "y", "yes"].contains s then some true
  else none

def lowerAscii (s : String) : String := String.ofList (s.toList.map Char.toLower)

/-- Whether an integer has a signed representation of 64 bits. -/
def fitsWord (i : Int) : Bool := -Int.pow 2 63 ≤ i && i < Int.pow 2 63

/-- The integer a float is equal to, if there is one strictly between the bounds of 64 bits. -/
def wholeFloat? (x : Float) : Decoded Int :=
  if x.isNaN || x.isInf then .fail .infinite
  else if x.floor != x then .fail .fractionalInt
  else if -9223372036854775808.0 < x && x < 9223372036854775808.0 then .ok x.toInt64.toInt
  else .fail .longInt

def boolOfInt (i : Int) : Decoded Bool :=
  if i = 0 then .ok false else if i = 1 then .ok true else .fail .unclearBool

def word (read : String → Decoded α) (s : String) : Decoded α :=
  if Text.hasUnpaired s then .fail .notUnicode else read s

def bool : Json → Decoded Bool
  | .bool b => .ok b
  | .int i => if fitsWord i then boolOfInt i else .fail .notBool
  | .float x =>
    match wholeFloat? x with
    | .ok i => boolOfInt i
    | .rejected _ => .fail .notBool
  | .str s => s |> word fun s =>
    match boolWord? (lowerAscii s) with
    | some b => .ok b
    | none => .fail .unclearBool
  | _ => .fail .notBool

def int : Json → Decoded Int
  | .int i => .ok i
  | .bool b => .ok (if b then 1 else 0)
  | .float x => wholeFloat? x
  | .str s => s |> word fun s =>
    match Decimal.readInt s with
    | .int i => .ok i
    | .unclear => .fail .unclearInt
    | .long => .fail .longInt
  | _ => .fail .notInt

/-- An integer too large for a float is infinite if it was read from a text. -/
def float (src : Source) : Json → Decoded Float
  | .float x => .ok x
  | .int i =>
    match Decimal.ofInt? i, src with
    | some x, _ => .ok x
    | none, .text => .ok (Decimal.toFloat (decide (i < 0)) i.natAbs 0)
    | none, .value => .fail .notNumber
  | .bool b => .ok (if b then 1.0 else 0.0)
  | .str s => s |> word fun s =>
    match Decimal.readFloat? s with
    | some x => .ok x
    | none => .fail .unclearNumber
  | _ => .fail .notNumber

def nullable (read : Json → Decoded α) : Json → Decoded (Option α)
  | .null => .ok none
  | v => some <$> read v

def choice (spelling : α → String) (all : List α) (problem : List String → Problem) :
    Json → Decoded α
  | .str s => s |> word fun s =>
    match all.find? fun a => spelling a = s with
    | some a => .ok a
    | none => .fail (problem (all.map spelling))
  | _ => .fail (problem (all.map spelling))

def items (read : Json → Decoded α) : Nat → List Json → Decoded (List α)
  | _, [] => .ok []
  | i, v :: vs => List.cons <$> (read v).within (.index i) <*> items read (i + 1) vs

def list (src : Source) (read : Json → Decoded α) : Json → Decoded (List α)
  | .arr vs => items read 0 vs
  | _ => .fail (.notList src)

def record (src : Source) (name : String) (read : List (String × Json) → Decoded α) :
    Json → Decoded α
  | .obj members => read members
  | _ => .fail (.notRecord src name)

theorem items_ok (read : Json → Decoded α) (write : α → Json)
    (h : ∀ a, read (write a) = .ok a) (i : Nat) (xs : List α) :
    items read i (xs.map write) = .ok xs := by
  induction xs generalizing i with
  | nil => rfl
  | cons x xs ih => simp [items, h, ih]

end Decode

/-- A value that is no record of the named kind, with all that is wrong. -/
structure Rejection where
  record : String
  details : List Detail
  deriving DecidableEq, Repr

end SchemaDiagram
