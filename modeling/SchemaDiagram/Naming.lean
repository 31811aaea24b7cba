import SchemaDiagram.Fault
import SchemaDiagram.Text.Digits

/-!
Fresh ids and names. A fresh id is numbered one past the highest number in use; a fresh name is the
first one free from a starting number on.
-/

set_option autoImplicit false

namespace SchemaDiagram.Naming

open Text (isDigit digitValue? numeral?)

/-- The number a suffix denotes. A suffix of digits that are not all decimal denotes none, and a
    run of decimal digits may only be so long. -/
def number (suffix : String) : Result Nat :=
  let cs := suffix.toList
  let run := cs.takeWhile fun c => (digitValue? c).isSome
  if Decimal.maxDigits < run.length then .error (.longNumeral run.length)
  else
    match numeral? cs with
    | some n => .ok n
    | none => .error (.noNumeral suffix)

def suffix? (stem id : String) : Option String :=
  if stem.toList.isPrefixOf id.toList then some (String.ofList (id.toList.drop stem.length)) else none

def numbers (stem : String) : List String → Result (List Nat)
  | [] => .ok []
  | id :: rest =>
    match suffix? stem id with
    | some s =>
      if s ≠ "" ∧ s.toList.all isDigit then do
        let n ← number s
        let ns ← numbers stem rest
        return n :: ns
      else numbers stem rest
    | none => numbers stem rest

def numbered (stem : String) (n : Nat) : Result String :=
  if n < Nat.pow 10 Decimal.maxDigits then .ok (stem ++ toString n) else .error .longNumber

def nextNumbered (stem : String) (ids : List String) : Result String := do
  let ns ← numbers stem ids
  numbered stem (ns.foldl max 0 + 1)

def firstFree (taken : List String) (stem : String) : Nat → Nat → String
  | 0, n => stem ++ toString n
  | fuel + 1, n =>
    let name := stem ++ toString n
    if name ∈ taken then firstFree taken stem fuel (n + 1) else name

/-- The first name free from a number on; one candidate more than there are names suffices. -/
def nextFree (taken : List String) (stem : String) (start : Nat) : String :=
  firstFree taken stem taken.length start

def nextTableId (nodes : List Node) : Result String :=
  nextNumbered "table_" (nodes.map Node.id)

def nextRelationshipId (edges : List Edge) : Result String :=
  nextNumbered "rel_" (edges.map Edge.id)

/-- The labels that are names. A list or an object among the labels cannot be told from a name. -/
def labelNames : List Node → Result (List String)
  | [] => .ok []
  | n :: rest =>
    match n.data.label with
    | .text s => (s :: ·) <$> labelNames rest
    | .malformed v =>
      match v with
      | .arr _ | .obj _ => .error (.unhashable v.kindName)
      | _ => labelNames rest

/-- The first free table name, counted from one past the number of nodes. -/
def nextTableName (nodes : List Node) : Result String := do
  let taken ← labelNames nodes
  return nextFree taken "new_table_" (nodes.length + 1)

def nextColumnName (columns : List NodeColumn) : String :=
  nextFree (columns.map NodeColumn.title) "column_" (columns.length + 1)

end SchemaDiagram.Naming
