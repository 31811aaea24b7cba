import SchemaDiagram.Schema

/-!
Diagrams: nodes with positions, one for each table, and edges between them, one for each
relationship. An edge names its nodes by id and its columns by handles; the handle at the source end
carries a mark behind the column's name.
-/

set_option autoImplicit false

namespace SchemaDiagram

structure NodeColumn where
  title : String := ""
  type : String := ""
  primaryKey : Option Bool := none
  foreignKey : Option ForeignKey := none
  nullable : Option Bool := none
  unique : Option Bool := none
  defaultValue : Option DefaultValue := none
  autoIncrement : Option Bool := none
  deriving DecidableEq

/-- What a node is headed with. Reading a node gives a text; renaming a table puts there whatever
    the new name is, and reduction refuses what is no text. -/
inductive Label where
  | text (s : String)
  | malformed (v : Json)
  deriving DecidableEq

structure NodeData where
  label : Label := .text ""
  comment : Option String := none
  columns : List NodeColumn := []
  deriving DecidableEq

def tableNodeType : String := "databaseSchema"

def defaultEdgeType : String := "default"

structure Node where
  id : String
  type : String := tableNodeType
  position : Position := {}
  data : NodeData := {}
  deriving DecidableEq

structure Edge where
  id : String
  source : String := ""
  target : String := ""
  sourceHandle : Option String := none
  targetHandle : Option String := none
  type : String := defaultEdgeType
  label : Option String := none
  deriving DecidableEq

structure Diagram where
  nodes : List Node := []
  edges : List Edge := []
  deriving DecidableEq, Inhabited

namespace Label

def ofName : Json → Label
  | .str s => text s
  | v => malformed v

def toJson : Label → Json
  | text s => .str s
  | malformed v => v

end Label

namespace Handle

def sourceMark : String := "-source"

def ofColumn (column : String) : String := column ++ sourceMark

/-- The column of a handle at the source end; a handle without the mark is the name itself, and a
    missing one stands for the empty name. -/
def column (handle : Option String) : String :=
  let cs := (handle.getD "").toList
  let mark := sourceMark.toList
  if mark.isSuffixOf cs then String.ofList (cs.take (cs.length - mark.length))
  else String.ofList cs

theorem column_ofColumn (name : String) : column (some (ofColumn name)) = name := by
  have h : sourceMark.toList.isSuffixOf (name.toList ++ sourceMark.toList) = true := by simp
  simp only [column, ofColumn, Option.getD_some, String.toList_append, if_pos h,
    List.length_append, Nat.add_sub_cancel, List.take_left', String.ofList_toList]

end Handle

end SchemaDiagram
