import SchemaDiagram.Json
import SchemaDiagram.Decimal.Layout
import SchemaDiagram.Json.Printer
import SchemaDiagram.Text.Visible

/-!
Values inside messages. A string stands as it is; any other value, and a string inside a list or
an object, is written as a literal: constants are capitalised, strings stand in single quotes
unless they hold one and no double quote, and what cannot be seen is escaped.
-/

set_option autoImplicit false

namespace SchemaDiagram.Json

/-- A character by its code in a literal, with as many digits as it takes; a surrogate that stands
    alone is written as itself. -/
def escapeCode (c : Char) : List Char :=
  let n := (Text.unpaired? c).getD c.toNat
  if n < 0x100 then '\\' :: 'x' :: hexDigits 2 n
  else if n < 0x10000 then '\\' :: 'u' :: hexDigits 4 n
  else '\\' :: 'U' :: hexDigits 8 n

def literalChar (mark c : Char) : List Char :=
  if c = mark ∨ c = '\\' then ['\\', c]
  else if c = '\n' then ['\\', 'n']
  else if c = '\r' then ['\\', 'r']
  else if c = '\t' then ['\\', 't']
  else if Text.isVisible c then [c]
  else escapeCode c

def literalString (s : String) : String :=
  let cs := s.toList
  let mark := if cs.contains '\'' && !cs.contains '"' then '"' else '\''
  String.ofList (mark :: (cs.flatMap (literalChar mark) ++ [mark]))

mutual

def literal : Json → String
  | .null => "None"
  | .bool true => "True"
  | .bool false => "False"
  | .int i => toString i
  | .float x => Decimal.plain.write x
  | .str s => literalString s
  | .arr items => "[" ++ String.intercalate ", " (literalItems items) ++ "]"
  | .obj members => "\x7b" ++ String.intercalate ", " (literalMembers members) ++ "\x7d"

def literalItems : List Json → List String
  | [] => []
  | x :: xs => literal x :: literalItems xs

def literalMembers : List (String × Json) → List String
  | [] => []
  | (k, x) :: ms => (literalString k ++ ": " ++ literal x) :: literalMembers ms

end

def display : Json → String
  | .str s => s
  | v => literal v

def kindName : Json → String
  | .null => "NoneType"
  | .bool _ => "bool"
  | .int _ => "int"
  | .float _ => "float"
  | .str _ => "str"
  | .arr _ => "list"
  | .obj _ => "dict"

end SchemaDiagram.Json
