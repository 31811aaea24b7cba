import SchemaDiagram.Json
import SchemaDiagram.Decimal.Layout
import SchemaDiagram.Text.Unpaired

/-!
Values as JSON text in ASCII: on one line without spaces, or with one item or member to a line and
two spaces of indentation.
-/

set_option autoImplicit false

namespace SchemaDiagram.Json

def hexDigits (width n : Nat) : List Char :=
  let ds := Nat.toDigits 16 n
  List.replicate (width - ds.length) '0' ++ ds

def escapeUnit (n : Nat) : List Char := '\\' :: 'u' :: hexDigits 4 n

/-- A character inside a string; what is not printable ASCII is written as its code units. -/
def escapeChar (c : Char) : List Char :=
  match c with
  | '"' => ['\\', '"']
  | '\\' => ['\\', '\\']
  | '\n' => ['\\', 'n']
  | '\r' => ['\\', 'r']
  | '\t' => ['\\', 't']
  | '\x08' => ['\\', 'b']
  | '\x0c' => ['\\', 'f']
  | c =>
    let n := (Text.unpaired? c).getD c.toNat
    if 0x20 ≤ n && n < 0x7F then [c]
    else if n < 0x10000 then escapeUnit n
    else
      let k := n - 0x10000
      escapeUnit (0xD800 + k / 0x400) ++ escapeUnit (0xDC00 + k % 0x400)

def quote (s : String) : List Char :=
  '"' :: (s.toList.flatMap escapeChar ++ ['"'])

inductive Spacing where
  | compact
  /-- One part to a line, at the given depth. -/
  | indented (depth : Nat)

def Spacing.deeper : Spacing → Spacing
  | .compact => .compact
  | .indented d => .indented (d + 1)

def Spacing.gap : Spacing → List Char
  | .compact => []
  | .indented d => '\n' :: List.replicate (2 * d) ' '

def Spacing.colon : Spacing → List Char
  | .compact => [':']
  | .indented _ => [':', ' ']

mutual

def write (sp : Spacing) : Json → List Char
  | .null => "null".toList
  | .bool true => "true".toList
  | .bool false => "false".toList
  | .int i => (toString i).toList
  | .float x => (Decimal.document.write x).toList
  | .str s => quote s
  | .arr [] => ['[', ']']
  | .arr (x :: xs) =>
    '[' :: (sp.deeper.gap ++ write sp.deeper x ++ writeItems sp.deeper xs ++ sp.gap ++ [']'])
  | .obj [] => ['\x7b', '\x7d']
  | .obj ((k, x) :: ms) =>
    '\x7b' :: (sp.deeper.gap ++ quote k ++ sp.colon ++ write sp.deeper x ++
      writeMembers sp.deeper ms ++ sp.gap ++ ['\x7d'])

def writeItems (sp : Spacing) : List Json → List Char
  | [] => []
  | x :: xs => ',' :: (sp.gap ++ write sp x ++ writeItems sp xs)

def writeMembers (sp : Spacing) : List (String × Json) → List Char
  | [] => []
  | (k, x) :: ms =>
    ',' :: (sp.gap ++ quote k ++ sp.colon ++ write sp x ++ writeMembers sp ms)

end

def compact (v : Json) : String := String.ofList (write .compact v)

def pretty (v : Json) : String := String.ofList (write (.indented 0) v)

end SchemaDiagram.Json
