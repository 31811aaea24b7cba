/-!
Blank characters of two kinds. Names are blank when they hold nothing but separators, the four
information separators of ASCII included; numerals are trimmed of the characters with the
`White_Space` property, which leaves those four out.
-/

set_option autoImplicit false

namespace SchemaDiagram.Text

def isSpace (c : Char) : Bool :=
  let n := c.toNat
  (9 ≤ n && n ≤ 13) || n == 0x20 || n == 0x85 || n == 0xA0 || n == 0x1680 ||
    (0x2000 ≤ n && n ≤ 0x200A) || n == 0x2028 || n == 0x2029 || n == 0x202F || n == 0x205F ||
    n == 0x3000

def isBlankChar (c : Char) : Bool :=
  isSpace c || (0x1C ≤ c.toNat && c.toNat ≤ 0x1F)

def trimBy (p : Char → Bool) (cs : List Char) : List Char :=
  ((cs.dropWhile p).reverse.dropWhile p).reverse

def isBlank (s : String) : Bool :=
  s.toList.all isBlankChar

def strip (s : String) : String :=
  String.ofList (trimBy isBlankChar s.toList)

end SchemaDiagram.Text
