import SchemaDiagram.Json.Parser
import SchemaDiagram.Json.Printer
import SchemaDiagram.Text.Encoding

/-!
Percent encoding. A character outside a class of safe ones is written byte by byte, each byte as a
percent sign and two hexadecimal digits. The percent sign is safe everywhere, so what is encoded
already stays as it is, and so does a percent sign that stands alone.
-/

set_option autoImplicit false

namespace SchemaDiagram.Web.Percent

def byte (b : UInt8) : List Char := '%' :: (Json.hexDigits 2 b.toNat).map Char.toUpper

def encodeChar (safe : Char → Bool) (c : Char) : List Char :=
  if safe c then [c] else (String.utf8EncodeChar c).flatMap byte

def encode (safe : Char → Bool) (s : String) : String :=
  String.ofList (s.toList.flatMap (encodeChar safe))

def printableBut (excluded : String) (c : Char) : Bool :=
  ' ' < c && c ≤ '~' && !excluded.toList.contains c

def inFragment : Char → Bool := printableBut "\"<>`"

def inQuery : Char → Bool := printableBut "\"#<>"

def inPath : Char → Bool := printableBut "\"#<>?`\x7b\x7d"

def inUser : Char → Bool := printableBut "\"#<>?`\x7b\x7d/;=@[\\]^|"

def inHost (c : Char) : Bool :=
  c.isAlphanum || "-._~!$&'()*+,;=\"`\x7b\x7d%|\\".toList.contains c

/-- The bytes of a text whose encoded bytes are given back; a percent sign without two digits stands
    for itself. -/
def bytes : List Char → List UInt8
  | [] => []
  | [c] => String.utf8EncodeChar c
  | [c, d] => String.utf8EncodeChar c ++ String.utf8EncodeChar d
  | c :: d :: e :: rest =>
    match c, Json.hexValue? d, Json.hexValue? e with
    | '%', some high, some low => UInt8.ofNat (high * 16 + low) :: bytes rest
    | c, _, _ => String.utf8EncodeChar c ++ bytes (d :: e :: rest)

def decode (s : String) : String := String.ofList (Text.decodeUtf8 none (bytes s.toList))

end SchemaDiagram.Web.Percent
