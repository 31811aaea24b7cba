import SchemaDiagram.Diagram
import SchemaDiagram.Json.Parser
import SchemaDiagram.Json.Display
import SchemaDiagram.Web.Url

/-!
What can go wrong, by cause. The wording of every cause is in one function.
-/

set_option autoImplicit false

namespace SchemaDiagram

inductive FileFault where
  | missing
  | isDirectory
  | notDirectory
  | exists
  | longName
  /-- The character that ends texts for the system stands in a path. -/
  | nulCharacter
  /-- A path is no text for the system. -/
  | unencodable
  deriving DecidableEq, Repr

namespace FileFault

def message : FileFault → String
  | missing => "No such file or directory"
  | isDirectory => "Is a directory"
  | notDirectory => "Not a directory"
  | «exists» => "File exists"
  | longName => "File name too long"
  | nulCharacter => "embedded null byte"
  | unencodable => "not a text of the system"

end FileFault

/-- What a text is needed for. -/
inductive TextUse where
  | path
  | variable
  | format
  /-- A part of a longer text. -/
  | part
  deriving DecidableEq, Repr

inductive Fault where
  /-- A value is no record of its kind. -/
  | invalid (r : Rejection)
  /-- An edit names a table that is not in the diagram. -/
  | noTable (id : Json)
  /-- An edit names a column that its table does not have. -/
  | noColumn (title : Json) (label : Label)
  /-- An edit names an edge that is not in the diagram. -/
  | noRelationship (id : Json)
  /-- A relationship names a table that is not in the schema. -/
  | danglingRelationship (id fromTable toTable : String)
  /-- An edge names a node that is not in the diagram. -/
  | danglingEdge (id source target : String)
  /-- An edge's label is no cardinality. -/
  | unknownLabel (id label : String)
  /-- The backend could not be reached or refused. Both parts are what the backend sent. -/
  | persistence (message status : Json)
  | notCardinality (v : Json)
  | notStatus (v : Json)
  /-- A numeral has a digit without place value. -/
  | noNumeral (text : String)
  /-- A numeral is longer than the limit. -/
  | longNumeral (digits : Nat)
  /-- A number has more digits than may be written. -/
  | longNumber
  | zeroGridWidth
  /-- A place in the grid is out of the range of coordinates. -/
  | hugeIndex
  /-- A value that is no object was asked for a member function. -/
  | noMember (kind member : String)
  | notIterable (kind : String)
  /-- A value of another kind stands where a text is needed. -/
  | notText (use : TextUse) (kind : String)
  /-- A label that cannot be looked up among names. -/
  | unhashable (kind : String)
  | unknownSyncFields (names : List String)
  | negativeHistory
  /-- The size of a history is out of the range of integers. -/
  | hugeHistory
  /-- The size of a history is no integer. -/
  | unknownHistory
  /-- A handler failed. -/
  | handler (message : String)
  /-- A number without numeral stands in a request. -/
  | unwritableNumber
  /-- A request is addressed to a text that is no address. -/
  | badUrl (f : Web.UrlFault)
  /-- A reply came from an address that does not say what kind it is of. -/
  | unknownUrlKind (url : String)
  /-- A header holds a character that is not ASCII. -/
  | unwritableHeader
  | unknownLevel (name : String)
  /-- The name of a format was given as the name of a level. -/
  | levelIsFormat (format : String)
  /-- The name of the table of styles was given as the name of a level. -/
  | levelIsTable (shown : String)
  | unknownFormat (format : String)
  /-- A name that no variable of the environment can have. -/
  | illegalVariable
  /-- A variable without a name. -/
  | namelessVariable
  | noFile (what path : String)
  | emptyFile (what path : String)
  /-- A file does not hold what it should. -/
  | unreadable (what path : String) (cause : Fault)
  | badJson
  /-- An array or an object of a document stands too deep. -/
  | deepDocument (inObject : Bool)
  | badEncoding
  | file (f : FileFault)
  deriving DecidableEq

namespace Fault

/-- The text of a fault. A rejection and a fault of syntax or encoding have none of their own, and
    the message of the backend may be any value. -/
def message : Fault → Json
  | invalid _ | badJson | badEncoding | unwritableHeader | badUrl .unencodable
  | file .unencodable => .null
  | noTable id => .str ("Table " ++ id.display ++ " not found")
  | noColumn c label =>
    .str ("Column " ++ c.display ++ " not found in table " ++ label.toJson.display)
  | noRelationship id => .str ("Relationship " ++ id.display ++ " not found")
  | danglingRelationship id a b =>
    .str ("Relationship " ++ id ++ " has invalid table names: " ++ a ++ " or " ++ b)
  | danglingEdge id a b =>
    .str ("Edge " ++ id ++ " references invalid nodes: " ++ a ++ " or " ++ b)
  | unknownLabel id label =>
    .str ("Edge " ++ id ++ " has unknown relationship type: " ++ label)
  | persistence m _ => m
  | notCardinality v => .str (v.literal ++ " is not a valid RelationshipType")
  | notStatus v => .str (v.literal ++ " is not a valid EditStatus")
  | noNumeral t =>
    let shown := String.ofList ((Json.literalString t).toList.take 200)
    .str ("invalid literal for int() with base 10: " ++ shown)
  | longNumeral n =>
    .str ("Exceeds the limit (4300 digits) for integer string conversion: value has " ++
      toString n ++ " digits; use sys.set_int_max_str_digits() to increase the limit")
  | longNumber =>
    .str ("Exceeds the limit (4300 digits) for integer string conversion; " ++
      "use sys.set_int_max_str_digits() to increase the limit")
  | zeroGridWidth => .str "integer modulo by zero"
  | hugeIndex => .str "int too large to convert to float"
  | noMember kind member =>
    .str ("'" ++ kind ++ "' object has no attribute '" ++ member ++ "'")
  | notIterable kind => .str ("'" ++ kind ++ "' object is not iterable")
  | notText .path kind => .str ("expected str, bytes or os.PathLike object, not " ++ kind)
  | notText .variable kind => .str ("str expected, not " ++ kind)
  | notText .format kind =>
    .str ("expected string or bytes-like object, got '" ++ kind ++ "'")
  | notText .part kind => .str ("can only concatenate str (not \"" ++ kind ++ "\") to str")
  | unhashable kind => .str ("unhashable type: '" ++ kind ++ "'")
  | unknownSyncFields names =>
    .str ("Unknown sync fields: " ++ String.intercalate ", " names)
  | negativeHistory => .str "maxlen must be non-negative"
  | hugeHistory => .str "Python int too large to convert to C ssize_t"
  | unknownHistory => .str "an integer is required"
  | handler m => .str m
  | unwritableNumber => .str "Out of range float values are not JSON compliant"
  | badUrl f => .str f.message
  | unknownUrlKind url => .str ("unknown url type: " ++ Json.literalString url)
  | unknownLevel name => .str ("module 'logging' has no attribute '" ++ name ++ "'")
  | levelIsFormat f => .str ("Unknown level: " ++ Json.literalString f)
  | levelIsTable t => .str ("Level not an integer or a valid string: " ++ t)
  | unknownFormat f => .str ("Invalid format '" ++ f ++ "' for '%' style")
  | illegalVariable => .str "illegal environment variable name"
  | namelessVariable => .str "Invalid argument"
  | noFile what path => .str (what ++ " file not found: " ++ path)
  | emptyFile what path => .str (what ++ " file is empty: " ++ path)
  | unreadable what path cause =>
    let why := match message cause with
      | .str s => s
      | _ => ""
    .str ("Failed to load " ++ what ++ " from " ++ path ++ ": " ++ why)
  | deepDocument inObject =>
    .str ("maximum recursion depth exceeded while decoding a JSON " ++
      (if inObject then "object" else "array") ++ " from a unicode string")
  | file f => .str f.message

def text (f : Fault) : String := f.message.display

def line : Fault → String
  | invalid r => "not a valid " ++ r.record
  | unreadable what path cause =>
    (unreadable what path cause).text ++ (match cause.message with
      | .null => cause.line
      | _ => "")
  | badJson => "not a JSON document"
  | badEncoding => "not UTF-8 text"
  | unwritableHeader => "a header that is not ASCII"
  | badUrl f => f.message
  | file f => f.message
  | f => f.text

end Fault

abbrev Result (α : Type) := Except Fault α

def Cardinality.ofJson (v : Json) : Result Cardinality :=
  match v with
  | .str s =>
    match ofText? s with
    | some c => .ok c
    | none => .error (.notCardinality v)
  | v => .error (.notCardinality v)

def Record.validated {α : Type} [Record α] (src : Source) (v : Json) : Result α :=
  match Record.validate src v with
  | .ok a => .ok a
  | .error r => .error (.invalid r)

end SchemaDiagram
