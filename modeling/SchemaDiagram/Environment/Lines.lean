import SchemaDiagram.Json
import SchemaDiagram.Text.Blank

/-!
Files of environment variables. A line gives a name and a value, which may stand in quotes and then
span lines; a value may refer to other variables. Lines that are neither that nor comments are
passed over.
-/

set_option autoImplicit false

namespace SchemaDiagram.Environment

open Text (isBlankChar trimBy)

structure Binding where
  name : String
  value : Option String
  deriving DecidableEq

def isInlineBlank (c : Char) : Bool := isBlankChar c && c != '\n'

def skipInline (cs : List Char) : List Char := cs.dropWhile isInlineBlank

def nextLine (cs : List Char) : List Char := (cs.dropWhile (· ≠ '\n')).drop 1

def dropExport (cs : List Char) : List Char :=
  let rest := cs.drop 6
  if "export".toList.isPrefixOf cs && (rest.head?.map isInlineBlank).getD false then skipInline rest
  else cs

/-- The characters of a quoted value up to its closing quote, and what follows. A character behind a
    backslash does not close. -/
def quoted (mark : Char) : List Char → List Char → Option (List Char × List Char)
  | _, [] => none
  | acc, [c] => if c = mark then some (acc.reverse, []) else none
  | acc, c :: d :: rest =>
    if c = mark then some (acc.reverse, d :: rest)
    else if c = '\\' then quoted mark (d :: c :: acc) rest
    else quoted mark (c :: acc) (d :: rest)

def doubleEscape? : Char → Option Char
  | '\\' => some '\\'
  | '\'' => some '\''
  | '"' => some '"'
  | 'a' => some '\x07'
  | 'b' => some '\x08'
  | 'f' => some '\x0c'
  | 'n' => some '\n'
  | 'r' => some '\r'
  | 't' => some '\t'
  | 'v' => some '\x0b'
  | _ => none

def singleEscape? : Char → Option Char
  | '\\' => some '\\'
  | '\'' => some '\''
  | _ => none

def unescape (escape? : Char → Option Char) : List Char → List Char
  | [] => []
  | [c] => [c]
  | c :: d :: rest =>
    if c = '\\' then
      match escape? d with
      | some x => x :: unescape escape? rest
      | none => c :: unescape escape? (d :: rest)
    else c :: unescape escape? (d :: rest)

def cutComment : List Char → List Char
  | [] => []
  | [c] => [c]
  | c :: d :: rest => if isBlankChar c && d = '#' then [] else c :: cutComment (d :: rest)

/-- The value behind an equals sign, and what follows it; none if a quote is not closed. -/
def readValue (cs : List Char) : Option (String × List Char) :=
  match skipInline cs with
  | '\'' :: rest =>
    (quoted '\'' [] rest).map fun (v, rest) => (String.ofList (unescape singleEscape? v), rest)
  | '"' :: rest =>
    (quoted '"' [] rest).map fun (v, rest) => (String.ofList (unescape doubleEscape? v), rest)
  | _ =>
    let v := trimBy isBlankChar (cutComment (cs.takeWhile (· ≠ '\n')))
    some (String.ofList v, cs.dropWhile (· ≠ '\n'))

def readName (cs : List Char) : Option (Option String × List Char) :=
  match cs with
  | '#' :: _ => some (none, cs)
  | '\'' :: rest =>
    match rest.takeWhile (· ≠ '\''), rest.dropWhile (· ≠ '\'') with
    | c :: name, _ :: rest => some (some (String.ofList (c :: name)), rest)
    | _, _ => none
  | cs =>
    let ends (c : Char) : Bool := c = '=' || c = '#' || isBlankChar c
    match cs.takeWhile (fun c => !ends c) with
    | [] => none
    | name => some (some (String.ofList name), cs.dropWhile fun c => !ends c)

/-- What follows the end of a line on which nothing more stands but a comment. -/
def endLine? (cs : List Char) : Option (List Char) :=
  let cs := match skipInline cs with
    | '#' :: rest => rest.dropWhile (· ≠ '\n')
    | _ => cs
  match skipInline cs with
  | [] => some []
  | '\n' :: rest => some rest
  | _ => none

def readLine (cs : List Char) : Option Binding × List Char :=
  let cs := cs.dropWhile isBlankChar
  if cs = [] then (none, [])
  else
    let cs := dropExport cs
    match readName cs with
    | none => (none, nextLine cs)
    | some (name, cs) =>
      let cs := skipInline cs
      let value? := match cs with
        | '=' :: rest => (readValue rest).map fun (v, rest) => (some v, rest)
        | cs => some (none, cs)
      match value? with
      | none => (none, nextLine cs)
      | some (value, cs) =>
        match endLine? cs with
        | none => (none, nextLine cs)
        | some rest => (name.map fun n => ⟨n, value⟩, rest)

def readLines : Nat → List Char → List Binding
  | 0, _ => []
  | _ + 1, [] => []
  | fuel + 1, cs =>
    let (b, rest) := readLine cs
    b.toList ++ readLines fuel rest

def bindings (text : String) : List Binding :=
  readLines (text.length + 1) (match text.toList with
    | '\uFEFF' :: rest => rest
    | cs => cs)

def reference? (cs : List Char) : Option (String × String × List Char) :=
  let name := String.ofList (cs.takeWhile fun c => c ≠ '\x7d' ∧ c ≠ ':')
  match cs.dropWhile fun c => c ≠ '\x7d' ∧ c ≠ ':' with
  | '\x7d' :: rest => some (name, "", rest)
  | ':' :: '-' :: rest =>
    match rest.dropWhile (· ≠ '\x7d') with
    | _ :: after => some (name, String.ofList (rest.takeWhile (· ≠ '\x7d')), after)
    | [] => none
  | _ => none

/-- Puts values in the places of references. The fuel bounds the characters. -/
def expandChars (value? : String → Option String) : Nat → List Char → List Char
  | 0, cs => cs
  | _ + 1, [] => []
  | fuel + 1, '$' :: '\x7b' :: rest =>
    match reference? rest with
    | some (name, default, rest) =>
      ((value? name).getD default).toList ++ expandChars value? fuel rest
    | none => '$' :: expandChars value? fuel ('\x7b' :: rest)
  | fuel + 1, c :: rest => c :: expandChars value? fuel rest

def expand (value? : String → Option String) (s : String) : String :=
  String.ofList (expandChars value? (s.length + 1) s.toList)

end SchemaDiagram.Environment
