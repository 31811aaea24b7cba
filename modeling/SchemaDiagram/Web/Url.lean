import SchemaDiagram.Decimal.Reader
import SchemaDiagram.Json.Display
import SchemaDiagram.Text.Digits
import SchemaDiagram.Web.Address
import SchemaDiagram.Web.HostName
import SchemaDiagram.Web.Percent

/-!
Addresses of requests. A target is appended to the path of a base; the result is written with its
scheme and host in lower case, without the port that its scheme implies, without dot parts in its
path, and with every part percent-encoded. A host may be a name in any script or an address in
numbers, which is checked.
-/

set_option autoImplicit false

namespace SchemaDiagram.Web

inductive UrlFault where
  | unprintable (c : Char) (index : Nat)
  | tooLong
  | longPart (name : String)
  | badPort (text : String)
  /-- A host that looks like four numbers is no such address. -/
  | badNumbers (host : String)
  /-- A host in square brackets is no address in groups. -/
  | badGroups (host : String)
  /-- A host is no internationalised name. -/
  | badName (host : String)
  /-- A path without scheme and host begins with a text that would make it something else. -/
  | badStart (text : String)
  /-- A part has a unit without its partner, which has no encoding. -/
  | unencodable
  deriving DecidableEq

namespace UrlFault

def message : UrlFault → String
  | unprintable c i =>
    "Invalid non-printable ASCII character in URL, " ++ Json.literalString (String.singleton c) ++
      " at position " ++ toString i ++ "."
  | tooLong => "URL too long"
  | longPart name => "URL component '" ++ name ++ "' too long"
  | badPort text => "Invalid port: " ++ Json.literalString text
  | badNumbers host => "Invalid IPv4 address: " ++ Json.literalString host
  | badGroups host => "Invalid IPv6 address: " ++ Json.literalString host
  | badName host => "Invalid IDNA hostname: " ++ Json.literalString host
  | badStart text => "Relative URLs cannot have a path starting with '" ++ text ++ "'"
  | unencodable => "a text that cannot be encoded"

end UrlFault

structure Target where
  path : String
  query : Option String := none
  deriving DecidableEq

structure Url where
  scheme : String := ""
  user : String := ""
  host : String := ""
  port : Option Int := none
  path : String := ""
  query : Option String := none
  fragment : Option String := none
  deriving DecidableEq

namespace Target

def toString (t : Target) : String :=
  match t.query with
  | none => t.path
  | some q => t.path ++ "?" ++ q

def ofString (s : String) : Target :=
  let path := s.toList.takeWhile (· ≠ '?')
  match s.toList.dropWhile (· ≠ '?') with
  | [] => ⟨String.ofList path, none⟩
  | _ :: query => ⟨String.ofList path, some (String.ofList query)⟩

def encode (t : Target) : Target :=
  ⟨Percent.encode Percent.inPath t.path, t.query.map (Percent.encode Percent.inQuery)⟩

end Target

namespace Url

def longest : Nat := 65536

def isControl (c : Char) : Bool := c < ' ' || c = '\x7f'

def check (s : String) : Except UrlFault Unit :=
  if longest < s.length then .error .tooLong
  else
    match s.toList.findIdx? isControl with
    | some i => .error (.unprintable (s.toList[i]?.getD ' ') i)
    | none => .ok ()

def checkEncodable (s : String) : Except UrlFault Unit :=
  if Text.hasUnpaired s then .error .unencodable else .ok ()

def splitFragment (s : String) : String × Option String :=
  let before := String.ofList (s.toList.takeWhile (· ≠ '#'))
  match s.toList.dropWhile (· ≠ '#') with
  | [] => (before, none)
  | _ :: fragment => (before, some (String.ofList fragment))

/-- Drops single dots from the parts of a path; a double dot drops the part before it. -/
def dropDots : List String → List String → List String
  | out, [] => out.reverse
  | out, "." :: rest => dropDots out rest
  | out, ".." :: rest => dropDots (if out = [] ∨ out = [""] then out else out.tail) rest
  | out, part :: rest => dropDots (part :: out) rest

def withoutDots (path : String) : String :=
  String.intercalate "/" (dropDots [] ((Address.split '/' path.toList).map String.ofList))

/-- The target of a request in encoded form; a fragment is not part of it. -/
def target (s : String) : Except UrlFault Target := do
  check s
  checkEncodable s
  return (Target.ofString (splitFragment s).1).encode

def isScheme : List Char → Bool
  | [] => true
  | c :: rest =>
    c.isAlpha && rest.all fun c => c.isAlphanum || c = '+' || c = '.' || c = '-'

def splitScheme (cs : List Char) : String × List Char :=
  match cs.dropWhile (· ≠ ':') with
  | [] => ("", cs)
  | _ :: rest =>
    let word := cs.takeWhile (· ≠ ':')
    if isScheme word then (String.ofList word, rest) else ("", cs)

/-- The user, the host and the port of an authority. A host in square brackets may hold colons and
    keeps its brackets. -/
def splitAuthority (cs : List Char) : List Char × List Char × List Char :=
  let tail := (cs.reverse.takeWhile (· ≠ '@')).reverse
  let user := (cs.take (cs.length - tail.length)).dropLast
  let (host, rest) :=
    if tail.head? = some '[' ∧ tail.contains ']' then
      let after := (tail.reverse.takeWhile (· ≠ ']')).reverse
      (tail.take (tail.length - after.length), after)
    else (tail.takeWhile (· ≠ ':'), tail.dropWhile (· ≠ ':'))
  (user, host, if rest.head? = some ':' then rest.drop 1 else rest)

def impliedPort (scheme : String) : Option Int :=
  if scheme = "http" ∨ scheme = "ws" then some 80
  else if scheme = "https" ∨ scheme = "wss" then some 443
  else if scheme = "ftp" then some 21
  else none

def readPort (scheme : String) (cs : List Char) : Except UrlFault (Option Int) :=
  if cs = [] then .ok none
  else
    match Text.integer? Decimal.maxDigits (String.ofList cs) with
    | some n => .ok (if impliedPort scheme = some n then none else some n)
    | none => .error (.badPort (String.ofList cs))

def lower (s : String) : String := s.map Char.toLower

/-- The written form of a host: an address in numbers as it stands, of one in brackets what is
    inside, a name in ASCII in small letters. -/
def readHost (cs : List Char) : Except UrlFault String :=
  let host := String.ofList cs
  if Address.looksNumeric cs then
    if Address.isV4 cs then .ok host else .error (.badNumbers host)
  else if cs.head? = some '[' ∧ cs.getLast? = some ']' then
    let inside := (cs.drop 1).dropLast
    if Address.isV6 inside then .ok (String.ofList inside) else .error (.badGroups host)
  else if cs.all (·.toNat < 128) then .ok (Percent.encode Percent.inHost (lower host))
  else
    match HostName.encode? host with
    | some name => .ok name
    | none => .error (.badName host)

structure Parts where
  scheme : String
  authority : List Char
  path : String
  query : Option String
  fragment : Option String

def Parts.ofString (s : String) : Parts :=
  let (scheme, cs) := splitScheme s.toList
  let (rest, fragment) := splitFragment (String.ofList cs)
  let (authority, cs) := match rest.toList with
    | '/' :: '/' :: cs =>
      (cs.takeWhile fun c => c ≠ '/' ∧ c ≠ '?', cs.dropWhile fun c => c ≠ '/' ∧ c ≠ '?')
    | cs => ([], cs)
  let t := Target.ofString (String.ofList cs)
  ⟨scheme, authority, t.path, t.query, fragment⟩

def isRooted (u : Url) : Bool :=
  u.scheme ≠ "" || u.user ≠ "" || u.host ≠ "" || u.port.isSome

/-- The written form of parts. Without scheme and host a path must not look as if it had one. -/
def ofParts (p : Parts) : Except UrlFault Url := do
  let (user, host, port) := splitAuthority p.authority
  let scheme := lower p.scheme
  checkEncodable (String.ofList user)
  let host ← readHost host
  let port ← readPort scheme port
  let u : Url :=
    { scheme := scheme, user := Percent.encode Percent.inUser (String.ofList user), host := host
      port := port, fragment := p.fragment.map (Percent.encode Percent.inFragment) }
  unless u.isRooted do
    if "//".toList.isPrefixOf p.path.toList then throw (.badStart "//")
    if ":".toList.isPrefixOf p.path.toList then throw (.badStart ":")
  let path := if u.isRooted then withoutDots p.path else p.path
  checkEncodable (path ++ p.query.getD "" ++ p.fragment.getD "")
  let t := Target.encode ⟨path, p.query⟩
  return { u with path := t.path, query := t.query }

def ofString (s : String) : Except UrlFault Url := do
  check s
  ofParts (Parts.ofString s)

def ownTarget (u : Url) : Target := ⟨if u.path = "" then "/" else u.path, u.query⟩

def authority (u : Url) : String :=
  (if u.user = "" then "" else u.user ++ "@") ++
  (if u.host.toList.contains ':' then "[" ++ u.host ++ "]" else u.host) ++
  (match u.port with
    | none => ""
    | some n => ":" ++ ToString.toString n)

/-- The address with another target. The result is read anew from its parts, none of which may be
    too long. -/
def withTarget (u : Url) (t : Target) : Except UrlFault Url := do
  let long (name text : String) : Except UrlFault Unit :=
    if longest < text.length then .error (.longPart name) else .ok ()
  long "authority" u.authority
  long "path" t.path
  long "query" (t.query.getD "")
  long "fragment" (u.fragment.getD "")
  ofParts ⟨u.scheme, u.authority.toList, t.path, t.query, u.fragment⟩

def asBase (u : Url) : Except UrlFault Url :=
  let t := u.ownTarget.toString
  if t.toList.getLast? = some '/' then .ok u else u.withTarget (.ofString (t ++ "/"))

def append (u : Url) (t : Target) : Except UrlFault Url :=
  let more := String.ofList (t.toString.toList.dropWhile (· = '/'))
  u.withTarget (.ofString (u.ownTarget.toString ++ more))

def toString (u : Url) : String :=
  (if u.scheme = "" then "" else u.scheme ++ ":") ++
  (if u.authority = "" then "" else "//" ++ u.authority) ++
  Target.toString ⟨u.path, u.query⟩ ++
  (match u.fragment with
    | none => ""
    | some f => "#" ++ f)

def credentials (u : Url) : String × String :=
  let name := u.user.toList.takeWhile (· ≠ ':')
  let password := (u.user.toList.dropWhile (· ≠ ':')).drop 1
  (Percent.decode (String.ofList name), Percent.decode (String.ofList password))

def hasKind (u : Url) : Bool :=
  let word := u.toString.toList.takeWhile fun c => c ≠ ':' ∧ c ≠ '/'
  word ≠ [] && (u.toString.toList.drop word.length).head? = some ':'

end Url

end SchemaDiagram.Web
