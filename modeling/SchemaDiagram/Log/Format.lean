import SchemaDiagram.Decimal.Places
import SchemaDiagram.Decimal.Reader
import SchemaDiagram.Json.Display
import SchemaDiagram.Text.Digits
import SchemaDiagram.Text.Word

/-!
Formats of log lines. A format is text with fields: a percent sign, a name in parentheses, flags, a
width, a precision and a letter that says how the value is written. Two percent signs stand for one.
A format is checked before it is used, but the check is less strict than the use: a line that a
format does not suit has no text.
-/

set_option autoImplicit false

namespace SchemaDiagram.LogFormat

open Text (digitValue? isWordChar)

def isFlag (c : Char) : Bool := "#0+ -".toList.contains c

/-- A letter of a field in either case; three letters of other alphabets are forms of such ones. -/
def isKind (c : Char) : Bool := "diouxefgcrsa%ſıİ".toList.contains c.toLower

def isDecimal (c : Char) : Bool := (digitValue? c).isSome

def dropSize : List Char → List Char
  | '*' :: rest => rest
  | cs => cs.dropWhile isDecimal

def beginsField : List Char → Bool
  | '(' :: rest =>
    match rest.takeWhile isWordChar, rest.dropWhile isWordChar with
    | _ :: _, ')' :: rest =>
      let rest := dropSize (rest.dropWhile isFlag)
      let rest := match rest with
        | '.' :: digits => if dropSize digits = digits then rest else dropSize digits
        | rest => rest
      match rest with
      | c :: _ => isKind c
      | [] => false
    | _, _ => false
  | _ => false

def hasField : List Char → Bool
  | [] => false
  | '%' :: rest => beginsField rest || hasField rest
  | _ :: rest => hasField rest

def isValid (format : String) : Bool := hasField format.toList

inductive Value where
  | json (v : Json)
  /-- The arguments of a line, of which there are none. -/
  | noArguments
  deriving DecidableEq

namespace Value

def display : Value → String
  | json v => v.display
  | noArguments => "()"

def literal : Value → String
  | json v => v.literal
  | noArguments => "()"

/-- A value as an integer; the fraction of a float is cut off. -/
def whole? : Value → Option Int
  | json (.int i) => some i
  | json (.bool b) => some (if b then 1 else 0)
  | json (.float x) =>
    if x.isNaN || x.isInf then none
    else
      let (n, d) := (Decimal.Binary.ofBits (x.toBits.toNat % Nat.pow 2 63)).fraction
      some (if x < 0 then -(n / d : Nat) else (n / d : Nat))
  | _ => none

def int? : Value → Option Int
  | json (.float _) => none
  | v => whole? v

def float? : Value → Option Float
  | json (.float x) => some x
  | v => v.int?.bind Decimal.ofInt?

def char? : Value → Option Char
  | json (.str s) =>
    match s.toList with
    | [c] => some c
    | _ => none
  | v => v.int?.bind fun i =>
    if i < 0 ∨ 0x110000 ≤ i then none
    else if Text.isHighUnit i.toNat || Text.isLowUnit i.toNat then some (Text.ofUnpaired i.toNat)
    else some (Char.ofNat i.toNat)

end Value

structure Field where
  kind : Char
  flags : List Char := []
  width : Nat := 0
  precision : Option Nat := none

namespace Field

def has (f : Field) (flag : Char) : Bool := f.flags.contains flag

def sign (f : Field) (negative : Bool) : List Char :=
  if negative then ['-'] else if f.has '+' then ['+'] else if f.has ' ' then [' '] else []

def pad (f : Field) (cs : List Char) : List Char :=
  let fill := List.replicate (f.width - cs.length) ' '
  if f.has '-' then cs ++ fill else fill ++ cs

def padNumber (f : Field) (lead digits : List Char) : List Char :=
  if f.has '0' ∧ ¬ f.has '-' then
    lead ++ List.replicate (f.width - lead.length - digits.length) '0' ++ digits
  else f.pad (lead ++ digits)

def writeText (f : Field) (s : String) : List Char :=
  f.pad (match f.precision with
    | some n => s.toList.take n
    | none => s.toList)

def writeInt (f : Field) (base : Nat) (mark : List Char) (i : Int) : List Char :=
  let digits := Nat.toDigits base i.natAbs
  let digits := List.replicate (f.precision.getD 0 - digits.length) '0' ++ digits
  f.padNumber (f.sign (decide (i < 0)) ++ if f.has '#' then mark else []) digits

def writeFloat (f : Field) (kind : Char) (x : Float) : List Char :=
  let bits := x.toBits.toNat
  let places := f.precision.getD 6
  if x.isNaN then f.padNumber (f.sign false) "nan".toList
  else
    let lead := f.sign (bits / Nat.pow 2 63 = 1)
    if x.isInf then f.padNumber lead "inf".toList
    else
      let value := (Decimal.Binary.ofBits (bits % Nat.pow 2 63)).fraction
      let write := if kind = 'f' then Decimal.fixed else if kind = 'e' then Decimal.exponential
        else Decimal.general
      f.padNumber lead (write (f.has '#') places value)

def asciiChar (c : Char) : List Char := if c.toNat < 128 then [c] else Json.escapeCode c

def write? (f : Field) (v : Value) : Option (List Char) :=
  match f.kind with
  | 's' => some (f.writeText v.display)
  | 'r' => some (f.writeText v.literal)
  | 'a' => some (f.writeText (String.ofList (v.literal.toList.flatMap asciiChar)))
  | 'c' => v.char?.map fun c => f.pad [c]
  | 'd' | 'i' | 'u' => v.whole?.bind fun i =>
    if i.natAbs < Nat.pow 10 Decimal.maxDigits then some (f.writeInt 10 [] i) else none
  | 'o' => v.int?.map (f.writeInt 8 ['0', 'o'])
  | 'x' => v.int?.map (f.writeInt 16 ['0', 'x'])
  | 'X' => v.int?.map fun i => (f.writeInt 16 ['0', 'x'] i).map Char.toUpper
  | 'e' | 'f' | 'g' => v.float?.map (f.writeFloat f.kind)
  | 'E' | 'F' | 'G' => v.float?.map fun x => (f.writeFloat f.kind.toLower x).map Char.toUpper
  | _ => none

end Field

/-- The name of a field, which may hold parentheses in pairs, and what follows its closing one. -/
def readName? : Nat → List Char → List Char → Option (String × List Char)
  | _, _, [] => none
  | open_, acc, c :: rest =>
    if c = ')' then
      match open_ with
      | 0 => some (String.ofList acc.reverse, rest)
      | open_ + 1 => readName? open_ (c :: acc) rest
    else readName? (if c = '(' then open_ + 1 else open_) (c :: acc) rest

def mostPrecision : Nat := 2147483647

def mostWidth : Nat := 1000000000

/-- A width or a precision. A star would take an argument in its place, and a line has none. -/
def readSize : List Char → Option (Option Nat × List Char)
  | '*' :: _ => none
  | cs =>
    match cs.takeWhile Char.isDigit with
    | [] => some (none, cs)
    | digits => some (some (Decimal.ofDigits digits), cs.dropWhile Char.isDigit)

/-- Drops one of the letters that mark a length and mean nothing. -/
def dropLength : List Char → List Char
  | c :: rest => if c = 'h' ∨ c = 'l' ∨ c = 'L' then rest else c :: rest
  | [] => []

def readField? (cs : List Char) : Option (Field × List Char) := do
  let (width, rest) ← readSize (cs.dropWhile isFlag)
  let (precision, rest) ← match rest with
    | '.' :: more => do
      let (n, after) ← readSize more
      pure (some (n.getD 0), after)
    | rest => pure (none, rest)
  let width := width.getD 0
  if mostWidth < width ∨ mostPrecision < precision.getD 0 then none
  else
    match dropLength rest with
    | kind :: rest => return (⟨kind, cs.takeWhile isFlag, width, precision⟩, rest)
    | [] => none

/-- The text of a format for a line whose fields have values. There is none if a field has no name or
    an unknown one, or a letter that its value does not suit. The fuel bounds the fields and
    characters. -/
def renderChars (value? : String → Option Value) : Nat → List Char → Option (List Char)
  | 0, _ => none
  | _ + 1, [] => some []
  | fuel + 1, '%' :: '%' :: rest => (renderChars value? fuel rest).map ('%' :: ·)
  | fuel + 1, '%' :: '(' :: rest => do
    let (name, rest) ← readName? 0 [] rest
    let v ← value? name
    let (f, rest) ← readField? rest
    return (← f.write? v) ++ (← renderChars value? fuel rest)
  | _ + 1, '%' :: _ => none
  | fuel + 1, c :: rest => (renderChars value? fuel rest).map (c :: ·)

def render (format : String) (value? : String → Option Value) : Option String :=
  (renderChars value? (format.length + 1) format.toList).map String.ofList

end SchemaDiagram.LogFormat
