import SchemaDiagram.Decimal.Shortest
import SchemaDiagram.Text.Blank

/-!
Numerals as numbers: correctly rounded binary numbers from decimal ones, and the numerals that
stand for integers and for floating-point numbers in text fields.
-/

set_option autoImplicit false

namespace SchemaDiagram.Decimal

open Text (isSpace trimBy)

def ofDigits (cs : List Char) : Nat :=
  cs.foldl (fun n c => 10 * n + (c.toNat - 48)) 0

def isAsciiDigit (c : Char) : Bool := '0' ≤ c && c ≤ '9'

/-- The binary number nearest to `m · 10 ^ e`; what is too large is infinite, what is too small
    is zero. -/
def toFloat (negative : Bool) (m : Nat) (e : Int) : Float :=
  let lead : Int := width m + e
  let magnitude : Float :=
    if m = 0 ∨ lead < -400 then 0.0
    else if 400 < lead then 1.0 / 0.0
    else Float.ofScientific m (decide (e < 0)) e.natAbs
  if negative then -magnitude else magnitude

def floatBound : Nat := Nat.pow 2 1024 - Nat.pow 2 970

def ofInt? (i : Int) : Option Float :=
  if i.natAbs < floatBound then some (toFloat (decide (i < 0)) i.natAbs 0) else none

def exponent? (cs : List Char) : Option Int :=
  match cs with
  | [] => some 0
  | c :: rest =>
    if c = 'e' ∨ c = 'E' then
      let (negative, digits) := match rest with
        | '+' :: r => (false, r)
        | '-' :: r => (true, r)
        | r => (false, r)
      if digits ≠ [] ∧ digits.all isAsciiDigit then
        some (if negative then -(ofDigits digits : Int) else ofDigits digits)
      else none
    else none

/-- A decimal numeral without sign: digits with at most one point, at least one digit, and perhaps
    an exponent. -/
def magnitude? (negative : Bool) (cs : List Char) : Option Float :=
  let whole := cs.takeWhile isAsciiDigit
  let rest := cs.dropWhile isAsciiDigit
  let (fraction, rest) := match rest with
    | '.' :: r => (r.takeWhile isAsciiDigit, r.dropWhile isAsciiDigit)
    | r => ([], r)
  if whole ++ fraction = [] then none
  else (exponent? rest).map fun e =>
    toFloat negative (ofDigits (whole ++ fraction)) (e - fraction.length)

def joinGroups? (cs : List Char) : Option (List Char) :=
  let rec doubled : List Char → Bool
    | '_' :: '_' :: _ => true
    | _ :: rest => doubled rest
    | [] => false
  if cs.head? = some '_' ∨ cs.getLast? = some '_' ∨ doubled cs then none
  else some (cs.filter (· ≠ '_'))

/-- A numeral with a sign, or one of the names of infinity and of what is no number. -/
def signedFloat? (cs : List Char) : Option Float :=
  let (negative, body) := match cs with
    | '+' :: r => (false, r)
    | '-' :: r => (true, r)
    | r => (false, r)
  let word := String.ofList (body.map Char.toLower)
  if word = "inf" ∨ word = "infinity" then some (if negative then -(1.0 / 0.0) else 1.0 / 0.0)
  else if word = "nan" then some (0.0 / 0.0)
  else magnitude? negative body

/-- The floating-point number that a text field stands for. White space around a numeral is
    dropped; single underscores may group its characters, but then nothing may stand around it. -/
def readFloat? (s : String) : Option Float :=
  match signedFloat? (trimBy isSpace s.toList) with
  | some x => some x
  | none => (joinGroups? s.toList).bind signedFloat?

/-- Drops zeros in front of a numeral, with the underscores among them. A zero stays when nothing
    follows it but a point. The first argument is the character passed last. -/
def dropZeros? : Char → List Char → Option (List Char)
  | last, [] => some [last]
  | last, c :: rest =>
    if c = '0' ∨ c = '_' then dropZeros? c rest
    else if isAsciiDigit c ∨ c = '-' then some (c :: rest)
    else if c = '.' then some (last :: c :: rest)
    else none

def dropLeadingZeros? : List Char → Option (List Char)
  | [] => none
  | c :: rest =>
    if c = '0' then dropZeros? c rest
    else if isAsciiDigit c ∨ c = '-' then some (c :: rest)
    else none

def dropZeroPlaces (cs : List Char) : List Char :=
  let whole := cs.takeWhile (· ≠ '.')
  match cs.dropWhile (· ≠ '.') with
  | _ :: places => if places ≠ [] ∧ places.all (· = '0') then whole else cs
  | [] => cs

def maxDigits : Nat := 4300

inductive IntReading where
  | int (i : Int)
  /-- The text is no numeral. -/
  | unclear
  /-- The text begins with more digits than the limit. -/
  | long
  deriving DecidableEq, Repr

def canonicalInt (cs : List Char) : IntReading :=
  let (negative, body) := match cs with
    | '-' :: r => (true, r)
    | r => (false, r)
  let digits := body.takeWhile isAsciiDigit
  if digits = [] then .unclear
  else if digits.head? = some '0' then if body = ['0'] then .int 0 else .unclear
  else if maxDigits < digits.length then .long
  else if digits = body then .int (if negative then -(ofDigits digits : Int) else ofDigits digits)
  else .unclear

/-- The sign of a numeral, and what follows it; a second sign must not follow. -/
def splitSign? : List Char → Option (List Char × List Char)
  | '+' :: '-' :: _ => none
  | '-' :: '-' :: _ => none
  | '-' :: '+' :: _ => none
  | '+' :: rest => some ([], rest)
  | '-' :: rest => some (['-'], rest)
  | rest => some ([], rest)

/-- The integer that a text field stands for. Zeros in front are dropped before the groups are
    joined, and a minus sign may also stand behind them. -/
def readInt (s : String) : IntReading :=
  let body? := do
    let (sign, body) ← splitSign? (trimBy isSpace s.toList)
    let body := dropZeroPlaces (← dropLeadingZeros? body)
    return sign ++ (joinGroups? body).getD body
  match body? with
  | some body => canonicalInt body
  | none => .unclear

end SchemaDiagram.Decimal
