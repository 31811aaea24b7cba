import SchemaDiagram.Decimal.Shortest

/-!
Floating-point numbers with a given count of digits: so many places behind the point, or so many
behind the first digit and an exponent. A number is rounded to the nearest such decimal, and a half
goes to the even neighbour.
-/

set_option autoImplicit false

namespace SchemaDiagram.Decimal

/-- The integer nearest to a fraction; a half goes to the even one. -/
def nearest (num den : Nat) : Nat :=
  let q := num / den
  let r := num % den
  if 2 * r < den then q
  else if den < 2 * r then q + 1
  else if q % 2 = 0 then q else q + 1

def Binary.fraction (x : Binary) : Nat × Nat := scaled x.mantissa 2 x.exponent

def units (f : Nat × Nat) (unit : Int) : Nat :=
  let (n, d) := scaled 1 10 unit
  nearest (f.1 * d) (f.2 * n)

/-- Digits with a point before the last so many of them. -/
def withPoint (keepPoint : Bool) (places : Nat) (digits : List Char) : List Char :=
  let padded := List.replicate (places + 1 - digits.length) '0' ++ digits
  let whole := padded.take (padded.length - places)
  if places = 0 then if keepPoint then whole ++ ['.'] else whole
  else whole ++ '.' :: padded.drop (padded.length - places)

def fixed (keepPoint : Bool) (places : Nat) (f : Nat × Nat) : List Char :=
  withPoint keepPoint places (Nat.toDigits 10 (units f (-places)))

def significant (more : Nat) (f : Nat × Nat) : List Char × Int :=
  if f.1 = 0 then (List.replicate (more + 1) '0', 0)
  else
    let lead := leading f.1 f.2
    let n := units f (lead - more)
    -- rounding may carry into a further digit
    if n = Nat.pow 10 (more + 1) then (Nat.toDigits 10 (n / 10), lead + 1) else (Nat.toDigits 10 n, lead)

def exponentText (e : Int) : List Char :=
  let digits := Nat.toDigits 10 e.natAbs
  'e' :: (if e < 0 then '-' else '+') :: (List.replicate (2 - digits.length) '0' ++ digits)

def exponential (keepPoint : Bool) (places : Nat) (f : Nat × Nat) : List Char :=
  let (digits, e) := significant places f
  withPoint keepPoint places digits ++ exponentText e

def dropPlaces (cs : List Char) : List Char :=
  if cs.contains '.' then
    match cs.reverse.dropWhile (· = '0') with
    | '.' :: rest => rest.reverse
    | rest => rest.reverse
  else cs

/-- A fraction with so many digits, positionally if its first digit stands at the last of them or
    before and at the fourth place or before, else with an exponent. Zeros at the end are dropped
    unless the point is kept. -/
def general (keepPoint : Bool) (count : Nat) (f : Nat × Nat) : List Char :=
  let count := max 1 count
  let (digits, e) := significant (count - 1) f
  let trim (cs : List Char) : List Char := if keepPoint then cs else dropPlaces cs
  if -4 ≤ e ∧ e < count then
    let places := ((count : Int) - 1 - e).toNat
    trim (withPoint keepPoint places digits)
  else trim (withPoint keepPoint (count - 1) digits) ++ exponentText e

end SchemaDiagram.Decimal
