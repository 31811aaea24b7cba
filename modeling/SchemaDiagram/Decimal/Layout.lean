import SchemaDiagram.Decimal.Shortest

/-!
Floating-point numbers as text: the shortest digits that read back, in the positional form while
the leading digit stands between `10 ^ -4` and `10 ^ 15`, and with an exponent of two digits or
more outside that range.
-/

set_option autoImplicit false

namespace SchemaDiagram.Decimal

structure Layout where
  /-- Least exponent of the leading digit that is written positionally. -/
  least : Int
  /-- First exponent above the positional range. -/
  beyond : Int
  /-- Digits of an exponent, filled up with zeros. -/
  exponentWidth : Nat
  nan : String
  infinity : String

def plain : Layout := ⟨-4, 16, 2, "nan", "inf"⟩

def document : Layout := ⟨-4, 16, 2, "NaN", "Infinity"⟩

def zeros (n : Nat) : List Char := List.replicate n '0'

def positional (digits : List Char) (exponent : Int) : List Char :=
  match exponent with
  | .ofNat k => digits ++ zeros k ++ ['.', '0']
  | .negSucc k =>
    let places := k + 1
    let padded := zeros (places + 1 - digits.length) ++ digits
    padded.take (padded.length - places) ++ '.' :: padded.drop (padded.length - places)

def scientific (f : Layout) (digits : List Char) (lead : Int) : List Char :=
  let mantissa := match digits with
    | [] => []
    | [d] => [d]
    | d :: ds => d :: '.' :: ds
  let size := Nat.toDigits 10 lead.natAbs
  let sign := if lead < 0 then '-' else '+'
  mantissa ++ 'e' :: sign :: (zeros (f.exponentWidth - size.length) ++ size)

def Digits.write (f : Layout) (d : Digits) : List Char :=
  let digits := Nat.toDigits 10 d.digits
  let lead := d.exponent + (digits.length : Int) - 1
  if f.least ≤ lead ∧ lead < f.beyond then positional digits d.exponent
  else scientific f digits lead

def Layout.write (f : Layout) (x : Float) : String :=
  let bits := x.toBits.toNat
  if x.isNaN then f.nan
  else
    let sign := if bits / Nat.pow 2 63 = 1 then "-" else ""
    if x.isInf then sign ++ f.infinity
    else if bits % Nat.pow 2 63 = 0 then sign ++ "0.0"
    else sign ++ String.ofList ((Binary.ofBits (bits % Nat.pow 2 63)).shortest.write f)

end SchemaDiagram.Decimal
