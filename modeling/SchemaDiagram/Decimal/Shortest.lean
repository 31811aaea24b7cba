/-!
The shortest decimal that reads back as a given binary number. A finite number is `m · 2 ^ q` with
natural `m`; the reals that round to it form an interval around it, whose ends belong to it exactly
when `m` is even. For one, two, … digits the two neighbours of the number on that decimal grid are
tested, and the first grid with a hit gives the digits.
-/

set_option autoImplicit false

namespace SchemaDiagram.Decimal

/-- A positive binary number `m · 2 ^ q` with its interval: `low` and `high` are the ends in
    quarters of `2 ^ q`. -/
structure Binary where
  mantissa : Nat
  exponent : Int
  low : Nat
  high : Nat

def Binary.ofBits (bits : Nat) : Binary :=
  let fraction : Nat := bits % Nat.pow 2 52
  let biased : Nat := bits / Nat.pow 2 52 % Nat.pow 2 11
  let m := if biased = 0 then fraction else fraction + Nat.pow 2 52
  let q : Int := if biased = 0 then -1074 else (biased : Int) - 1075
  -- below a power of two the neighbours are half as far apart
  let low := if fraction = 0 ∧ 1 < biased then 4 * m - 1 else 4 * m - 2
  ⟨m, q, low, 4 * m + 2⟩

structure Digits where
  digits : Nat
  exponent : Int
  deriving DecidableEq

def width (n : Nat) : Nat :=
  (Nat.toDigits 10 n).length

def scaled (n b : Nat) (e : Int) : Nat × Nat :=
  match e with
  | .ofNat k => (n * Nat.pow b k, 1)
  | .negSucc k => (n, Nat.pow b (k + 1))

def leading (num den : Nat) : Int :=
  let guess : Int := (width num : Int) - (width den : Int)
  -- the guess is exact or one too large
  let (gn, gd) := scaled 1 10 guess
  if num * gd < den * gn then guess - 1 else guess

/-- The nearest point of the grid `10 ^ unit` that lies in the interval, a tie going to the even
    point. -/
def Binary.onGrid? (x : Binary) (unit : Int) : Option Nat :=
  -- all in quarters of `2 ^ q`: the value is `4 m`, the grid point `c` is `c · step`
  let (bn, bd) := scaled 1 2 (x.exponent - 2)
  let (un, ud) := scaled 1 10 unit
  let stepNum := un * bd
  let stepDen := ud * bn
  let value := 4 * x.mantissa * stepDen
  let below := value / stepNum
  let inside (c : Nat) : Bool :=
    let p := c * stepNum
    if x.mantissa % 2 = 0 then x.low * stepDen ≤ p && p ≤ x.high * stepDen
    else x.low * stepDen < p && p < x.high * stepDen
  let above := below + 1
  let gapBelow := value - below * stepNum
  let gapAbove := above * stepNum - value
  match inside below, inside above with
  | false, false => none
  | true, false => some below
  | false, true => some above
  | true, true =>
    if gapBelow < gapAbove then some below
    else if gapAbove < gapBelow then some above
    else if below % 2 = 0 then some below else some above

def dropZeros : Nat → Digits → Digits
  | 0, d => d
  | fuel + 1, d =>
    if d.digits ≠ 0 ∧ d.digits % 10 = 0 then dropZeros fuel ⟨d.digits / 10, d.exponent + 1⟩ else d

def Binary.search (x : Binary) (top : Int) : Nat → Nat → Digits
  | 0, _ => ⟨x.mantissa, 0⟩
  | fuel + 1, n =>
    let unit := top + 1 - n
    match x.onGrid? unit with
    | some c => dropZeros 20 ⟨c, unit⟩
    | none => x.search top fuel (n + 1)

/-- The shortest digits of a positive number; seventeen always suffice. -/
def Binary.shortest (x : Binary) : Digits :=
  let (n, d) := scaled x.mantissa 2 x.exponent
  x.search (leading n d) 17 1

end SchemaDiagram.Decimal
