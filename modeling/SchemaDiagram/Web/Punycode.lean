/-!
Labels in ASCII letters and digits. The ASCII characters of a label stand in front; the places and
the numbers of the others follow as differences, each a numeral to the base 36 in which every digit
but the last reaches a threshold. The thresholds follow the size of the differences before.
-/

set_option autoImplicit false

namespace SchemaDiagram.Web.Punycode

def digitChar (d : Nat) : Char := if d < 26 then Char.ofNat (97 + d) else Char.ofNat (22 + d)

def digitValue? (c : Char) : Option Nat :=
  if 'a' ≤ c ∧ c ≤ 'z' then some (c.toNat - 97)
  else if 'A' ≤ c ∧ c ≤ 'Z' then some (c.toNat - 65)
  else if '0' ≤ c ∧ c ≤ '9' then some (c.toNat - 22)
  else none

def threshold (bias place : Nat) : Nat := max 1 (min 26 (36 * (place + 1) - bias))

theorem threshold_pos (bias place : Nat) : 0 < threshold bias place := by
  simp only [threshold]
  omega

def scale (delta steps : Nat) : Nat × Nat :=
  if 455 < delta then scale (delta / 35) (steps + 36) else (delta, steps)
termination_by delta
decreasing_by exact Nat.div_lt_self (by omega) (by omega)

def adapt (first : Bool) (delta count : Nat) : Nat :=
  let delta := if first then delta / 700 else delta / 2
  let (delta, steps) := scale (delta + delta / count) 0
  steps + 36 * delta / (delta + 38)

def writeNumber (bias place n : Nat) : List Char :=
  let t := threshold bias place
  if n < t then [digitChar n]
  else digitChar (t + (n - t) % (36 - t)) :: writeNumber bias (place + 1) ((n - t) / (36 - t))
termination_by n
decreasing_by
  have := threshold_pos bias place
  have : (n - threshold bias place) / (36 - threshold bias place) ≤ n - threshold bias place :=
    Nat.div_le_self _ _
  omega

/-- What has been written of the characters beyond ASCII. -/
structure Progress where
  out : List Char := []
  delta : Nat := 0
  bias : Nat := 72
  /-- The characters of the label that have been written. -/
  count : Nat

/-- Passes over a character while those of a number are written. -/
def passChar (basic number : Nat) (p : Progress) (c : Char) : Progress :=
  if c.toNat < number then { p with delta := p.delta + 1 }
  else if c.toNat = number then
    { out := p.out ++ writeNumber p.bias 0 p.delta
      delta := 0
      bias := adapt (p.count = basic) p.delta (p.count + 1)
      count := p.count + 1 }
  else p

/-- Writes the characters of each number in turn; `next` is one more than the number before. -/
def writeRest (label : List Char) (basic : Nat) : Nat → List Nat → Progress → Progress
  | _, [], p => p
  | next, number :: more, p =>
    let p := { p with delta := p.delta + (number - next) * (p.count + 1) }
    let p := label.foldl (passChar basic number) p
    writeRest label basic (number + 1) more { p with delta := p.delta + 1 }

def encode (label : List Char) : List Char :=
  let basic := label.filter (·.toNat < 128)
  let numbers := ((label.map Char.toNat).filter (128 ≤ ·)).mergeSort.eraseDups
  let p := writeRest label basic.length 128 numbers { count := basic.length }
  (if basic = [] then [] else basic ++ ['-']) ++ p.out

def readNumber? (bias : Nat) : Nat → Nat → Nat → List Char → Option (Nat × List Char)
  | _, _, _, [] => none
  | place, weight, sum, c :: rest => do
    let d ← digitValue? c
    let t := threshold bias place
    if d < t then return (sum + d * weight, rest)
    else readNumber? bias (place + 1) (weight * (36 - t)) (sum + d * weight) rest

/-- Puts characters into a label; `position` is the one behind the character put in last. The fuel
    bounds the differences. -/
def readRest? : Nat → Bool → Nat → Nat → Nat → List Char → List Char → Option (List Char)
  | 0, _, _, _, _, _, _ => none
  | _ + 1, _, _, _, _, label, [] => some label
  | fuel + 1, first, bias, number, position, label, rest => do
    let (delta, rest) ← readNumber? bias 0 1 0 rest
    let size := label.length + 1
    let number := number + (position + delta) / size
    let place := (position + delta) % size
    if 0x110000 ≤ number then none
    else
      readRest? fuel false (adapt first delta size) number (place + 1)
        (label.insertIdx place (Char.ofNat number)) rest

def decode? (cs : List Char) : Option (List Char) :=
  let tail := (cs.reverse.takeWhile (· ≠ '-')).reverse
  let basic := (cs.take (cs.length - tail.length)).dropLast
  readRest? (tail.length + 1) true 72 128 0 basic tail

end SchemaDiagram.Web.Punycode
