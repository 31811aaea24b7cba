/-!
Addresses of hosts in numbers: four numbers below 256 with points between them, or eight groups of
up to four hexadecimal digits with colons between them, of which a run of zeros may be left out.
-/

set_option autoImplicit false

namespace SchemaDiagram.Web.Address

def split (mark : Char) : List Char → List (List Char)
  | [] => [[]]
  | c :: rest =>
    if c = mark then [] :: split mark rest
    else
      match split mark rest with
      | part :: parts => (c :: part) :: parts
      | [] => [[c]]

/-- Whether a text looks like four numbers: runs of ASCII digits with one character between each
    and the next. The states of the search are how many runs and gaps lie behind; even ones have
    just passed a gap. -/
def looksNumeric (cs : List Char) : Bool :=
  let next (c : Char) (state : Nat) : List Nat :=
    if state % 2 = 0 then if c.isDigit then [state + 1] else []
    else (if c.isDigit then [state] else []) ++ if state < 7 then [state + 1] else []
  (cs.foldl (fun states c => (states.flatMap (next c)).eraseDups) [0]).contains 7

def isOctet (cs : List Char) : Bool :=
  cs ≠ [] && cs.all Char.isDigit && cs.length ≤ 3 && (cs == ['0'] || cs.head? != some '0') &&
    cs.foldl (fun n c => n * 10 + (c.toNat - 48)) 0 < 256

def isV4 (cs : List Char) : Bool :=
  let parts := split '.' cs
  parts.length = 4 && parts.all isOctet

def isHex (c : Char) : Bool :=
  c.isDigit || ('a' ≤ c && c ≤ 'f') || ('A' ≤ c && c ≤ 'F')

def isGroup (cs : List Char) : Bool := cs ≠ [] && cs.all isHex && cs.length ≤ 4

/-- The groups of an address; four numbers in the place of the last one count as two groups. -/
def groups? (cs : List Char) : Option (List (List Char)) :=
  let parts := split ':' cs
  if parts.length < 3 then none
  else
    let last := parts.getLast?.getD []
    if last.contains '.' then
      if isV4 last then some (parts.dropLast ++ [['0'], ['0']]) else none
    else some parts

/-- Whether groups, none of which is left out, are eight or as many as a gap leaves room for. An end
    of the address may only be empty beside a gap. -/
def fits (parts : List (List Char)) : Bool :=
  let inner := parts.tail.dropLast
  if inner.any (· = []) then
    let high := parts.takeWhile (· ≠ [])
    let high := if parts.head? = some [] then [[]] else high
    let low := (parts.reverse.takeWhile (· ≠ [])).reverse
    let low := if parts.getLast? = some [] then [[]] else low
    -- what lies between the two ends is the one gap
    parts.length = high.length + 1 + low.length &&
      (high ++ low).all (fun g => g = [] || isGroup g) && ((high ++ low).filter (· ≠ [])).length < 8
  else parts.length = 8 && parts.all isGroup

def isV6 (cs : List Char) : Bool :=
  let zone := cs.dropWhile (· ≠ '%')
  (zone = [] || (zone.length ≠ 1 && !zone.tail.contains '%')) && !cs.contains '/' &&
    match groups? (cs.takeWhile (· ≠ '%')) with
    | some parts => parts.length ≤ 9 && fits parts
    | none => false

end SchemaDiagram.Web.Address
