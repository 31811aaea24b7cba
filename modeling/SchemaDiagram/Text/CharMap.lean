/-!
Maps from characters that are given run by run. A run goes from a first to a last character by a
step, and all that it reaches have one image or images that move along with them. Runs stand in
ascending order and do not overlap, so a character is looked up by halving.
-/

set_option autoImplicit false

namespace SchemaDiagram.Text

structure CharRun where
  first : Nat
  last : Nat
  step : Nat
  /-- The image of the first character. -/
  image : List Nat
  deriving DecidableEq, Repr

namespace CharRun

def number (s : String) : Nat :=
  s.toList.foldl (fun n c => n * 16 + (if c ≤ '9' then c.toNat - 48 else c.toNat - 87)) 0

/-- Reads a run such as `100-12e/2=101`: first, last, step and image, all but the first of which may
    be left out. -/
def ofText (s : String) : CharRun :=
  let (range, image) := match s.splitOn "=" with
    | [range, image] => (range, (image.splitOn "+").map number)
    | _ => (s, [])
  let (range, step) := match range.splitOn "/" with
    | [range, step] => (range, number step)
    | _ => (range, 1)
  match range.splitOn "-" with
  | [first, last] => ⟨number first, number last, step, image⟩
  | _ => ⟨number range, number range, step, image⟩

def covers (r : CharRun) (n : Nat) : Bool :=
  r.first ≤ n && n ≤ r.last && (n - r.first) % r.step == 0

end CharRun

structure CharMap where
  runs : Array CharRun

namespace CharMap

def ofText (s : String) : CharMap :=
  let words := (s.map fun c => if c = '\n' then ' ' else c).splitOn " "
  ⟨((words.filter (· ≠ "")).map CharRun.ofText).toArray⟩

/-- How many of the runs begin at or below a character, if it is known of those before `lo` that
    they do and of those from `hi` on that they do not. -/
def countUpTo (runs : Array CharRun) (n lo hi : Nat) : Nat :=
  if lo < hi then
    let middle := (lo + hi) / 2
    if (runs[middle]?.map fun r => decide (r.first ≤ n)).getD false then
      countUpTo runs n (middle + 1) hi
    else countUpTo runs n lo middle
  else lo
termination_by hi - lo
decreasing_by all_goals omega

def find? (m : CharMap) (n : Nat) : Option CharRun :=
  match countUpTo m.runs n 0 m.runs.size with
  | 0 => none
  | k + 1 => m.runs[k]?.filter (·.covers n)

def contains (m : CharMap) (c : Char) : Bool := (m.find? c.toNat).isSome

def value? (m : CharMap) (c : Char) : Option Nat :=
  (m.find? c.toNat).bind fun r => r.image.head?

def parts? (m : CharMap) (c : Char) : Option (List Nat) :=
  (m.find? c.toNat).map fun r => r.image

/-- The text that a character is turned into, which is as far from the image of its run's first
    character as the character is from that one. A character in no run stays. -/
def turn (m : CharMap) (c : Char) : List Char :=
  match m.find? c.toNat with
  | some r => r.image.map fun n => Char.ofNat (n + (c.toNat - r.first))
  | none => [c]

end CharMap

end SchemaDiagram.Text
