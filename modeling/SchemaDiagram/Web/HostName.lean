import SchemaDiagram.Text.Case
import SchemaDiagram.Text.Combining
import SchemaDiagram.Web.HostName.Class
import SchemaDiagram.Web.Punycode

/-!
Internationalised names of hosts. A name is a list of labels; each is checked and, unless it is
ASCII, written in ASCII letters and digits behind a mark. The rules of a label: it is in composed
form, its hyphens stand inside, it does not begin with a combining character, every character of it
may stand where it does, and what is written from right to left is not mixed with the rest.
-/

set_option autoImplicit false

namespace SchemaDiagram.Web.HostName

open Text (combiningClass composed)

def virama : Nat := 9

/-- Whether the character next to a joiner, of those that do not let their neighbours join, joins in
    one of the given ways. -/
def joins (ways : List Nat) (neighbours : List Char) : Bool :=
  match neighbours.dropWhile fun c => joinings.value? c = some 3 with
  | c :: _ => ((joinings.value? c).map ways.contains).getD false
  | [] => false

def joinerFits (c : Char) (before after : List Char) : Bool :=
  let cut := (before.head?.map fun d => combiningClass d == virama).getD false
  if c = '\u200d' then cut
  else c = '\u200c' && (cut || (joins [0, 2] before && joins [1, 2] after))

/-- Whether a character that is not free to stand anywhere may stand between what is before it, in
    reverse, and what follows. -/
def contextFits (c : Char) (before after : List Char) : Bool :=
  let rest := before ++ after
  let isDigitFrom (low : Nat) (d : Char) : Bool := low ≤ d.toNat && d.toNat < low + 10
  if c = '\u00b7' then before.head? = some 'l' && after.head? = some 'l'
  else if c = '\u0375' then (after.head?.map greek.contains).getD false
  else if c = '\u05f3' ∨ c = '\u05f4' then (before.head?.map hebrew.contains).getD false
  else if c = '\u30fb' then rest.any fun d => d ≠ c && eastAsian.contains d
  else if isDigitFrom 0x660 c then !rest.any (isDigitFrom 0x6f0)
  else if isDigitFrom 0x6f0 c then !rest.any (isDigitFrom 0x660)
  else joinerFits c before after

def placesFit : List Char → List Char → Bool
  | _, [] => true
  | before, c :: rest =>
    (letters.contains c || contextFits c before rest) && placesFit (c :: before) rest

def direction (c : Char) : Nat := (directions.value? c).getD 6

def endsIn (allowed : List Nat) (label : List Char) : Bool :=
  match (label.map direction).reverse.dropWhile (· = 5) with
  | d :: _ => allowed.contains d
  | [] => false

def directionsAgree (label : List Char) : Bool :=
  let ds := label.map direction
  if !ds.any [0, 1, 2].contains then true
  else
    match ds with
    | [] => true
    | first :: _ =>
      if first = 0 ∨ first = 1 then
        ds.all ([0, 1, 2, 3, 4, 5].contains ·) && endsIn [0, 1, 2, 3] label &&
          !(ds.contains 2 && ds.contains 3)
      else first = 6 && ds.all ([3, 4, 5, 6].contains ·) && endsIn [3, 6] label

def isLabel (label : List Char) : Bool :=
  match label with
  | [] => false
  | first :: _ =>
    label.length ≤ 254 && first ≠ '-' && label.getLast? ≠ some '-' &&
      (label.drop 2).take 2 ≠ ['-', '-'] && !marks.contains first && placesFit [] label &&
      directionsAgree label && composed label = label

def mark : List Char := "xn--".toList

def longestLabel : Nat := 63

/-- Whether a label in small ASCII letters is in order; one that bears the mark is judged by what it
    stands for. -/
def isAsciiLabel (label : List Char) : Bool :=
  if mark.isPrefixOf label then
    let body := label.drop mark.length
    body ≠ [] && body.getLast? ≠ some '-' && ((Punycode.decode? body).map isLabel).getD false
  else isLabel label

def encodeLabel? (label : List Char) : Option (List Char) :=
  let written := if label.all (·.toNat < 128) then
      if isAsciiLabel label then some label else none
    else if isLabel label then some (mark ++ Punycode.encode label) else none
  written.filter (·.length ≤ longestLabel)

def isDot (c : Char) : Bool := c = '.' || c = '。' || c = '．' || c = '｡'

def labels : List Char → List (List Char)
  | [] => [[]]
  | c :: rest =>
    match isDot c, labels rest with
    | true, parts => [] :: parts
    | false, part :: parts => (c :: part) :: parts
    | false, [] => [[c]]

def longestName : Nat := 253

def encode? (name : String) : Option String := do
  let cs := (Text.toLower name).toList
  if longestName + 1 < cs.length then none
  let parts := labels cs
  let dotted := decide (1 < parts.length) && parts.getLast? = some []
  let written ← (if dotted then parts.dropLast else parts).mapM encodeLabel?
  let text := List.intercalate ['.'] (if dotted then written ++ [[]] else written)
  if (if dotted then longestName + 1 else longestName) < text.length then none
  return String.ofList text

end SchemaDiagram.Web.HostName
