import SchemaDiagram.Text.Unpaired

/-!
Bytes as text. Bytes are read as UTF-8 with a substitute for each malformed part, or, in a document,
in the encoding that the zeros among the first bytes tell; a surrogate that stands alone is kept
there for what it is.
-/

set_option autoImplicit false

namespace SchemaDiagram.Text

def substitute : Char := '\uFFFD'

def tailOf? (lead : UInt8) : Option (UInt8 × UInt8 × Nat) :=
  if 0xC2 ≤ lead ∧ lead ≤ 0xDF then some (0x80, 0xBF, 0)
  else if lead = 0xE0 then some (0xA0, 0xBF, 1)
  else if lead = 0xED then some (0x80, 0x9F, 1)
  else if 0xE1 ≤ lead ∧ lead ≤ 0xEF then some (0x80, 0xBF, 1)
  else if lead = 0xF0 then some (0x90, 0xBF, 2)
  else if 0xF1 ≤ lead ∧ lead ≤ 0xF3 then some (0x80, 0xBF, 2)
  else if lead = 0xF4 then some (0x80, 0x8F, 2)
  else none

structure Partial where
  low : UInt8
  high : UInt8
  more : Nat
  value : Nat

def beginChar (b : UInt8) : List Char × Option Partial :=
  if b < 0x80 then ([Char.ofNat b.toNat], none)
  else
    match tailOf? b with
    | some (low, high, more) => ([], some ⟨low, high, more, b.toNat % Nat.pow 2 (5 - more)⟩)
    | none => ([substitute], none)

/-- The text of bytes in UTF-8; a part of a character that does not go on as it should is replaced
    by one substitute. -/
def decodeUtf8 : Option Partial → List UInt8 → List Char
  | none, [] => []
  | some _, [] => [substitute]
  | none, b :: rest =>
    let (out, p) := beginChar b
    out ++ decodeUtf8 p rest
  | some p, b :: rest =>
    if p.low ≤ b ∧ b ≤ p.high then
      let value := p.value * 64 + b.toNat % 64
      match p.more with
      | 0 => Char.ofNat value :: decodeUtf8 none rest
      | more + 1 => decodeUtf8 (some ⟨0x80, 0xBF, more, value⟩) rest
    else
      let (out, p) := beginChar b
      substitute :: out ++ decodeUtf8 p rest

def utf8 (s : String) : List UInt8 := s.toList.flatMap String.utf8EncodeChar

def pairs? (big : Bool) : List UInt8 → Option (List Nat)
  | [] => some []
  | [_] => none
  | a :: b :: rest =>
    (pairs? big rest).map ((if big then a.toNat * 256 + b.toNat else b.toNat * 256 + a.toNat) :: ·)

def ofUnits : List Nat → List Char
  | [] => []
  | [u] => [if isHighUnit u || isLowUnit u then ofUnpaired u else Char.ofNat u]
  | u :: v :: rest =>
    if isHighUnit u && isLowUnit v then ofPair u v :: ofUnits rest
    else (if isHighUnit u || isLowUnit u then ofUnpaired u else Char.ofNat u) :: ofUnits (v :: rest)

def ofNumber? (n : Nat) : Option Char :=
  if isHighUnit n || isLowUnit n then some (ofUnpaired n)
  else if n < 0x110000 then some (Char.ofNat n) else none

def ofHalves? (big : Bool) : List Nat → Option (List Char)
  | [] => some []
  | [_] => none
  | a :: b :: rest => do
    let c ← ofNumber? (if big then a * 65536 + b else b * 65536 + a)
    return c :: (← ofHalves? big rest)

/-- The text of a document in UTF-8, UTF-16 or UTF-32, none if its bytes are not all of one of
    these. Zeros among the first bytes tell which. A byte order mark in front is dropped. -/
def ofDocument? (s : String) : Option (List Char) :=
  let bytes := utf8 s
  let wide (big : Bool) : Option (List Char) := (pairs? big bytes).map ofUnits
  let wider (big : Bool) : Option (List Char) := (pairs? big bytes).bind (ofHalves? big)
  match bytes with
  | 0 :: b :: _ :: _ :: _ => if b = 0 then wider true else wide true
  | _ :: 0 :: c :: d :: _ => if c = 0 ∧ d = 0 then wider false else wide false
  | [0, _] => wide true
  | [_, 0] => wide false
  | _ =>
    match s.toList with
    | '\uFEFF' :: rest => some rest
    | cs => some cs

end SchemaDiagram.Text
