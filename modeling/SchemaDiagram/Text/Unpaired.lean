/-!
Units of surrogate pairs that stand alone. Such a unit is no character; a text that has one holds in
its place the character `0x100000` above it, which is for private use. It is written back as a unit
in documents and literals, and a text that holds one cannot be encoded.
-/

set_option autoImplicit false

namespace SchemaDiagram.Text

def ofUnpaired (unit : Nat) : Char := Char.ofNat (0x100000 + unit)

def unpaired? (c : Char) : Option Nat :=
  if 0x10D800 ≤ c.toNat ∧ c.toNat < 0x10E000 then some (c.toNat - 0x100000) else none

def hasUnpaired (s : String) : Bool := s.toList.any fun c => (unpaired? c).isSome

/-- Whether a unit stands for a byte above 127 in a name that the system has and that is no text. -/
def isByteUnit (n : Nat) : Bool := 0xDC80 ≤ n && n < 0xDD00

def isSystemText (s : String) : Bool :=
  s.toList.all fun c => ((unpaired? c).map isByteUnit).getD true

def isHighUnit (n : Nat) : Bool := 0xD800 ≤ n && n < 0xDC00

def isLowUnit (n : Nat) : Bool := 0xDC00 ≤ n && n < 0xE000

def ofPair (high low : Nat) : Char :=
  Char.ofNat (0x10000 + (high - 0xD800) * 0x400 + (low - 0xDC00))

end SchemaDiagram.Text
