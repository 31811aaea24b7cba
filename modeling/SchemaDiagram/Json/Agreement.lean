import SchemaDiagram.Decimal.Places
import SchemaDiagram.Json

/-!
Sameness and agreement of values. Both take the members of objects without regard to their order.
Values that are the same have the same parts; in values that agree numbers are compared by what they
are worth, a truth value counting as zero or one.
-/

set_option autoImplicit false

namespace SchemaDiagram.Json

mutual

/-- Compares the parts of values one by one; those without parts by a given test. -/
def agreesBy (test : Json → Json → Bool) : Json → Json → Bool
  | .arr xs, .arr ys => itemsAgreeBy test xs ys
  | .obj xs, .obj ys => xs.length == ys.length && membersAgreeBy test xs ys
  | v, w => test v w

def itemsAgreeBy (test : Json → Json → Bool) : List Json → List Json → Bool
  | [], [] => true
  | x :: xs, y :: ys => agreesBy test x y && itemsAgreeBy test xs ys
  | _, _ => false

def membersAgreeBy (test : Json → Json → Bool) :
    List (String × Json) → List (String × Json) → Bool
  | [], _ => true
  | (k, v) :: rest, ys =>
    (match lookup k ys with
      | some w => agreesBy test v w
      | none => false) && membersAgreeBy test rest ys

end

def isSame (v w : Json) : Bool := agreesBy (fun a b => a = b) v w

def asNumber : Json → Json
  | .bool b => .int (if b then 1 else 0)
  | v => v

/-- Two floats agree when they are worth the same or when neither has a worth. -/
def floatsAgree (x y : Float) : Bool := x == y || (x.isNaN && y.isNaN)

/-- Whether a float is worth exactly an integer. -/
def isWorth (x : Float) (i : Int) : Bool :=
  let (num, den) := (Decimal.Binary.ofBits x.toBits.toNat).fraction
  x.isFinite && num == i.natAbs * den && (i = 0 || decide (i < 0) == decide (x < 0))

def atomsAgree (v w : Json) : Bool :=
  match asNumber v, asNumber w with
  | .float x, .float y => floatsAgree x y
  | .int i, .float x | .float x, .int i => isWorth x i
  | v, w => v = w

def agrees (v w : Json) : Bool := agreesBy atomsAgree v w

end SchemaDiagram.Json
