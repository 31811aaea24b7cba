import SchemaDiagram.Fault
import SchemaDiagram.Decimal.Reader

/-!
The grid on which tables stand that have no known place.
-/

set_option autoImplicit false

namespace SchemaDiagram

/-- A grid fills its rows from the left; the spacings are the distances between neighbours. -/
structure Grid where
  columns : Int := 4
  spacingX : Float := 300.0
  spacingY : Float := 200.0
  deriving DecidableEq, Inhabited

namespace Grid

def offset (count : Int) (spacing : Float) : Result Float :=
  match Decimal.ofInt? count with
  | some x => .ok (x * spacing)
  | none => .error .hugeIndex

/-- The place of the table at an index. Row and column come from division with a remainder of the
    divisor's sign, so indexes before the first have places too. -/
def place (g : Grid) (index : Int) : Result Position :=
  if g.columns = 0 then .error .zeroGridWidth
  else do
    let x ← offset (index.fmod g.columns) g.spacingX
    let y ← offset (index.fdiv g.columns) g.spacingY
    return ⟨x, y⟩

end Grid

end SchemaDiagram
