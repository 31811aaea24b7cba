/-!
Control sequences of a terminal: a mark, parameters and a letter. A line is made plain by taking them
away, so that a name in a document cannot steer the terminal that shows it.
-/

set_option autoImplicit false

namespace SchemaDiagram.Text

def isParameter (c : Char) : Bool := c == ';' || c == '?' || c.isDigit

/-- What stands behind a control sequence, from behind its mark; nothing if it has no letter. -/
def afterControl? : List Char → Option (List Char)
  | [] => none
  | c :: rest => if isParameter c then afterControl? rest else if c.isAlpha then some rest else none

theorem afterControl?_length {cs rest : List Char} (h : afterControl? cs = some rest) :
    rest.length < cs.length := by
  fun_induction afterControl? cs with
  | case1 => simp at h
  | case2 c more _ ih => exact Nat.lt_succ_of_lt (ih h)
  | case3 c more _ _ => simp_all
  | case4 => simp at h

/-- Characters without control sequences. What begins like one and does not end stays. -/
def withoutControls : List Char → List Char
  | '\x1b' :: '[' :: more =>
    match h : afterControl? more with
    | some rest =>
      have : rest.length < more.length := afterControl?_length h
      withoutControls rest
    | none => '\x1b' :: withoutControls ('[' :: more)
  | c :: more => c :: withoutControls more
  | [] => []
  termination_by cs => cs.length

def plainLine (s : String) : String := String.ofList (withoutControls s.toList)

end SchemaDiagram.Text
