/-!
Paths as lists of parts. Empty parts and single dots are dropped when a path is read; double dots
stay.
-/

set_option autoImplicit false

namespace SchemaDiagram.Files

/-- A path; an absolute one starts at a root, which may be marked by one or by two bars. -/
structure Path where
  root : Nat
  parts : List String
  deriving DecidableEq, Inhabited

namespace Path

def ofString (s : String) : Path :=
  let bars := (s.toList.takeWhile (· = '/')).length
  let root := if bars = 0 then 0 else if bars = 2 then 2 else 1
  ⟨root, (s.splitOn "/").filter fun part => part ≠ "" ∧ part ≠ "."⟩

def toString (p : Path) : String :=
  let body := String.intercalate "/" p.parts
  if p.root = 0 ∧ p.parts = [] then "."
  else String.ofList (List.replicate p.root '/') ++ body

def parent (p : Path) : Path := ⟨p.root, p.parts.dropLast⟩

def under (base p : Path) : Path :=
  if p.root = 0 then ⟨base.root, base.parts ++ p.parts⟩ else p

end Path

end SchemaDiagram.Files
