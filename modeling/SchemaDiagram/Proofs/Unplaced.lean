import SchemaDiagram.Proofs.Reduction

/-!
What does not depend on positions. Diagrams that differ in nothing but where their nodes stand have
schemas that differ in nothing but where their tables stand, and the check of a schema looks at no
position.
-/

set_option autoImplicit false

namespace SchemaDiagram

def Node.unplaced (n : Node) : Node := { n with position := {} }

def Diagram.unplaced (d : Diagram) : Diagram := { d with nodes := d.nodes.map Node.unplaced }

def Table.unplaced (t : Table) : Table := { t with position := none }

def Schema.unplaced (s : Schema) : Schema := { s with tables := s.tables.map Table.unplaced }

namespace Diagram

theorem toTable_unplaced (n : Node) :
    n.unplaced.toTable.map Table.unplaced = n.toTable.map Table.unplaced := by
  have same : n.unplaced.data.label = n.data.label := rfl
  unfold Node.toTable
  rw [same]
  cases n.data.label <;> rfl

theorem tablesOf_unplaced (nodes : List Node) :
    (tablesOf (nodes.map Node.unplaced)).map (List.map Table.unplaced) =
      (tablesOf nodes).map (List.map Table.unplaced) := by
  induction nodes with
  | nil => rfl
  | cons n rest ih =>
    rw [List.map_cons, tablesOf_cons, tablesOf_cons]
    have hn : n.unplaced.isTable = n.isTable := rfl
    rw [hn]
    split
    · rw [Result.map_cons, Result.map_cons, toTable_unplaced, ih]
    · exact ih

theorem endpoint?_unplaced (nodes : List Node) (id : String) :
    endpoint? (nodes.map Node.unplaced) id = (endpoint? nodes id).map Node.unplaced := by
  induction nodes with
  | nil => rfl
  | cons n rest ih =>
    simp only [List.map_cons, endpoint?, ih]
    have hn : n.unplaced.id = n.id := rfl
    rw [hn]
    cases endpoint? rest id <;> by_cases h : n.id = id <;> simp [h]

theorem relationshipOf_unplaced (nodes : List Node) (e : Edge) :
    relationshipOf (nodes.map Node.unplaced) e = relationshipOf nodes e := by
  unfold relationshipOf
  rw [endpoint?_unplaced, endpoint?_unplaced]
  cases endpoint? nodes e.source with
  | none => rfl
  | some a => cases endpoint? nodes e.target <;> rfl

theorem relationshipsOf_unplaced (nodes : List Node) (es : List Edge) :
    relationshipsOf (nodes.map Node.unplaced) es = relationshipsOf nodes es := by
  induction es with
  | nil => rfl
  | cons e rest ih => rw [relationshipsOf, relationshipsOf, relationshipOf_unplaced, ih]

theorem reduce_unplaced (d : Diagram) :
    d.unplaced.reduce.map Schema.unplaced = d.reduce.map Schema.unplaced := by
  have ht := tablesOf_unplaced d.nodes
  have hr := relationshipsOf_unplaced d.nodes d.edges
  have hn : d.unplaced.nodes = d.nodes.map Node.unplaced := rfl
  have he : d.unplaced.edges = d.edges := rfl
  unfold reduce
  rw [hn, he, hr]
  cases hx : tablesOf (d.nodes.map Node.unplaced) with
  | error f =>
    rw [hx] at ht
    cases hy : tablesOf d.nodes with
    | error g =>
      rw [hy] at ht
      cases ht
      rfl
    | ok ys =>
      rw [hy] at ht
      cases ht
  | ok xs =>
    rw [hx] at ht
    cases hy : tablesOf d.nodes with
    | error g =>
      rw [hy] at ht
      cases ht
    | ok ys =>
      rw [hy] at ht
      have hts : xs.map Table.unplaced = ys.map Table.unplaced := Except.ok.inj ht
      cases relationshipsOf d.nodes d.edges with
      | error f => rfl
      | ok rs =>
        change Except.ok (Schema.mk (xs.map Table.unplaced) rs) = _
        rw [hts]
        rfl

end Diagram

namespace Schema

theorem registered?_unplaced (known : List Table) (name : String) :
    registered? (known.map Table.unplaced) name = (registered? known name).map Table.unplaced := by
  unfold registered?
  rw [List.find?_map]
  rfl

theorem register_unplaced (known : List Table) (t : Table) :
    register (known.map Table.unplaced) t.unplaced = (register known t).map Table.unplaced := by
  unfold register
  have hn : t.unplaced.name = t.name := rfl
  rw [registered?_unplaced, Option.isSome_map, hn]
  split
  · rfl
  · rw [List.map_append, List.map_singleton]

theorem tableIssues_unplaced (known : List Table) (t : Table) :
    tableIssues (known.map Table.unplaced) t.unplaced = tableIssues known t := by
  unfold tableIssues
  have hn : t.unplaced.name = t.name := rfl
  rw [registered?_unplaced, Option.isSome_map, hn]
  rfl

theorem scanTables_unplaced (known ts : List Table) :
    scanTables (known.map Table.unplaced) (ts.map Table.unplaced) =
      ((scanTables known ts).1, (scanTables known ts).2.map Table.unplaced) := by
  induction ts generalizing known with
  | nil => rfl
  | cons t rest ih =>
    rw [List.map_cons, scanTables, scanTables, register_unplaced, ih, tableIssues_unplaced]

theorem missingTable_unplaced (known : List Table) (table : String) :
    missingTable (known.map Table.unplaced) table = missingTable known table := by
  unfold missingTable
  rw [registered?_unplaced, Option.isNone_map]

theorem missingColumn_unplaced (known : List Table) (table column : String) :
    missingColumn (known.map Table.unplaced) table column = missingColumn known table column := by
  unfold missingColumn
  rw [registered?_unplaced]
  cases registered? known table <;> rfl

theorem relationshipIssues_unplaced (known : List Table) (r : Relationship) :
    relationshipIssues (known.map Table.unplaced) r = relationshipIssues known r := by
  unfold relationshipIssues
  rw [missingTable_unplaced, missingTable_unplaced, missingColumn_unplaced, missingColumn_unplaced]

theorem check_unplaced (s : Schema) : s.unplaced.check = s.check := by
  have ht : s.unplaced.tables = s.tables.map Table.unplaced := rfl
  have hs := scanTables_unplaced [] s.tables
  have hr : relationshipIssues ((scanTables [] s.tables).2.map Table.unplaced) =
      relationshipIssues (scanTables [] s.tables).2 :=
    funext fun r => relationshipIssues_unplaced _ r
  unfold check
  rw [ht]
  change Verdict.mk ((scanTables ([].map Table.unplaced) (s.tables.map Table.unplaced)).1 ++
    s.relationships.flatMap
      (relationshipIssues (scanTables ([].map Table.unplaced) (s.tables.map Table.unplaced)).2)) = _
  rw [hs, hr]

end Schema

namespace Diagram

/-- A diagram is accepted when it reduces to a schema that passes the check. -/
def Accepted (d : Diagram) : Prop := ∃ s, d.reduce = .ok s ∧ s.check.valid = true

theorem Accepted.of_unplaced {d u : Diagram} (h : d.Accepted) (e : u.unplaced = d.unplaced) :
    u.Accepted := by
  obtain ⟨s, hs, hv⟩ := h
  have hu : u.reduce.map Schema.unplaced = .ok s.unplaced := by
    calc
      u.reduce.map Schema.unplaced = u.unplaced.reduce.map Schema.unplaced :=
        (reduce_unplaced u).symm
      _ = d.unplaced.reduce.map Schema.unplaced := by rw [e]
      _ = d.reduce.map Schema.unplaced := reduce_unplaced d
      _ = .ok s.unplaced := by rw [hs]; rfl
  cases ht : u.reduce with
  | error f =>
    rw [ht] at hu
    cases hu
  | ok t =>
    rw [ht] at hu
    have htu : t.unplaced = s.unplaced := Except.ok.inj hu
    refine ⟨t, ht, ?_⟩
    rw [← Schema.check_unplaced, htu, Schema.check_unplaced]
    exact hv

end Diagram

end SchemaDiagram
