import Mathlib.Algebra.Group.Int.Defs
import SchemaDiagram.Projection
import SchemaDiagram.Proofs.Pairs
import SchemaDiagram.Proofs.Unplaced

/-!
From a schema to a diagram and back. Going there, tables are found by name, the first that has it;
coming back, nodes are found by id, the last that has it. The two agree as long as ids are distinct,
even where names repeat. Both directions meet in `Depicts`: nodes that show tables, one by one.
-/

set_option autoImplicit false

namespace SchemaDiagram

namespace Grid

/-- Row and column of an index are small enough to be multiplied by a spacing. -/
def Reaches (g : Grid) (index : Int) : Prop :=
  (index.fmod g.columns).natAbs < Decimal.floatBound ∧
    (index.fdiv g.columns).natAbs < Decimal.floatBound

theorem reaches_of_pos {g : Grid} (width : 0 < g.columns) {index : Nat}
    (h : index < Decimal.floatBound) : g.Reaches index := by
  have nonneg : 0 ≤ g.columns := Int.le_of_lt width
  have hr : (index : Int).fmod g.columns = index % g.columns :=
    Int.fmod_eq_emod_of_nonneg _ nonneg
  have hq : (index : Int).fdiv g.columns = index / g.columns :=
    Int.fdiv_eq_ediv_of_nonneg _ nonneg
  have split : (index : Int) % g.columns + g.columns * (index / g.columns) = index :=
    Int.emod_add_mul_ediv _ _
  have row : 0 ≤ (index : Int) / g.columns := Int.ediv_nonneg (Int.natCast_nonneg _) nonneg
  have row_le : (index : Int) / g.columns ≤ index := Int.ediv_le_self _ (Int.natCast_nonneg _)
  have column : 0 ≤ (index : Int) % g.columns := Int.emod_nonneg _ (Int.ne_of_gt width)
  have before : 0 ≤ g.columns * (index / g.columns) := Int.mul_nonneg nonneg row
  unfold Reaches
  rw [hr, hq]
  constructor <;> omega

theorem offset_ok {count : Int} (h : count.natAbs < Decimal.floatBound) (spacing : Float) :
    ∃ x, offset count spacing = .ok x := by
  unfold offset Decimal.ofInt?
  rw [if_pos h]
  exact ⟨_, rfl⟩

theorem place_ok {g : Grid} {index : Int} (width : g.columns ≠ 0) (h : g.Reaches index) :
    ∃ p, g.place index = .ok p := by
  obtain ⟨x, hx⟩ := offset_ok h.1 g.spacingX
  obtain ⟨y, hy⟩ := offset_ok h.2 g.spacingY
  refine ⟨⟨x, y⟩, ?_⟩
  unfold place
  rw [if_neg width, hx, hy]
  rfl

end Grid

theorem Column.toColumn_toNodeColumn (c : Column) : c.toNodeColumn.toColumn = c := by
  rcases c with ⟨name, type, primaryKey, nullable, unique, foreignKey, defaultValue, autoIncrement⟩
  cases primaryKey <;> cases nullable <;> cases unique <;> rfl

theorem Table.toTable_toNode (t : Table) (p : Position) :
    (t.toNode p).toTable = .ok { t with position := some p } := by
  have hc : (t.columns.map Column.toNodeColumn).map NodeColumn.toColumn = t.columns := by
    rw [List.map_map]
    exact List.map_id'' Column.toColumn_toNodeColumn t.columns
  change Except.ok { t with
    columns := (t.columns.map Column.toNodeColumn).map NodeColumn.toColumn
    position := some p } = _
  rw [hc]

/-- Nodes that show tables, one by one. -/
def Depicts (ts : List Table) (ns : List Node) : Prop :=
  List.Forall₂ (fun t n => n = t.toNode n.position) ts ns

namespace Depicts

variable {ts : List Table} {ns : List Node}

theorem ids (h : Depicts ts ns) : ns.map Node.id = ts.map Table.id := by
  induction h with
  | nil => rfl
  | cons hn _ ih => rw [List.map_cons, List.map_cons, ih, hn]; rfl

theorem exists_node (h : Depicts ts ns) {t : Table} (ht : t ∈ ts) :
    ∃ n ∈ ns, n = t.toNode n.position :=
  exists_of_mem_left h ht

theorem tablesOf (h : Depicts ts ns) :
    ∃ us, Diagram.tablesOf ns = .ok us ∧ us.map Table.unplaced = ts.map Table.unplaced ∧
      us.map Table.position = ns.map (fun n => some n.position) ∧ Depicts us ns := by
  induction h with
  | nil => exact ⟨[], rfl, rfl, rfl, .nil⟩
  | @cons t n ts ns hn _ ih =>
    obtain ⟨us, hus, hu, hp, hd⟩ := ih
    have ht : n.toTable = .ok { t with position := some n.position } := by
      rw [hn]
      exact t.toTable_toNode n.position
    have hi : n.isTable = true := by
      rw [hn]
      rfl
    refine ⟨{ t with position := some n.position } :: us, ?_, ?_, ?_, .cons hn hd⟩
    · rw [Diagram.tablesOf_cons, if_pos hi, ht, hus]
      rfl
    · rw [List.map_cons, List.map_cons, hu]
      rfl
    · rw [List.map_cons, List.map_cons, hp]

theorem nodesFrom (h : Depicts ts ns) (grid : Grid) {places : Places} (index : Nat)
    (known : ∀ n ∈ ns, places.find? n.id = some n.position) :
    Schema.nodesFrom grid places index ts = .ok ns := by
  induction h generalizing index with
  | nil => rfl
  | @cons t n ts ns hn _ ih =>
    have hid : n.id = t.id := by
      rw [hn]
      rfl
    have hp : Schema.placeOf grid places index t = .ok n.position := by
      unfold Schema.placeOf
      rw [← hid, known n List.mem_cons_self]
    rw [Schema.nodesFrom, hp, ih (index + 1) fun m hm => known m (List.mem_cons_of_mem n hm)]
    change Except.ok (t.toNode n.position :: ns) = _
    rw [← hn]

end Depicts

namespace Diagram

theorem endpoint?_eq_none {nodes : List Node} {id : String} (h : endpoint? nodes id = none) :
    ∀ n ∈ nodes, n.id ≠ id := by
  induction nodes with
  | nil => exact nofun
  | cons m rest ih =>
    obtain ⟨later, own⟩ := Option.or_eq_none_iff.mp h
    refine List.forall_mem_cons.mpr ⟨fun same => ?_, ih later⟩
    rw [if_pos same] at own
    cases own

theorem endpoint?_eq_some {nodes : List Node} {id : String} {n : Node}
    (h : endpoint? nodes id = some n) :
    ∃ front back, nodes = front ++ n :: back ∧ n.id = id ∧ ∀ m ∈ back, m.id ≠ id := by
  induction nodes with
  | nil => cases h
  | cons m rest ih =>
    rw [endpoint?] at h
    cases later : endpoint? rest id with
    | some k =>
      rw [later] at h
      cases h
      obtain ⟨front, back, rfl, own, last⟩ := ih later
      exact ⟨m :: front, back, rfl, own, last⟩
    | none =>
      rw [later, Option.none_or] at h
      split at h
      · cases h
        exact ⟨[], rest, rfl, ‹_›, endpoint?_eq_none later⟩
      · cases h

theorem mem_of_endpoint? {nodes : List Node} {id : String} {n : Node}
    (h : endpoint? nodes id = some n) : n ∈ nodes ∧ n.id = id := by
  obtain ⟨front, back, rfl, own, -⟩ := endpoint?_eq_some h
  exact ⟨List.mem_append_right front List.mem_cons_self, own⟩

theorem endpoint?_of_mem {nodes : List Node} (distinct : (nodes.map Node.id).Nodup) {n : Node}
    (hn : n ∈ nodes) : endpoint? nodes n.id = some n := by
  induction nodes with
  | nil => cases hn
  | cons m rest ih =>
    obtain ⟨hm, hd⟩ := List.nodup_cons.mp distinct
    rw [endpoint?]
    rcases List.mem_cons.mp hn with rfl | hn
    · have hr : endpoint? rest n.id = none := by
        cases he : endpoint? rest n.id with
        | none => rfl
        | some k =>
          obtain ⟨hk, hi⟩ := mem_of_endpoint? he
          exact absurd (List.mem_map.mpr ⟨k, hk, hi⟩) hm
      rw [hr, if_pos rfl]
      rfl
    · rw [ih hd hn]
      rfl

theorem find?_ofNodes (nodes : List Node) (id : String) :
    (Places.ofNodes nodes).find? id = (endpoint? nodes id).map Node.position := by
  induction nodes with
  | nil => rfl
  | cons n rest ih =>
    change (Places.find? (Places.ofNodes rest) id).or _ = _
    rw [ih, endpoint?]
    cases endpoint? rest id with
    | some m => rfl
    | none =>
      by_cases hn : n.id = id
      · simp only [if_pos hn]
        rfl
      · simp only [if_neg hn]
        rfl

end Diagram

namespace Schema

variable {s : Schema} {grid : Grid} {places : Places}

theorem nodesFrom_depicts (index : Nat) {ts : List Table}
    (placed : ∀ i t, ts[i]? = some t → ∃ p, placeOf grid places (index + i) t = .ok p) :
    ∃ ns, nodesFrom grid places index ts = .ok ns ∧ Depicts ts ns := by
  induction ts generalizing index with
  | nil => exact ⟨[], rfl, .nil⟩
  | cons t rest ih =>
    obtain ⟨p, hp⟩ := placed 0 t rfl
    have hr : ∀ i u, rest[i]? = some u →
        ∃ p, placeOf grid places (index + 1 + i) u = .ok p := by
      intro i u hu
      rw [Nat.add_assoc, Nat.add_comm 1 i]
      exact placed (i + 1) u hu
    obtain ⟨ns, hns, hd⟩ := ih (index + 1) hr
    refine ⟨t.toNode p :: ns, ?_, .cons rfl hd⟩
    rw [Nat.add_zero] at hp
    rw [nodesFrom, hp, hns]
    rfl

theorem table?_of_named {name : String} (h : ∃ t ∈ s.tables, t.name = name) :
    ∃ t ∈ s.tables, s.table? name = some t ∧ t.name = name := by
  cases ht : s.table? name with
  | none =>
    obtain ⟨t, hm, hn⟩ := h
    have := List.find?_eq_none.mp ht t hm
    simp [hn] at this
  | some t => exact ⟨t, List.mem_of_find?_eq_some ht, rfl, by simpa using List.find?_some ht⟩

/-- A relationship between tables of the schema comes back from its edge, whatever its columns are
    called. -/
theorem relationshipOf_edgeOf {ns : List Node} (shown : Depicts s.tables ns)
    (distinct : (s.tables.map Table.id).Nodup) (identified : ∀ t ∈ s.tables, t.id ≠ "")
    {r : Relationship} (source : ∃ t ∈ s.tables, t.name = r.fromTable)
    (target : ∃ t ∈ s.tables, t.name = r.toTable) :
    ∃ e, s.edgeOf r = .ok e ∧ Diagram.relationshipOf ns e = .ok (some r) := by
  obtain ⟨a, ha, hfa, hna⟩ := table?_of_named source
  obtain ⟨b, hb, hfb, hnb⟩ := table?_of_named target
  rw [← shown.ids] at distinct
  -- the first table of a name is found again by its id, although others may have its name
  have found : ∀ t ∈ s.tables, ∃ p, Diagram.endpoint? ns t.id = some (t.toNode p) := by
    intro t ht
    obtain ⟨n, hn, he⟩ := shown.exists_node ht
    have hi : t.id = n.id := by
      rw [he]
      rfl
    refine ⟨n.position, ?_⟩
    rw [hi, ← he]
    exact Diagram.endpoint?_of_mem distinct hn
  obtain ⟨p, hp⟩ := found a ha
  obtain ⟨q, hq⟩ := found b hb
  refine ⟨_, by rw [edgeOf, hfa, hfb], ?_⟩
  unfold Diagram.relationshipOf
  have hc : Diagram.cardinality? (some r.cardinality.spelling) = some r.cardinality := by
    cases r.cardinality <;> rfl
  have hne : ¬ (a.id = "" ∨ b.id = "") := not_or.mpr ⟨identified a ha, identified b hb⟩
  simp only [if_neg hne, hp, hq, hc]
  change Except.ok (some (Relationship.mk r.id a.name (Handle.column (some _)) b.name _ _)) = _
  rw [Handle.column_ofColumn, hna, hnb]
  rfl

theorem exists_edges {ns : List Node} {rs : List Relationship}
    (back : ∀ r ∈ rs, ∃ e, s.edgeOf r = .ok e ∧ Diagram.relationshipOf ns e = .ok (some r)) :
    ∃ es, rs.mapM s.edgeOf = .ok es ∧ Diagram.relationshipsOf ns es = .ok rs := by
  induction rs with
  | nil => exact ⟨[], rfl, rfl⟩
  | cons r rest ih =>
    obtain ⟨e, he, hr⟩ := back r List.mem_cons_self
    obtain ⟨es, hes, hrs⟩ := ih fun q hq => back q (List.mem_cons_of_mem r hq)
    refine ⟨e :: es, ?_, ?_⟩
    · rw [List.mapM_cons, he, hes]
      rfl
    · rw [Diagram.relationshipsOf, hr, hrs]
      rfl

theorem edgeOf_unplaced (s : Schema) (r : Relationship) : s.unplaced.edgeOf r = s.edgeOf r := by
  have ht : ∀ name, s.unplaced.table? name = (s.table? name).map Table.unplaced := by
    intro name
    unfold table? unplaced
    rw [List.find?_map]
    rfl
  unfold edgeOf
  rw [ht, ht]
  cases s.table? r.fromTable with
  | none => rfl
  | some a => cases s.table? r.toTable <;> rfl

theorem toEdges_of_unplaced {u : Schema} (h : u.unplaced = s.unplaced) : u.toEdges = s.toEdges := by
  have he : u.edgeOf = s.edgeOf := by
    funext r
    rw [← edgeOf_unplaced, h, edgeOf_unplaced]
  have hr : u.unplaced.relationships = s.unplaced.relationships := by rw [h]
  change u.relationships = s.relationships at hr
  unfold toEdges
  rw [he, hr]

theorem placeOf_ok (width : grid.columns ≠ 0) {index : Nat} {t : Table}
    (reach : places.find? t.id = none → t.position = none → grid.Reaches index) :
    ∃ p, placeOf grid places index t = .ok p := by
  unfold placeOf
  cases hp : places.find? t.id with
  | some p => exact ⟨p, rfl⟩
  | none =>
    cases hq : t.position with
    | some p => exact ⟨p, rfl⟩
    | none => exact Grid.place_ok width (reach hp hq)

/-- A schema that is shown as a diagram comes back from it, and so does the diagram from the schema
    that has come back. -/
theorem reduce_project (distinct : (s.tables.map Table.id).Nodup)
    (identified : ∀ t ∈ s.tables, t.id ≠ "")
    (named : ∀ r ∈ s.relationships,
      (∃ t ∈ s.tables, t.name = r.fromTable) ∧ ∃ t ∈ s.tables, t.name = r.toTable)
    (width : grid.columns ≠ 0)
    (reach : ∀ (i : Nat) t, s.tables[i]? = some t → places.find? t.id = none → t.position = none →
      grid.Reaches i) :
    ∃ d u, s.project grid places = .ok d ∧ d.reduce = .ok u ∧
      u.tables.map Table.unplaced = s.tables.map Table.unplaced ∧
      u.tables.map Table.position = d.nodes.map (fun n => some n.position) ∧
      d.nodes.map Node.id = s.tables.map Table.id ∧
      u.relationships = s.relationships ∧
      u.project grid (Places.ofNodes d.nodes) = .ok d := by
  obtain ⟨ns, hns, shown⟩ := nodesFrom_depicts 0 fun i t ht =>
    placeOf_ok width (by rw [Nat.zero_add]; exact reach i t ht)
  obtain ⟨es, hes, hrs⟩ := exists_edges fun r hr =>
    relationshipOf_edgeOf shown distinct identified (named r hr).1 (named r hr).2
  obtain ⟨us, hus, hu, hp, again⟩ := shown.tablesOf
  have known : ∀ n ∈ ns, (Places.ofNodes ns).find? n.id = some n.position := by
    intro n hn
    rw [Diagram.find?_ofNodes, Diagram.endpoint?_of_mem (shown.ids ▸ distinct) hn]
    rfl
  have same : Schema.unplaced ⟨us, s.relationships⟩ = s.unplaced := by
    unfold unplaced
    rw [hu]
  have hes' : Schema.toEdges ⟨us, s.relationships⟩ = .ok es := (toEdges_of_unplaced same).trans hes
  refine ⟨⟨ns, es⟩, ⟨us, s.relationships⟩, ?_, ?_, hu, hp, shown.ids, rfl, ?_⟩
  · unfold project toNodes toEdges
    rw [hns, hes]
    rfl
  · unfold Diagram.reduce
    rw [hus, hrs]
    rfl
  · unfold project toNodes
    rw [again.nodesFrom grid 0 known, hes']
    rfl

/-- The grid is far too wide to the left for a second table to find its place. -/
theorem overflow_of_wide_grid :
    let s : Schema := { tables := [{ id := "a", name := "a" }, { id := "b", name := "b" }] }
    let grid : Grid := { columns := -10 ^ 400, spacingX := 0.0, spacingY := 0.0 }
    (s.tables.map Table.id).Nodup ∧ (∀ t ∈ s.tables, t.id ≠ "") ∧ s.relationships = [] ∧
      grid.columns ≠ 0 ∧ s.project grid [] = .error .hugeIndex := by
  decide +kernel

def namesakes : Schema where
  tables := [
    { id := "a", name := "t", columns := [{ name := "x-source", type := "int" }] },
    { id := "b", name := "t", columns := [{ name := "", type := "" }], comment := some "" },
    { id := "c", name := "", position := some ⟨1.5, -2.0⟩ }]
  relationships := [
    { id := "r", fromTable := "t", fromColumn := "x-source", toTable := "", toColumn := "" },
    { id := "r", fromTable := "", fromColumn := "", toTable := "t", toColumn := "-source",
      cardinality := .manyToMany }]

theorem reduce_project_namesakes :
    ∃ d u, namesakes.project {} [("b", ⟨0.0, 7.25⟩)] = .ok d ∧ d.reduce = .ok u ∧
      u.tables.map Table.unplaced = namesakes.tables.map Table.unplaced ∧
      u.relationships = namesakes.relationships ∧
      u.project {} (Places.ofNodes d.nodes) = .ok d := by
  have distinct : (namesakes.tables.map Table.id).Nodup := by decide
  have identified : ∀ t ∈ namesakes.tables, t.id ≠ "" := by decide
  have named : ∀ r ∈ namesakes.relationships, (∃ t ∈ namesakes.tables, t.name = r.fromTable) ∧
      ∃ t ∈ namesakes.tables, t.name = r.toTable := by decide
  have width : ({} : Grid).columns ≠ 0 := by decide
  have reach : ∀ (i : Nat) t, namesakes.tables[i]? = some t →
      Places.find? [("b", ⟨0.0, 7.25⟩)] t.id = none → t.position = none →
      Grid.Reaches {} i := by
    intro i t ht _ _
    have hi : i < 3 := (List.getElem?_eq_some_iff.mp ht).1
    exact Grid.reaches_of_pos (by decide) (Nat.lt_trans hi (by decide +kernel))
  obtain ⟨d, u, hd, hu, ht, -, -, hr, again⟩ :=
    reduce_project distinct identified named width reach
  exact ⟨d, u, hd, hu, ht, hr, again⟩

end Schema

end SchemaDiagram
