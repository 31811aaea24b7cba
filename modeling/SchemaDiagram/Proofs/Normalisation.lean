import SchemaDiagram.Proofs.RoundTrip
import SchemaDiagram.Proofs.WellFormed

/-!
From a diagram to a schema and back. A schema has no room for what a diagram leaves open: flags of
columns, handles and labels come back settled, and nothing else changes. A settled diagram comes
back as it is.
-/

set_option autoImplicit false

namespace SchemaDiagram

def NodeColumn.settled (c : NodeColumn) : NodeColumn :=
  { c with
    primaryKey := some (c.primaryKey.getD false)
    nullable := some (c.nullable.getD true)
    unique := some (c.unique.getD false) }

def Node.settled (n : Node) : Node :=
  { n with data := { n.data with columns := n.data.columns.map NodeColumn.settled } }

namespace Handle

def marked (handle : Option String) : String :=
  if sourceMark.toList.isSuffixOf (handle.getD "").toList then handle.getD ""
  else handle.getD "" ++ sourceMark

end Handle

namespace Edge

def settledLabel (label : Option String) : String :=
  if label.getD "" = "" then Cardinality.oneToMany.spelling else label.getD ""

def settled (e : Edge) : Edge :=
  { e with
    sourceHandle := some (Handle.marked e.sourceHandle)
    targetHandle := some (e.targetHandle.getD "")
    type := defaultEdgeType
    label := some (settledLabel e.label) }

end Edge

def Diagram.settled (d : Diagram) : Diagram where
  nodes := d.nodes.map Node.settled
  edges := d.edges.map Edge.settled

/-- A diagram of tables with ids and names of their own. Its edges lead from table to table, and
    their labels are cardinalities where they say anything. -/
structure Diagram.Drawn (d : Diagram) : Prop where
  tables : ∀ n ∈ d.nodes, n.isTable = true
  ids : (d.nodes.map Node.id).Nodup
  identified : ∀ n ∈ d.nodes, n.id ≠ ""
  labels : (d.nodes.map fun n => n.data.label).Nodup
  labelled : ∀ n ∈ d.nodes, ∃ name, n.data.label = .text name
  sources : ∀ e ∈ d.edges, ∃ n ∈ d.nodes, n.id = e.source
  targets : ∀ e ∈ d.edges, ∃ n ∈ d.nodes, n.id = e.target
  legal : ∀ e ∈ d.edges, e.label = none ∨ e.label = some "" ∨
    ∃ c : Cardinality, e.label = some c.spelling

theorem NodeColumn.toNodeColumn_toColumn (c : NodeColumn) :
    c.toColumn.toNodeColumn = c.settled := by
  rcases c with ⟨title, type, primaryKey, foreignKey, nullable, unique, defaultValue, increment⟩
  rcases primaryKey with _ | _ | _ <;> rcases nullable with _ | _ | _ <;>
    rcases unique with _ | _ | _ <;> rfl

theorem NodeColumn.settled_settled (c : NodeColumn) : c.settled.settled = c.settled := rfl

theorem Node.settled_settled (n : Node) : n.settled.settled = n.settled := by
  have hc : (n.data.columns.map NodeColumn.settled).map NodeColumn.settled =
      n.data.columns.map NodeColumn.settled := by
    rw [List.map_map]
    exact List.map_congr_left fun c _ => c.settled_settled
  unfold settled
  rw [hc]

namespace Handle

theorem ofColumn_column (handle : Option String) : ofColumn (column handle) = marked handle := by
  unfold column marked ofColumn
  by_cases h : sourceMark.toList.isSuffixOf (handle.getD "").toList = true
  · -- what stands before the mark, with the mark behind it, is the handle
    obtain ⟨front, hf⟩ := List.isSuffixOf_iff_suffix.mp h
    have before : (handle.getD "").toList.take
        ((handle.getD "").toList.length - sourceMark.toList.length) = front := by
      rw [← hf, List.length_append, Nat.add_sub_cancel, List.take_left]
    simp only [if_pos h, before]
    rw [← String.toList_inj, String.toList_append, String.toList_ofList, hf]
  · simp only [if_neg h, String.ofList_toList]

theorem marked_marked (handle : Option String) : marked (some (marked handle)) = marked handle := by
  rw [← ofColumn_column handle, ← ofColumn_column, column_ofColumn]

end Handle

namespace Edge

theorem settledLabel_legal {label : Option String}
    (legal : label = none ∨ label = some "" ∨ ∃ c : Cardinality, label = some c.spelling) :
    ∃ c, Diagram.cardinality? label = some c ∧ settledLabel label = c.spelling := by
  rcases legal with rfl | rfl | ⟨c, rfl⟩
  · exact ⟨.oneToMany, rfl, rfl⟩
  · exact ⟨.oneToMany, rfl, rfl⟩
  · refine ⟨c, ?_, ?_⟩ <;> cases c <;> rfl

theorem settledLabel_ne_empty (label : Option String) : settledLabel label ≠ "" := by
  unfold settledLabel
  split
  · decide
  · assumption

theorem settled_settled (e : Edge) : e.settled.settled = e.settled := by
  have hl : settledLabel (some (settledLabel e.label)) = settledLabel e.label :=
    if_neg (settledLabel_ne_empty e.label)
  unfold settled
  simp only [Handle.marked_marked, hl, Option.getD_some]

end Edge

namespace Diagram

theorem settled_settled (d : Diagram) : d.settled.settled = d.settled := by
  have hn : (d.nodes.map Node.settled).map Node.settled = d.nodes.map Node.settled := by
    rw [List.map_map]
    exact List.map_congr_left fun n _ => n.settled_settled
  have he : (d.edges.map Edge.settled).map Edge.settled = d.edges.map Edge.settled := by
    rw [List.map_map]
    exact List.map_congr_left fun e _ => e.settled_settled
  unfold settled
  rw [hn, he]

theorem of_toTable {n : Node} {t : Table} (h : n.toTable = .ok t) :
    t.id = n.id ∧ .text t.name = n.data.label ∧
      (n.isTable = true → n.settled = t.toNode n.position) := by
  rcases n with ⟨id, type, position, label, comment, columns⟩
  cases label with
  | malformed v => cases h
  | text name =>
    cases h
    refine ⟨rfl, rfl, fun ht => ?_⟩
    have hc : columns.map NodeColumn.settled =
        (columns.map NodeColumn.toColumn).map Column.toNodeColumn := by
      rw [List.map_map]
      exact List.map_congr_left fun c _ => c.toNodeColumn_toColumn.symm
    have hy : type = tableNodeType := by simpa [Node.isTable] using ht
    unfold Node.settled Table.toNode
    rw [hc, hy]

theorem tablesOf_labelled {nodes : List Node} (tables : ∀ n ∈ nodes, n.isTable = true)
    (labelled : ∀ n ∈ nodes, ∃ name, n.data.label = .text name) :
    ∃ us, tablesOf nodes = .ok us ∧ List.Forall₂ (fun t n => n.toTable = .ok t) us nodes := by
  induction nodes with
  | nil => exact ⟨[], rfl, .nil⟩
  | cons n rest ih =>
    obtain ⟨us, hus, hr⟩ := ih (fun m hm => tables m (List.mem_cons_of_mem n hm))
      fun m hm => labelled m (List.mem_cons_of_mem n hm)
    obtain ⟨name, hn⟩ := labelled n List.mem_cons_self
    have ht : ∃ t, n.toTable = .ok t := by
      unfold Node.toTable
      rw [hn]
      exact ⟨_, rfl⟩
    obtain ⟨t, ht⟩ := ht
    refine ⟨t :: us, ?_, .cons ht hr⟩
    rw [tablesOf_cons, if_pos (tables n List.mem_cons_self), ht, hus]
    rfl

theorem tablesOf_ok_iff {nodes : List Node} {us : List Table} :
    tablesOf nodes = .ok us ↔
      List.Forall₂ (fun t n => n.toTable = .ok t) us (nodes.filter Node.isTable) :=
  Result.mapM_ok

variable {d : Diagram} {us : List Table}

theorem depicts_settled {nodes : List Node} (tables : ∀ n ∈ nodes, n.isTable = true)
    (shown : List.Forall₂ (fun t n => n.toTable = .ok t) us nodes) :
    Depicts us (nodes.map Node.settled) := by
  induction shown with
  | nil => exact .nil
  | @cons t n us nodes ht _ ih =>
    have hn : n.settled = t.toNode n.position := (of_toTable ht).2.2 (tables n List.mem_cons_self)
    exact .cons hn (ih fun m hm => tables m (List.mem_cons_of_mem n hm))

theorem names_of_shown {nodes : List Node}
    (shown : List.Forall₂ (fun t n => n.toTable = .ok t) us nodes) :
    us.map (fun t => Label.text t.name) = nodes.map fun n => n.data.label := by
  induction shown with
  | nil => rfl
  | cons ht _ ih => rw [List.map_cons, List.map_cons, ih, (of_toTable ht).2.1]

theorem names_nodup_iff {nodes : List Node}
    (shown : List.Forall₂ (fun t n => n.toTable = .ok t) us nodes) :
    (us.map Table.name).Nodup ↔ (nodes.map fun n => n.data.label).Nodup := by
  have texts : us.map (fun t => Label.text t.name) = (us.map Table.name).map Label.text :=
    List.map_map.symm
  rw [← names_of_shown shown, texts]
  exact (List.nodup_map_iff fun x y same => Label.text.inj same).symm

/-- The ends of an edge are found by their ids on the way to the schema, and by their labels on the
    way back. -/
theorem Drawn.edgeOf_relationshipOf (h : d.Drawn)
    (shown : List.Forall₂ (fun t n => n.toTable = .ok t) us d.nodes) {s : Schema}
    (hs : s.tables = us) {e : Edge} (he : e ∈ d.edges) :
    ∃ r, relationshipOf d.nodes e = .ok (some r) ∧ s.edgeOf r = .ok e.settled := by
  have names : (us.map Table.name).Nodup := (names_nodup_iff shown).mpr h.labels
  -- an end of the edge is a node with the label of a table that is found by its name
  have ends : ∀ id, (∃ n ∈ d.nodes, n.id = id) → id ≠ "" ∧ ∃ n t, endpoint? d.nodes id = some n ∧
      n.data.label = .text t.name ∧ t.id = id ∧ s.table? t.name = some t := by
    rintro id ⟨n, hn, rfl⟩
    obtain ⟨t, ht, hnt⟩ := exists_of_mem_right shown hn
    obtain ⟨hi, hl, -⟩ := of_toTable hnt
    refine ⟨h.identified n hn, n, t, endpoint?_of_mem h.ids hn, hl.symm, hi, ?_⟩
    subst hs
    exact (Schema.registered?_eq_some names).mpr ⟨ht, rfl⟩
  obtain ⟨hs, n, a, hn, hla, hia, hfa⟩ := ends e.source (h.sources e he)
  obtain ⟨ht, m, b, hm, hlb, hib, hfb⟩ := ends e.target (h.targets e he)
  obtain ⟨c, hc, hl⟩ := Edge.settledLabel_legal (h.legal e he)
  refine ⟨⟨e.id, a.name, Handle.column e.sourceHandle, b.name, e.targetHandle.getD "", c⟩, ?_, ?_⟩
  · unfold relationshipOf
    simp only [if_neg (not_or.mpr ⟨hs, ht⟩), hn, hm, hc, hla, hlb]
    rfl
  · unfold Schema.edgeOf Edge.settled
    simp only [hfa, hfb, hia, hib, Handle.ofColumn_column, hl]

theorem Drawn.relationshipsOf (h : d.Drawn)
    (shown : List.Forall₂ (fun t n => n.toTable = .ok t) us d.nodes) {s : Schema}
    (hs : s.tables = us) {es : List Edge} (part : ∀ e ∈ es, e ∈ d.edges) :
    ∃ rs, Diagram.relationshipsOf d.nodes es = .ok rs ∧
      rs.mapM s.edgeOf = .ok (es.map Edge.settled) := by
  induction es with
  | nil => exact ⟨[], rfl, rfl⟩
  | cons e rest ih =>
    obtain ⟨r, hr, he⟩ := h.edgeOf_relationshipOf shown hs (part e List.mem_cons_self)
    obtain ⟨rs, hrs, hes⟩ := ih fun f hf => part f (List.mem_cons_of_mem e hf)
    refine ⟨r :: rs, ?_, ?_⟩
    · rw [Diagram.relationshipsOf, hr, hrs]
      rfl
    · rw [List.mapM_cons, he, hes]
      rfl

theorem Drawn.project_reduce_settled (h : d.Drawn) (grid : Grid) :
    ∃ u, d.reduce = .ok u ∧ u.project grid (Places.ofNodes d.nodes) = .ok d.settled := by
  obtain ⟨us, hus, shown⟩ := tablesOf_labelled h.tables h.labelled
  -- the edges of relationships depend on the tables alone
  obtain ⟨rs, hrs, hes⟩ := h.relationshipsOf shown (s := ⟨us, []⟩) rfl fun e he => he
  have known : ∀ n ∈ d.nodes.map Node.settled,
      (Places.ofNodes d.nodes).find? n.id = some n.position := by
    intro n hn
    obtain ⟨m, hm, rfl⟩ := List.mem_map.mp hn
    have hi : m.settled.id = m.id := rfl
    rw [find?_ofNodes, hi, endpoint?_of_mem h.ids hm]
    rfl
  refine ⟨⟨us, rs⟩, ?_, ?_⟩
  · unfold reduce
    rw [hus, hrs]
    rfl
  · unfold Schema.project Schema.toNodes Schema.toEdges
    have hes' : rs.mapM (Schema.edgeOf ⟨us, rs⟩) = .ok (d.edges.map Edge.settled) := hes
    rw [(depicts_settled h.tables shown).nodesFrom grid 0 known, hes']
    rfl

theorem Drawn.settled (h : d.Drawn) : d.settled.Drawn := by
  have ids : d.settled.nodes.map Node.id = d.nodes.map Node.id := List.map_map
  have labels : (d.settled.nodes.map fun n => n.data.label) = d.nodes.map fun n => n.data.label :=
    List.map_map
  have ends : ∀ id, (∃ n ∈ d.nodes, n.id = id) → ∃ n ∈ d.settled.nodes, n.id = id := by
    rintro id ⟨n, hn, hi⟩
    exact ⟨n.settled, List.mem_map_of_mem hn, hi⟩
  refine
    { tables := List.forall_mem_map.mpr h.tables
      ids := ids ▸ h.ids
      identified := List.forall_mem_map.mpr h.identified
      labels := labels ▸ h.labels
      labelled := List.forall_mem_map.mpr h.labelled
      sources := List.forall_mem_map.mpr fun e he => ends e.source (h.sources e he)
      targets := List.forall_mem_map.mpr fun e he => ends e.target (h.targets e he)
      legal := List.forall_mem_map.mpr fun e he => ?_ }
  obtain ⟨c, -, hl⟩ := Edge.settledLabel_legal (h.legal e he)
  exact .inr (.inr ⟨c, congrArg some hl⟩)

/-- A diagram goes to a schema and comes back settled; once it is settled it comes back as it is. -/
theorem project_reduce (d : Diagram) (grid : Grid) (h : d.Drawn) :
    (∃ u, d.reduce = .ok u ∧ u.project grid (Places.ofNodes d.nodes) = .ok d.settled) ∧
      ∃ u, d.settled.reduce = .ok u ∧
        u.project grid (Places.ofNodes d.settled.nodes) = .ok d.settled := by
  refine ⟨h.project_reduce_settled grid, ?_⟩
  obtain ⟨u, hu, hp⟩ := h.settled.project_reduce_settled grid
  rw [settled_settled] at hp
  exact ⟨u, hu, hp⟩

def sketch : Diagram where
  nodes := [
    { id := "1", position := ⟨1.5, -2.0⟩,
      data := ⟨.text "users", some "", [
        { title := "id", type := "int", primaryKey := some true, unique := none },
        { title := "", nullable := some false, primaryKey := some false }]⟩ },
    { id := "2", data := { label := .text "" } }]
  edges := [
    { id := "e", source := "1", target := "2", sourceHandle := some "id-source" },
    { id := "e", source := "2", target := "2", sourceHandle := some "x", targetHandle := some "y",
      type := "step", label := some "" },
    { id := "f", source := "2", target := "1", sourceHandle := some "a-source-source",
      label := some "MANY_TO_MANY" }]

theorem sketch_drawn : sketch.Drawn where
  tables := by decide
  ids := by decide
  identified := by decide
  labels := by decide
  labelled := by
    intro n hn
    simp only [sketch, List.mem_cons, List.not_mem_nil, or_false] at hn
    rcases hn with rfl | rfl <;> exact ⟨_, rfl⟩
  sources := by decide
  targets := by decide
  legal := by
    intro e he
    simp only [sketch, List.mem_cons, List.not_mem_nil, or_false] at he
    rcases he with rfl | rfl | rfl
    · exact .inl rfl
    · exact .inr (.inl rfl)
    · exact .inr (.inr ⟨.manyToMany, rfl⟩)

theorem project_reduce_sketch :
    sketch.settled ≠ sketch ∧
      (∃ u, sketch.reduce = .ok u ∧
        u.project {} (Places.ofNodes sketch.nodes) = .ok sketch.settled) ∧
      ∃ u, sketch.settled.reduce = .ok u ∧
        u.project {} (Places.ofNodes sketch.settled.nodes) = .ok sketch.settled :=
  ⟨by decide +kernel, project_reduce sketch {} sketch_drawn⟩

end Diagram

end SchemaDiagram
