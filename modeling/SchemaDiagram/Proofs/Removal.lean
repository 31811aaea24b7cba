import SchemaDiagram.Proofs.Renaming

/-!
Removals take along what depends on them, and nothing else. With a table go the relationships that name
it, with a column those that have it at an end. The diagram finds them by ids of nodes and by handles,
the schema by names; in a valid schema names are distinct, so that both find the same ones.
-/

set_option autoImplicit false

namespace SchemaDiagram

namespace Relationship

def Names (r : Relationship) (table : String) : Prop := r.fromTable = table ∨ r.toTable = table

def NamesColumn (r : Relationship) (table column : String) : Prop :=
  r.fromTable = table ∧ r.fromColumn = column ∨ r.toTable = table ∧ r.toColumn = column

instance (r : Relationship) (table : String) : Decidable (r.Names table) :=
  inferInstanceAs (Decidable (_ ∨ _))

instance (r : Relationship) (table column : String) : Decidable (r.NamesColumn table column) :=
  inferInstanceAs (Decidable (_ ∨ _))

end Relationship

namespace Schema

def withoutTable (s : Schema) (t : Table) : Schema where
  tables := s.tables.filter fun u => u ≠ t
  relationships := s.relationships.filter fun r => ¬ r.Names t.name

def withoutColumn (s : Schema) (t : Table) (c : Column) : Schema where
  tables := s.tables.map fun u =>
    if u = t then { t with columns := t.columns.filter fun b => b ≠ c } else u
  relationships := s.relationships.filter fun r => ¬ r.NamesColumn t.name c.name

variable {s : Schema} {t : Table}

theorem WellFormed.withoutTable (h : s.WellFormed) (t : Table) :
    ∀ r ∈ (s.withoutTable t).relationships, r.WellFormed (s.withoutTable t).tables := by
  have ends {table column : String} (other : table ≠ t.name) (he : EndsAt s.tables table column) :
      EndsAt (s.withoutTable t).tables table column := by
    obtain ⟨u, hu, rfl, offers⟩ := he
    have kept : u ≠ t := fun same => other (by rw [same])
    exact ⟨u, List.mem_filter.mpr ⟨hu, decide_eq_true kept⟩, rfl, offers⟩
  intro r hr
  obtain ⟨hr, unnamed⟩ := List.mem_filter.mp hr
  obtain ⟨source', target'⟩ := not_or.mp (of_decide_eq_true unnamed)
  obtain ⟨source, target, apart⟩ := h.relationships r hr
  exact ⟨ends source' source, ends target' target, apart⟩

theorem WellFormed.withoutColumn (h : s.WellFormed) (t : Table) (c : Column) :
    ∀ r ∈ (s.withoutColumn t c).relationships, r.WellFormed (s.withoutColumn t c).tables := by
  have ends {table column : String} (other : ¬ (table = t.name ∧ column = c.name))
      (he : EndsAt s.tables table column) : EndsAt (s.withoutColumn t c).tables table column := by
    obtain ⟨u, hu, rfl, offers⟩ := he
    refine ⟨_, List.mem_map_of_mem hu, ?_, fun hne => ?_⟩
    · split
      · rename_i same
        rw [same]
      · rfl
    · obtain ⟨b, hb, rfl⟩ := offers hne
      refine ⟨b, ?_, rfl⟩
      split
      · rename_i same
        rw [same] at hb other
        exact List.mem_filter.mpr ⟨hb, decide_eq_true fun he => other ⟨rfl, by rw [he]⟩⟩
      · exact hb
  intro r hr
  obtain ⟨hr, unnamed⟩ := List.mem_filter.mp hr
  obtain ⟨source', target'⟩ := not_or.mp (of_decide_eq_true unnamed)
  obtain ⟨source, target, apart⟩ := h.relationships r hr
  exact ⟨ends source' source, ends target' target, apart⟩

end Schema

namespace Diagram

variable {d : Diagram} {s : Schema}

structure Pictured (d : Diagram) (t : Table) (n : Node) : Prop where
  mem : n ∈ d.nodes
  id : t.id = n.id
  label : n.data.label = .text t.name
  table : n.toTable = .ok t

theorem exists_pictured (reduced : d.reduce = .ok s) {t : Table} (ht : t ∈ s.tables) :
    ∃ n, d.Pictured t n := by
  obtain ⟨n, hn, hnt⟩ := exists_of_mem_left (reduce_ok_iff.mp reduced).1 ht
  obtain ⟨id, name, -⟩ := of_toTable hnt
  exact ⟨n, List.mem_of_mem_filter hn, id, name.symm, hnt⟩

theorem labels_nodup (tabled : d.Tabled) (reduced : d.reduce = .ok s)
    (distinct : (s.tables.map Table.name).Nodup) : (d.nodes.map fun n => n.data.label).Nodup := by
  have shown := (reduce_ok_iff.mp reduced).1
  rw [List.filter_eq_self.mpr tabled.tables] at shown
  exact (names_nodup_iff shown).mp distinct

namespace Pictured

variable {t : Table} {n : Node} (h : d.Pictured t n)
include h

theorem eq_iff (tabled : d.Tabled) {u : Table} {m : Node} (hm : m ∈ d.nodes)
    (hu : m.toTable = .ok u) : u = t ↔ m.id = n.id := by
  constructor
  · rintro rfl
    rw [← (of_toTable hu).1, h.id]
  · intro same
    rw [tabled.eq_of_id hm h.mem same, h.table] at hu
    exact (Except.ok.inj hu).symm

theorem ends_iff (tabled : d.Tabled) (labels : (d.nodes.map fun m => m.data.label).Nodup) {e : Edge}
    {r : Relationship} (related : Relates d.nodes e r) :
    (e.source = n.id ↔ r.fromTable = t.name) ∧ (e.target = n.id ↔ r.toTable = t.name) :=
  ⟨end_iff tabled.ids labels h.mem h.label related.source,
    end_iff tabled.ids labels h.mem h.label related.target⟩

theorem reduce_withoutTable (tabled : d.Tabled) (reduced : d.reduce = .ok s)
    (labels : (d.nodes.map fun m => m.data.label).Nodup) :
    (filterEdges (fun e => e.source ≠ n.id ∧ e.target ≠ n.id)
      (filterNodes (fun m => m.id ≠ n.id) d)).reduce = .ok (s.withoutTable t) := by
  refine reduce_filtered reduced (fun u _ m hm hu => ?_) (fun r _ e _ related => ?_)
    fun e _ kept id at_ m _ hi => ?_
  · exact decide_eq_decide.mpr (not_congr (h.eq_iff tabled hm hu))
  · obtain ⟨source, target⟩ := h.ends_iff tabled labels related
    refine decide_eq_decide.mpr ?_
    rw [Relationship.Names, not_or, ne_eq, ne_eq, source, target]
  · obtain ⟨source, target⟩ := of_decide_eq_true kept
    refine decide_eq_true fun same => ?_
    rcases at_ with rfl | rfl
    · exact source (hi.symm.trans same)
    · exact target (hi.symm.trans same)

theorem columns_withoutColumn (distinct : (n.data.columns.map NodeColumn.title).Nodup)
    {c : NodeColumn} (hc : c ∈ n.data.columns) :
    (n.data.columns.filter fun b => b.title ≠ c.title).map NodeColumn.toColumn =
      t.columns.filter fun b => b ≠ c.toColumn := by
  rw [columns_of_toTable h.table]
  refine (filter_map_of fun b hb => ?_).symm
  refine decide_eq_decide.mpr (not_congr ⟨fun same => congrArg Column.name same, fun same => ?_⟩)
  rw [List.inj_on_of_nodup_map distinct hb hc same]

theorem reduce_withoutColumn (tabled : d.Tabled) (reduced : d.reduce = .ok s)
    (labels : (d.nodes.map fun m => m.data.label).Nodup)
    (distinct : (n.data.columns.map NodeColumn.title).Nodup) {c : NodeColumn}
    (hc : c ∈ n.data.columns) :
    (filterEdges (fun e => c.title ∉ columnsAt e n.id) (d.putData n.id
      { n.data with columns := n.data.columns.filter fun b => b.title ≠ c.title })).reduce =
      .ok (s.withoutColumn t c.toColumn) := by
  -- edges first: the columns of a node make no difference to them
  have filtered : (filterEdges (fun e => c.title ∉ columnsAt e n.id) d).reduce =
      .ok { s with relationships :=
        s.relationships.filter fun r => ¬ r.NamesColumn t.name c.toColumn.name } := by
    refine reduce_filterEdges reduced fun r _ e _ related => decide_eq_decide.mpr ?_
    obtain ⟨source, target⟩ := h.ends_iff tabled labels related
    rw [not_mem_columnsAt, source, target, ← related.sourceColumn, ← related.targetColumn,
      Relationship.NamesColumn, not_or, not_and, not_and]
    exact and_congr (imp_congr_right fun _ => ne_comm) (imp_congr_right fun _ => ne_comm)
  have put := reduce_putColumns (d := filterEdges (fun e => c.title ∉ columnsAt e n.id) d)
    tabled.ids filtered h.mem (n.data.columns.filter fun b => b.title ≠ c.title)
  have tables : (s.tables.map fun u => if u.id = n.id then { u with
      columns := (n.data.columns.filter fun b => b.title ≠ c.title).map NodeColumn.toColumn } else u) =
      (s.withoutColumn t c.toColumn).tables := by
    refine List.map_congr_left fun u hu => ?_
    obtain ⟨m, pictured⟩ := exists_pictured reduced hu
    have same := h.eq_iff tabled pictured.mem pictured.table
    rw [← pictured.id] at same
    by_cases he : u = t
    · rw [if_pos (same.mp he), if_pos he, h.columns_withoutColumn distinct hc, he]
    · rw [if_neg (mt same.mpr he), if_neg he]
  rw [tables] at put
  exact put

end Pictured

/-- In a diagram of tables that reduces to a valid schema, to remove a table takes it out of the schema
    with exactly the relationships that name it, and to remove a column takes that out with exactly
    those that have it at an end. What is left refers to nothing that is gone. -/
theorem reduce_removals (tabled : d.Tabled) (reduced : d.reduce = .ok s)
    (valid : s.check.valid = true) {t : Table} (ht : t ∈ s.tables) :
    ((∃ d', (removeTable (.str t.id)).run d = .ok () d' ∧ d'.reduce = .ok (s.withoutTable t)) ∧
      ∀ r ∈ (s.withoutTable t).relationships,
        ¬ r.Names t.name ∧ r.WellFormed (s.withoutTable t).tables) ∧
    ∀ c ∈ t.columns,
      (∃ d', (removeColumn (.str t.id) (.str c.name)).run d = .ok () d' ∧
        d'.reduce = .ok (s.withoutColumn t c)) ∧
      ∀ r ∈ (s.withoutColumn t c).relationships,
        ¬ r.NamesColumn t.name c.name ∧ r.WellFormed (s.withoutColumn t c).tables := by
  have wellFormed := (Schema.issues_eq_nil s).mp (List.isEmpty_iff.mp valid)
  have labels := labels_nodup tabled reduced wellFormed.distinct
  obtain ⟨n, pictured⟩ := exists_pictured reduced ht
  have found : d.node? (.str t.id) = some n := by
    rw [pictured.id]
    exact node?_of_mem tabled.ids pictured.mem
  refine ⟨⟨⟨_, removeTable_ok.mpr ⟨n, found, rfl⟩,
    pictured.reduce_withoutTable tabled reduced labels⟩, fun r hr => ?_⟩, fun c hc => ?_⟩
  · exact ⟨of_decide_eq_true (List.mem_filter.mp hr).2, wellFormed.withoutTable t r hr⟩
  · have distinct := ((wellFormed_iff_coherent pictured.table).mp (wellFormed.tables t ht)).distinct
    rw [columns_of_toTable pictured.table] at hc
    obtain ⟨b, hb, rfl⟩ := List.mem_map.mp hc
    refine ⟨⟨_, removeColumn_ok.mpr ⟨n, b, found, (requireColumn_iff distinct).mpr ⟨hb, rfl⟩, rfl⟩,
      pictured.reduce_withoutColumn tabled reduced labels distinct hb⟩, fun r hr => ?_⟩
    exact ⟨of_decide_eq_true (List.mem_filter.mp hr).2, wellFormed.withoutColumn t _ r hr⟩

theorem reduce_removals_thread :
    let posts := (threadSchema "posts" "id").tables[0]
    let users := (threadSchema "posts" "id").tables[1]
    let links := (threadSchema "posts" "id").relationships
    (∃ d', (removeTable (.str "2")).run thread = .ok () d' ∧ d'.reduce = .ok ⟨[posts], [links[0]]⟩) ∧
      ∃ d', (removeColumn (.str "1") (.str "parent")).run thread = .ok () d' ∧
        d'.reduce = .ok ⟨[{ posts with columns := [posts.columns[0]] }, users], [links[1], links[2]]⟩ := by
  have reduced : thread.reduce = .ok (threadSchema "posts" "id") := rfl
  have tabled : thread.Tabled := ⟨by decide, by decide⟩
  have valid : (threadSchema "posts" "id").check.valid = true := by decide +kernel
  have first : (threadSchema "posts" "id").tables[0] ∈ (threadSchema "posts" "id").tables :=
    List.getElem_mem _
  have second : (threadSchema "posts" "id").tables[1] ∈ (threadSchema "posts" "id").tables :=
    List.getElem_mem _
  have parent : (threadSchema "posts" "id").tables[0].columns[1] ∈
    (threadSchema "posts" "id").tables[0].columns := List.getElem_mem _
  obtain ⟨⟨⟨d', run, without⟩, -⟩, -⟩ := reduce_removals tabled reduced valid second
  obtain ⟨⟨d'', run', without'⟩, -⟩ := (reduce_removals tabled reduced valid first).2 _ parent
  refine ⟨⟨d', run, without.trans (congrArg Except.ok ?_)⟩,
    d'', run', without'.trans (congrArg Except.ok ?_)⟩
  · decide +kernel
  · decide +kernel

end Diagram

end SchemaDiagram
