import SchemaDiagram.Proofs.ColumnUpdates
import SchemaDiagram.Proofs.CommitConditions
import SchemaDiagram.Proofs.Correspondence

/-!
Renaming is substitution. A table's new name goes to the ends of relationships that had its old one, a
column's new title to the ends that are attached to its node and named it; nothing else of the schema
changes, and giving the old name again takes the renaming back. Edges know nodes by id and columns by
handles of two kinds, while relationships have names only, so both are compared in the reduced schema.
-/

set_option autoImplicit false

namespace SchemaDiagram

open Diagram (newTitle)
open Text (isBlank)

def Table.renamed (id new : String) (t : Table) : Table :=
  if t.id = id then { t with name := new } else t

def Table.withColumn (id old : String) (c : Column) (t : Table) : Table :=
  if t.id = id then { t with columns := t.columns.map fun b => if b.name = old then c else b } else t

def Relationship.renamed (old new : String) (r : Relationship) : Relationship :=
  { r with fromTable := newTitle old new r.fromTable, toTable := newTitle old new r.toTable }

/-- The relationship of an edge with a column's new title at the ends on a node. -/
def Relationship.retitled (id old new : String) (r : Relationship) (e : Edge) : Relationship :=
  { r with
    fromColumn := if e.source = id then newTitle old new r.fromColumn else r.fromColumn
    toColumn := if e.target = id then newTitle old new r.toColumn else r.toColumn }

def Schema.renamed (id old new : String) (s : Schema) : Schema where
  tables := s.tables.map (Table.renamed id new)
  relationships := s.relationships.map (Relationship.renamed old new)

theorem Table.name_renamed {id old : String} {t : Table} (named : t.id = id ↔ t.name = old)
    (new : String) : (t.renamed id new).name = newTitle old new t.name := by
  unfold renamed newTitle
  by_cases same : t.id = id
  · rw [if_pos same, if_pos (named.mp same)]
  · rw [if_neg same, if_neg (mt named.mpr same)]

theorem Table.columns_renamed (id new : String) (t : Table) :
    (t.renamed id new).columns = t.columns := by
  unfold renamed
  split <;> rfl

theorem Table.WellFormed.renamed {t : Table} (h : t.WellFormed) (id : String) {new : String}
    (given : isBlank new = false) : (t.renamed id new).WellFormed := by
  unfold Table.renamed
  split
  · exact { h with named := given }
  · exact h

/-- A schema stays well formed when a table takes a name that is not blank and no table's. -/
theorem Schema.WellFormed.renamed {s : Schema} (h : s.WellFormed) {id old new : String}
    (named : ∀ t ∈ s.tables, t.id = id ↔ t.name = old) (given : isBlank new = false)
    (free : ∀ t ∈ s.tables, t.name ≠ new) : (s.renamed id old new).WellFormed := by
  have names : (s.renamed id old new).tables.map Table.name =
      (s.tables.map Table.name).map (newTitle old new) := by
    change (s.tables.map (Table.renamed id new)).map Table.name = _
    rw [List.map_map, List.map_map]
    exact List.map_congr_left fun t ht => Table.name_renamed (named t ht) new
  -- the substitution is injective on the names there are, which keeps them distinct
  have free' : ∀ name ∈ s.tables.map Table.name, name ≠ old → name ≠ new := by
    intro name hm _
    obtain ⟨t, ht, rfl⟩ := List.mem_map.mp hm
    exact free t ht
  have ends {table column : String} (he : EndsAt s.tables table column) :
      EndsAt (s.renamed id old new).tables (newTitle old new table) column := by
    obtain ⟨t, ht, rfl, offers⟩ := he
    refine ⟨t.renamed id new, List.mem_map_of_mem ht, Table.name_renamed (named t ht) new, ?_⟩
    rw [Table.columns_renamed]
    exact offers
  have known {table column : String} (he : EndsAt s.tables table column) :
      table ∈ s.tables.map Table.name := by
    obtain ⟨t, ht, rfl, -⟩ := he
    exact List.mem_map_of_mem ht
  refine ⟨List.forall_mem_map.mpr fun t ht => (h.tables t ht).renamed id given, ?_,
    List.forall_mem_map.mpr fun r hr => ?_⟩
  · rw [names, List.nodup_map_iff_inj_on h.distinct]
    exact fun x hx y hy same => Diagram.newTitle_inj free' hx hy same
  · obtain ⟨source, target, apart⟩ := h.relationships r hr
    refine ⟨ends source, ends target, fun ⟨tables, columns⟩ => apart ⟨?_, columns⟩⟩
    exact Diagram.newTitle_inj free' (known source) (known target) tables

namespace Diagram

variable {d : Diagram} {s : Schema} {n : Node} {a b : String}

theorem node?_of_mem (ids : (d.nodes.map Node.id).Nodup) (hn : n ∈ d.nodes) :
    d.node? (.str n.id) = some n :=
  (find?_iff Node.id ids).mpr ⟨hn, rfl⟩

theorem node?_putData (ids : (d.nodes.map Node.id).Nodup) (hn : n ∈ d.nodes) (data : NodeData) :
    (d.putData n.id data).node? (.str n.id) = some { n with data := data } := by
  have kept : (d.putData n.id data).nodes.map Node.id = d.nodes.map Node.id :=
    ids_mapNode fun _ => rfl
  have ids' : ((d.putData n.id data).nodes.map Node.id).Nodup := kept ▸ ids
  exact node?_of_mem ids' (List.mem_map.mpr ⟨n, hn, if_pos rfl⟩)

theorem putData_self (ids : (d.nodes.map Node.id).Nodup) (hn : n ∈ d.nodes) :
    d.putData n.id n.data = d := by
  have same : d.nodes.map (fun m => if m.id = n.id then { m with data := n.data } else m) = d.nodes := by
    refine (List.map_congr_left fun m hm => ?_).trans (List.map_id d.nodes)
    by_cases same : m.id = n.id
    · rw [if_pos same, List.inj_on_of_nodup_map ids hm hn same]
      rfl
    · exact if_neg same
  exact congrArg (fun ns => { d with nodes := ns }) same

theorem toTable_relabelled {t : Table} (h : n.toTable = .ok t) (name : String) :
    Node.toTable { n with data := { n.data with label := .text name } } =
      .ok { t with name := name } := by
  rcases n with ⟨id, type, position, label, comment, columns⟩
  cases label with
  | malformed v => cases h
  | text old =>
    cases h
    rfl

section Labels

variable (ids : (d.nodes.map Node.id).Nodup) (labels : (d.nodes.map fun m => m.data.label).Nodup)
  (hn : n ∈ d.nodes) (label : n.data.label = .text a)
include ids labels hn label

theorem id_iff_name (reduced : d.reduce = .ok s) {t : Table} (ht : t ∈ s.tables) :
    t.id = n.id ↔ t.name = a := by
  obtain ⟨m, hm, hmt⟩ := exists_of_mem_left (reduce_ok_iff.mp reduced).1 ht
  obtain ⟨id, name, -⟩ := of_toTable hmt
  have hm' := List.mem_of_mem_filter hm
  constructor
  · intro same
    have he := List.inj_on_of_nodup_map ids hm' hn (id.symm.trans same)
    rw [he, label] at name
    exact Label.text.inj name
  · rintro rfl
    rw [id, List.inj_on_of_nodup_map labels hm' hn (name.symm.trans label.symm)]

theorem labelAt_relabelled {id x : String} (h : labelAt d.nodes id = some (.text x)) :
    labelAt (d.putData n.id { n.data with label := .text b }).nodes id =
      some (.text (newTitle a b x)) := by
  have at_ := end_iff ids labels hn label h
  rw [labelAt_putData, h, Option.map_some, newTitle]
  by_cases same : id = n.id
  · rw [if_pos same, if_pos (at_.mp same)]
  · rw [if_neg same, if_neg (mt at_.mpr same)]

theorem reduce_relabelled (reduced : d.reduce = .ok s) (b : String) :
    (d.putData n.id { n.data with label := .text b }).reduce = .ok (s.renamed n.id a b) :=
  reduce_putData ids reduced hn (fun _ ht => toTable_relabelled ht b) fun _ _ h =>
    { h with
      source := labelAt_relabelled ids labels hn label h.source
      target := labelAt_relabelled ids labels hn label h.target }

end Labels

/-- To rename a table is to substitute its name in the schema. Renaming it back restores the diagram, and
    a valid schema stays valid as long as the new name is not blank. -/
theorem reduce_renameTable (ids : (d.nodes.map Node.id).Nodup)
    (labels : (d.nodes.map fun m => m.data.label).Nodup) (reduced : d.reduce = .ok s)
    (hn : n ∈ d.nodes) (label : n.data.label = .text a)
    (free : ∀ m ∈ d.nodes, m.data.label ≠ .text b) :
    ∃ d', (renameTable (.str n.id) (.str b)).run d = .ok () d' ∧
      d'.reduce = .ok (s.renamed n.id a b) ∧
      (renameTable (.str n.id) (.str a)).run d' = .ok () d ∧
      (s.check.valid = true → isBlank b = false → (s.renamed n.id a b).check.valid = true) := by
  refine ⟨_, renameTable_ok.mpr ⟨n, node?_of_mem ids hn, rfl⟩,
    reduce_relabelled ids labels hn label reduced b,
    renameTable_ok.mpr ⟨_, node?_putData ids hn _, ?_⟩, fun valid given => ?_⟩
  · have same : { n.data with label := .text a } = n.data := by rw [← label]
    change d = (d.putData n.id _).putData n.id { n.data with label := .text a }
    rw [putData_putData, same, putData_self ids hn]
  · have wellFormed := (Schema.issues_eq_nil s).mp (List.isEmpty_iff.mp valid)
    refine List.isEmpty_iff.mpr ((Schema.issues_eq_nil _).mpr (wellFormed.renamed ?_ given ?_))
    · exact fun t ht => id_iff_name ids labels hn label reduced ht
    · rintro t ht rfl
      obtain ⟨m, hm, hmt⟩ := exists_of_mem_left (reduce_ok_iff.mp reduced).1 ht
      exact free m (List.mem_of_mem_filter hm) (of_toTable hmt).2.1.symm

def thread : Diagram where
  nodes := [
    { id := "1",
      data := {
        label := .text "posts"
        columns := [{ title := "id", type := "int" }, { title := "parent", type := "int" }] } },
    { id := "2", data := { label := .text "users", columns := [{ title := "id", type := "int" }] } }]
  edges := [
    { id := "e", source := "1", target := "1", sourceHandle := some "parent-source",
      targetHandle := some "id" },
    { id := "f", source := "1", target := "2", sourceHandle := some "id", targetHandle := some "id",
      label := some "MANY_TO_MANY" },
    { id := "g", source := "2", target := "1", targetHandle := some "id" },
    { id := "h", source := "1", sourceHandle := some "id-source" }]

def threadSchema (name title : String) : Schema where
  tables := [
    { id := "1", name := name, position := some {},
      columns := [{ name := title, type := "int" }, { name := "parent", type := "int" }] },
    { id := "2", name := "users", position := some {}, columns := [{ name := "id", type := "int" }] }]
  relationships := [
    { id := "e", fromTable := name, fromColumn := "parent", toTable := name, toColumn := title },
    { id := "f", fromTable := name, fromColumn := title, toTable := "users", toColumn := "id",
      cardinality := .manyToMany },
    { id := "g", fromTable := "users", fromColumn := "", toTable := name, toColumn := title }]

theorem reduce_renameTable_thread :
    ∃ d', (renameTable (.str "1") (.str "articles")).run thread = .ok () d' ∧
      d'.reduce = .ok (threadSchema "articles" "id") ∧
      (renameTable (.str "1") (.str "posts")).run d' = .ok () thread ∧
      (threadSchema "articles" "id").check.valid = true := by
  have reduced : thread.reduce = .ok (threadSchema "posts" "id") := rfl
  have posts : thread.nodes[0] ∈ thread.nodes := List.getElem_mem _
  have same : (threadSchema "posts" "id").renamed "1" "posts" "articles" =
      threadSchema "articles" "id" := by decide +kernel
  obtain ⟨d', run, renamed, back, valid⟩ := reduce_renameTable (b := "articles") (by decide)
    (by decide) reduced posts rfl (by decide)
  have carried := valid (by decide +kernel) (by decide)
  change d'.reduce = .ok ((threadSchema "posts" "id").renamed "1" "posts" "articles") at renamed
  change ((threadSchema "posts" "id").renamed "1" "posts" "articles").check.valid = true at carried
  rw [same] at renamed carried
  exact ⟨d', run, renamed, back, carried⟩

theorem newTitle_back {x : String} (h : b ≠ x) : newTitle b a (newTitle a b x) = x := by
  unfold newTitle
  by_cases old : x = a
  · rw [if_pos old, if_pos rfl, old]
  · rw [if_neg old, if_neg (Ne.symm h)]

theorem Relates.retitled {nodes : List Node} {e : Edge} {r : Relationship} (h : Relates nodes e r)
    (id old new : String) : Relates nodes (retitleEdge id old new e) (r.retitled id old new e) :=
  { h with
    sourceColumn := by
      rw [(retitled_retitleEdge id old new e).sourceColumn, ← h.sourceColumn]
      rfl
    targetColumn := by
      rw [(retitled_retitleEdge id old new e).targetColumn, ← h.targetColumn]
      rfl }

theorem Relates.restored {nodes : List Node} {e : Edge} {r : Relationship} (h : Relates nodes e r)
    {id : String} (free : b ∉ columnsAt e id) :
    Relates nodes (retitleEdge id b a (retitleEdge id a b e)) r := by
  obtain ⟨source, target⟩ := not_mem_columnsAt.mp free
  have first := retitled_retitleEdge id a b e
  have second := retitled_retitleEdge id b a (retitleEdge id a b e)
  refine { h with sourceColumn := ?_, targetColumn := ?_ }
  · rw [second.sourceColumn, first.sourceColumn, first.source, h.sourceColumn]
    split
    · exact (newTitle_back (source ‹_›)).symm
    · rfl
  · rw [second.targetColumn, first.targetColumn, first.target, h.targetColumn]
    split
    · exact (newTitle_back (target ‹_›)).symm
    · rfl

theorem columns_replaceColumn (old : String) (u : NodeColumn) (cs : List NodeColumn) :
    (replaceColumn old u cs).map NodeColumn.toColumn =
      (cs.map NodeColumn.toColumn).map fun b => if b.name = old then u.toColumn else b := by
  unfold replaceColumn
  rw [List.map_map, List.map_map]
  refine List.map_congr_left fun c _ => ?_
  rw [Function.comp_apply, Function.comp_apply, apply_ite NodeColumn.toColumn]
  rfl

theorem requireColumn_single {c : NodeColumn}
    (single : n.data.columns.filter (fun b => b.title = c.title) = [c]) :
    requireColumn n (.str c.title) = .ok c := by
  have found : n.data.columns.find? (fun b => Json.str b.title = .str c.title) = some c := by
    simp only [Json.str.injEq]
    rw [← List.head?_filter, single]
    rfl
  unfold requireColumn
  rw [found]

section Columns

variable {cs : List NodeColumn} {c u : NodeColumn}
  (single : cs.filter (fun b => b.title = c.title) = [c])
include single

theorem mem_of_single : c ∈ cs :=
  List.mem_of_mem_filter (single ▸ List.mem_singleton_self c)

theorem eq_of_single {b : NodeColumn} (hb : b ∈ cs) (same : b.title = c.title) : b = c := by
  have : b ∈ cs.filter fun b => b.title = c.title :=
    List.mem_filter.mpr ⟨hb, decide_eq_true same⟩
  rw [single] at this
  exact List.mem_singleton.mp this

theorem single_replaceColumn (free : ∀ b ∈ cs, b.title ≠ u.title) :
    (replaceColumn c.title u cs).filter (fun b => b.title = u.title) = [u] := by
  have same : ∀ b ∈ cs, decide ((if b.title = c.title then u else b).title = u.title) =
      decide (b.title = c.title) := by
    intro b hb
    by_cases old : b.title = c.title
    · rw [if_pos old, decide_eq_true old, decide_eq_true rfl]
    · rw [if_neg old, decide_eq_false old, decide_eq_false (free b hb)]
  unfold replaceColumn
  rw [filter_map_of same, single, List.map_singleton, if_pos rfl]

theorem replaceColumn_back (free : ∀ b ∈ cs, b.title ≠ u.title) :
    replaceColumn u.title c (replaceColumn c.title u cs) = cs := by
  unfold replaceColumn
  rw [List.map_map]
  refine (List.map_congr_left fun b hb => ?_).trans (List.map_id cs)
  rw [Function.comp_apply]
  by_cases old : b.title = c.title
  · rw [if_pos old, if_pos rfl, eq_of_single single hb old]
    rfl
  · rw [if_neg old, if_neg (free b hb)]
    rfl

end Columns

theorem reduce_retitled (ids : (d.nodes.map Node.id).Nodup) (reduced : d.reduce = .ok s)
    (hn : n ∈ d.nodes) (old : String) (u : NodeColumn) :
    (mapEdges (retitleEdge n.id old u.title) (d.putData n.id
        { n.data with columns := replaceColumn old u n.data.columns })).reduce =
      .ok ⟨s.tables.map (Table.withColumn n.id old u.toColumn),
        List.zipWith (Relationship.retitled n.id old u.title) s.relationships d.tied⟩ := by
  have replaced := reduce_putColumns ids reduced hn (replaceColumn old u n.data.columns)
  have tables : (s.tables.map fun t => if t.id = n.id then { t with
      columns := (replaceColumn old u n.data.columns).map NodeColumn.toColumn } else t) =
      s.tables.map (Table.withColumn n.id old u.toColumn) := by
    refine List.map_congr_left fun t ht => ?_
    unfold Table.withColumn
    by_cases same : t.id = n.id
    · rw [if_pos same, if_pos same, columns_replaceColumn, columns_of_reduce ids reduced hn ht same]
    · rw [if_neg same, if_neg same]
  rw [tables] at replaced
  exact reduce_mapEdges replaced (fun e => Iff.rfl) fun r _ e _ h => h.retitled n.id old u.title

/-- Edges that are retitled there and back reduce as before, if none named the new title. -/
theorem reduce_restored (reduced : d.reduce = .ok s) {node : String}
    (free : ∀ e ∈ d.tied, b ∉ columnsAt e node) :
    (mapEdges (retitleEdge node b a) (mapEdges (retitleEdge node a b) d)).reduce = .ok s := by
  have mapped := reduce_mapEdges reduced (g := retitleEdge node b a ∘ retitleEdge node a b)
    (G := fun r _ => id r) (fun e => Iff.rfl) fun r _ e he h => h.restored (free e he)
  rw [zipWith_left (reduce_ok_iff.mp reduced).2 id, List.map_id] at mapped
  unfold mapEdges
  rw [List.map_map]
  exact mapped

/-- An update that gives a column a title that no other one has is carried by the relationships at the
    node, and changes nothing else. If it gave the title only and no edge named that before, the old
    title again restores the schema. -/
theorem reduce_updateColumn (ids : (d.nodes.map Node.id).Nodup) (reduced : d.reduce = .ok s)
    (hn : n ∈ d.nodes) {c u : NodeColumn}
    (single : n.data.columns.filter (fun b => b.title = c.title) = [c]) {update : Json}
    (merged : mergeColumn (membersOf (Record.write .full c)) update = .ok u)
    (free : ∀ b ∈ n.data.columns, b.title ≠ u.title) :
    s.relationships.map Relationship.id = d.tied.map Edge.id ∧
      ∃ d', (updateColumn (.str n.id) (.str c.title) update).run d = .ok () d' ∧
        d'.reduce = .ok ⟨s.tables.map (Table.withColumn n.id c.title u.toColumn),
          List.zipWith (Relationship.retitled n.id c.title u.title) s.relationships d.tied⟩ ∧
        (TitleOnly update → (∀ e ∈ d.tied, u.title ∉ columnsAt e n.id) →
          ∃ d'', (updateColumn (.str n.id) (.str u.title) (.obj [("title", .str c.title)])).run d' =
              .ok () d'' ∧ d''.reduce = .ok s) := by
  have other : u.title ≠ c.title := (free c (mem_of_single single)).symm
  have updated := reduce_retitled ids reduced hn c.title u
  have carried (x : Diagram) : retitle n.id c.title u.title x =
      mapEdges (retitleEdge n.id c.title u.title) x := if_pos other
  rw [← carried] at updated
  refine ⟨ids_of_reduce reduced, _, updateColumn_ok.mpr
    ⟨n, c, u, node?_of_mem ids hn, requireColumn_single single, merged, rfl⟩, updated, ?_⟩
  intro only unnamed
  have same : { u with title := c.title } = c := by rw [only.merged merged]
  have back : mergeColumn (membersOf (Record.write .full u)) (.obj [("title", .str c.title)]) = .ok c :=
    (mergeColumn_title u c.title).trans (congrArg Except.ok same)
  refine ⟨_, updateColumn_ok.mpr ⟨{ n with data := { n.data with
    columns := replaceColumn c.title u n.data.columns } }, u, c, ?_,
    requireColumn_single (single_replaceColumn single free), back, rfl⟩, ?_⟩
  · rw [carried]
    exact node?_putData ids hn _
  · -- columns and edges do not meet, so what was done to each is taken back on its own
    have kept : (d.putData n.id { n.data with
        columns := replaceColumn c.title u n.data.columns }).putData n.id { n.data with
          columns := replaceColumn u.title c (replaceColumn c.title u n.data.columns) } = d := by
      rw [putData_putData, replaceColumn_back single free]
      exact putData_self ids hn
    have restored := reduce_restored (a := c.title) reduced unnamed
    rw [carried, retitle, if_pos (Ne.symm other)]
    rw [← kept] at restored
    exact restored

theorem reduce_updateColumn_thread :
    ∃ d', (updateColumn (.str "1") (.str "id") (.obj [("title", .str "key")])).run thread =
        .ok () d' ∧ d'.reduce = .ok (threadSchema "posts" "key") ∧
      ∃ d'', (updateColumn (.str "1") (.str "key") (.obj [("title", .str "id")])).run d' =
        .ok () d'' ∧ d''.reduce = .ok (threadSchema "posts" "id") := by
  have reduced : thread.reduce = .ok (threadSchema "posts" "id") := rfl
  have posts : thread.nodes[0] ∈ thread.nodes := List.getElem_mem _
  have merged := mergeColumn_title { title := "id", type := "int" } "key"
  have same : Schema.mk
      ((threadSchema "posts" "id").tables.map
        (Table.withColumn "1" "id" { name := "key", type := "int" }))
      (List.zipWith (Relationship.retitled "1" "id" "key") (threadSchema "posts" "id").relationships
        thread.tied) = threadSchema "posts" "key" := by decide +kernel
  obtain ⟨-, d', run, retitled, restored⟩ := reduce_updateColumn (by decide) reduced posts
    (by decide) merged (by decide)
  obtain ⟨d'', back, reduced'⟩ := restored (by decide) (by decide)
  exact ⟨d', run, retitled.trans (congrArg Except.ok same), d'', back, reduced'⟩

end Diagram

end SchemaDiagram
