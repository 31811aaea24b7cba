import SchemaDiagram.Proofs.Normalisation
import SchemaDiagram.Proofs.Snapshots

/-!
Diagrams that can be drawn again. A diagram that shows a schema is drawn again from that schema and the
places of its nodes, but for what no schema has room for. Once a parse has been accepted or an edit has
passed, the diagram of a session is of this kind, and it stays so wherever its tables are moved.
-/

set_option autoImplicit false

namespace SchemaDiagram

open Node (isTable)

theorem Node.toTable_settled (n : Node) : n.settled.toTable = n.toTable := by
  rcases n with ⟨id, type, position, label, comment, columns⟩
  cases label with
  | malformed v => rfl
  | text name =>
    have same : (columns.map NodeColumn.settled).map NodeColumn.toColumn =
        columns.map NodeColumn.toColumn := by
      rw [List.map_map]
      refine List.map_congr_left fun c _ => ?_
      rw [Function.comp_apply, ← c.toNodeColumn_toColumn, Column.toColumn_toNodeColumn]
    change Except.ok (Table.mk id name
      ((columns.map NodeColumn.settled).map NodeColumn.toColumn) comment (some position)) = _
    rw [same]
    rfl

theorem Depicts.of_unplaced {ts us : List Table} {ns : List Node} (h : Depicts us ns)
    (same : ts.map Table.unplaced = us.map Table.unplaced) : Depicts ts ns := by
  induction h generalizing ts with
  | nil =>
    rw [List.map_eq_nil_iff.mp same]
    exact .nil
  | @cons u n us ns hn _ ih =>
    obtain ⟨t, rest, rfl, ht, hr⟩ := List.map_eq_cons_iff.mp same
    have shown := congrArg (fun t : Table => t.toNode n.position) ht
    exact .cons (hn.trans shown.symm) (ih hr)

namespace Diagram

theorem tablesOf_settled (nodes : List Node) :
    tablesOf ((nodes.filter isTable).map Node.settled) = tablesOf nodes := by
  induction nodes with
  | nil => rfl
  | cons n rest ih =>
    rw [tablesOf_cons]
    by_cases table : n.isTable = true
    · have settled : n.settled.isTable = true := table
      rw [List.filter_cons_of_pos table, List.map_cons, tablesOf_cons, if_pos settled, if_pos table, ih,
        n.toTable_settled]
    · rw [List.filter_cons_of_neg table, if_neg table, ih]

theorem tablesOf_of_reduce {d : Diagram} {u : Schema} (reduced : d.reduce = .ok u) :
    tablesOf d.nodes = .ok u.tables := by
  obtain ⟨ts, hts, reduced⟩ := Result.bind_ok reduced
  obtain ⟨rs, -, reduced⟩ := Result.bind_ok reduced
  cases reduced
  exact hts

theorem labelled_of_reduce {d : Diagram} {u : Schema} (reduced : d.reduce = .ok u) {n : Node}
    (hn : n ∈ d.nodes) (table : n.isTable = true) : ∃ name, n.data.label = .text name := by
  obtain ⟨t, -, ht⟩ := exists_of_mem_right (tablesOf_ok_iff.mp (tablesOf_of_reduce reduced))
    (List.mem_filter.mpr ⟨hn, table⟩)
  exact ⟨t.name, (of_toTable ht).2.1.symm⟩

/-- A diagram whose nodes can be told apart is drawn again from the schema that it shows, and it comes to
    the same, positions included. -/
theorem Shows.redrawn {d : Diagram} {s : Schema} (shows : d.Shows s)
    (distinct : (d.nodes.map Node.id).Nodup) (identified : ∀ n ∈ d.nodes, n.id ≠ "")
    (named : ∀ r ∈ s.relationships,
      (∃ t ∈ s.tables, t.name = r.fromTable) ∧ ∃ t ∈ s.tables, t.name = r.toTable)
    (grid : Grid) {places : Places} (known : ∀ n ∈ d.nodes, places.find? n.id = some n.position) :
    ∃ e u, s.project grid places = .ok e ∧ e.reduce = .ok u ∧ d.reduce = .ok u := by
  unfold Shows at shows
  cases reduced : d.reduce with
  | error f =>
    rw [reduced] at shows
    cases shows
  | ok u =>
    rw [reduced] at shows
    have same : u.unplaced = s.unplaced := Except.ok.inj shows
    have tables : s.tables.map Table.unplaced = u.tables.map Table.unplaced :=
      congrArg Schema.tables same.symm
    have relationships : u.unplaced.relationships = s.unplaced.relationships :=
      congrArg Schema.relationships same
    have own := tablesOf_of_reduce reduced
    have depicts : Depicts s.tables ((d.nodes.filter isTable).map Node.settled) :=
      (depicts_settled (fun n hn => (List.mem_filter.mp hn).2) (tablesOf_ok_iff.mp own)).of_unplaced
        tables
    have ids : (d.nodes.filter isTable).map Node.id = s.tables.map Table.id := by
      rw [← depicts.ids, List.map_map]
      rfl
    have distinct' : (s.tables.map Table.id).Nodup :=
      ids ▸ distinct.sublist (List.filter_sublist.map Node.id)
    have identified' : ∀ t ∈ s.tables, t.id ≠ "" := by
      intro t ht
      have hid : t.id ∈ (d.nodes.filter isTable).map Node.id := ids ▸ List.mem_map_of_mem ht
      obtain ⟨n, hn, same⟩ := List.mem_map.mp hid
      exact same ▸ identified n (List.mem_filter.mp hn).1
    have known' : ∀ n ∈ (d.nodes.filter isTable).map Node.settled,
        places.find? n.id = some n.position := by
      intro n hn
      obtain ⟨m, hm, rfl⟩ := List.mem_map.mp hn
      exact known m (List.mem_filter.mp hm).1
    obtain ⟨es, edges, back⟩ := Schema.exists_edges fun r hr =>
      Schema.relationshipOf_edgeOf depicts distinct' identified' (named r hr).1 (named r hr).2
    refine ⟨⟨(d.nodes.filter isTable).map Node.settled, es⟩, u, ?_, ?_, rfl⟩
    · unfold Schema.project Schema.toNodes Schema.toEdges
      rw [depicts.nodesFrom grid 0 known', edges]
      rfl
    · unfold reduce
      rw [tablesOf_settled, own, back, show s.relationships = u.relationships from relationships.symm]
      rfl

/-- The relationships of a schema are between its tables, and a diagram shows it unless its nodes cannot
    be told apart. -/
structure Renders (d : Diagram) (s : Schema) : Prop where
  named : ∀ r ∈ s.relationships,
    (∃ t ∈ s.tables, t.name = r.fromTable) ∧ ∃ t ∈ s.tables, t.name = r.toTable
  shows : (d.nodes.map Node.id).Nodup → (∀ n ∈ d.nodes, n.id ≠ "") → d.Shows s

namespace Renders

variable {d u : Diagram} {s : Schema}

theorem of_project {grid : Grid} {places : Places} (made : s.project grid places = .ok d) :
    d.Renders s := by
  obtain ⟨nodes, edges⟩ := Schema.parts_of_project made
  have depicts := Schema.depicts_of_nodesFrom nodes
  refine ⟨Schema.named_of_edges edges, fun distinct identified => ?_⟩
  refine Schema.shows_of_project made (depicts.ids ▸ distinct) fun t ht => ?_
  obtain ⟨n, hn, same⟩ := depicts.exists_node ht
  have hid : n.id = t.id := congrArg Node.id same
  exact hid ▸ identified n hn

theorem of_edit (reduced : d.reduce = .ok s) (valid : s.check.valid = true) : d.Renders s := by
  have wellFormed := s.issues_eq_nil.mp (List.isEmpty_iff.mp valid)
  refine ⟨fun r hr => ?_, fun _ _ => .of_reduce reduced⟩
  obtain ⟨⟨a, ha, source, -⟩, ⟨b, hb, target, -⟩, -⟩ := wellFormed.relationships r hr
  exact ⟨⟨a, ha, source⟩, b, hb, target⟩

theorem of_unplaced (h : d.Renders s) (same : u.unplaced = d.unplaced) : u.Renders s := by
  have ids : u.nodes.map Node.id = d.nodes.map Node.id := by
    have (v : Diagram) : v.unplaced.nodes.map Node.id = v.nodes.map Node.id := List.map_map
    rw [← this u, same, this d]
  refine ⟨h.named, fun distinct identified => ?_⟩
  refine (h.shows (ids ▸ distinct) fun n hn => ?_).of_unplaced same
  obtain ⟨m, hm, hid⟩ := List.mem_map.mp (ids ▸ List.mem_map_of_mem hn : n.id ∈ u.nodes.map Node.id)
  exact hid ▸ identified m hm

end Renders

end Diagram

namespace Sync.Coordinator

/-- The session has a schema that its diagram renders. -/
def Rendered (m : Coordinator) : Prop :=
  ∃ s, (session m).document.schema = some s ∧ (session m).diagram.Renders s

/-- The schema of the session has come last from an accepted answer to a parse request or from an edit
    that has passed. Since then nothing has changed it or the diagram, but for where nodes stand. -/
inductive Drafted : Coordinator → Prop where
  | parsed {m : Coordinator} {payload : Json} (current : (accept payload m).2 = .ok true)
      (clean : recordsOf TextError (payload.get "errors") = .ok [])
      (given : payload.get "ast" ≠ .null) (applied : (handleParsed payload m).2 = none) :
      Drafted (handleParsed payload m).1
  | edited {m : Coordinator} (e : Edit)
      (passed : ((session m).attempt m.world.settings.grid e).2.schema? ≠ none) :
      Drafted (edit e m).1
  | moved {m k : Coordinator} (h : Drafted m)
      (schema : (session k).document.schema = (session m).document.schema)
      (nodes : (session k).diagram.unplaced = (session m).diagram.unplaced) : Drafted k

section Rendered

variable {heard : Json → Prop} {m k : Coordinator}

namespace Rendered

theorem draws {s : Schema} {d : Diagram} (h : Draws (some s) d m k) (renders : d.Renders s) :
    Rendered k :=
  ⟨s, h.schema, h.diagram ▸ renders⟩

theorem moved (rendered : Rendered m)
    (schema : (session k).document.schema = (session m).document.schema)
    (nodes : (session k).diagram.unplaced = (session m).diagram.unplaced) : Rendered k := by
  obtain ⟨s, own, renders⟩ := rendered
  exact ⟨s, schema.trans own, renders.of_unplaced nodes⟩

theorem aside (rendered : Rendered m) (h : Aside m k) : Rendered k :=
  rendered.moved h.schema (congrArg Diagram.unplaced h.diagram)

theorem schedule (rendered : Rendered m) (o : Overrides) : Rendered (m.schedule o) := by
  have same : (m.schedule o).world = m.world := cancel_world m
  exact rendered.moved (congrArg (·.session.document.schema) same)
    (congrArg (·.session.diagram.unplaced) same)

theorem speech (rendered : Rendered m) (h : Speech heard m k) : Rendered k := by
  induction h with
  | aside h => exact rendered.aside h
  | adopt _ _ projected h => exact (draws h (.of_project projected)).schedule {}
  | trans _ _ ih ih' => exact ih' (ih rendered)

end Rendered

theorem handleParsed_rendered {payload : Json} (current : (accept payload m).2 = .ok true)
    (clean : recordsOf TextError (payload.get "errors") = .ok [])
    (given : payload.get "ast" ≠ .null) (applied : (handleParsed payload m).2 = none) :
    Rendered (handleParsed payload m).1 := by
  have parsed := handleParsed_parsed payload m
  rw [current] at parsed
  generalize handleParsed payload m = step at parsed applied ⊢
  cases parsed with
  | refused | inconsistent => cases applied
  | flawed l read flaw =>
    obtain rfl := Except.ok.inj (clean.symm.trans read)
    exact absurd flaw (not_or_intro (not_not_intro rfl) given)
  | @drawn schema d l _ projected =>
    have drawn : Rendered (mapSession (accept payload m).1 (adopt · schema d)) :=
      ⟨schema, rfl, .of_project projected⟩
    exact (drawn.moved rfl rfl).schedule {}

theorem edit_rendered (e : Edit)
    (passed : ((session m).attempt m.world.settings.grid e).2.schema? ≠ none) :
    Rendered (edit e m).1 := by
  obtain ⟨schema, own⟩ := Option.ne_none_iff_exists'.mp passed
  obtain ⟨d, id, -, reduced, valid, -⟩ := Session.passed_of_schema? own
  have voices : Voices (fun _ => True) m.world.channel.peer := fun _ _ _ _ _ => trivial
  have edited := edit_edited voices e
  generalize edit e m = r at edited ⊢
  cases edited with
  | unpassed none _ => exact absurd none passed
  | untold f other reduced h told =>
    obtain rfl := Option.some.inj (own.symm.trans other)
    exact (Rendered.draws h (.of_edit reduced valid)).speech told
  | @saved _ _ _ n _ answer other reduced h told settled =>
    obtain rfl := Option.some.inj (own.symm.trans other)
    have spawned : Rendered (spawning schema n) :=
      ((Rendered.draws h (.of_edit reduced valid)).speech told).moved rfl rfl
    exact spawned.aside settled

theorem Drafted.rendered (h : Drafted m) : Rendered m := by
  induction h with
  | parsed current clean given applied => exact handleParsed_rendered current clean given applied
  | edited e passed => exact edit_rendered e passed
  | moved _ schema nodes ih => exact ih.moved schema nodes

theorem Drafted.moveTable (h : Drafted m) (id position : Json) :
    Drafted (Coordinator.moveTable id position m).1 := by
  rcases moveTable_cases id position m with aside | ⟨d, k, nodes, draws, ends⟩
  · exact h.moved aside.schema (congrArg Diagram.unplaced aside.diagram)
  · have same : (k.schedule {}).world = k.world := cancel_world k
    rw [ends]
    refine h.moved ?_ ?_
    · exact (congrArg (·.session.document.schema) same).trans draws.schema
    · rw [show session (k.schedule {}) = session k from congrArg (·.session) same, draws.diagram, nodes]

end Rendered

end Sync.Coordinator

end SchemaDiagram
