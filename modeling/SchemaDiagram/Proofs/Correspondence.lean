import SchemaDiagram.Proofs.Coherence
import SchemaDiagram.Proofs.Pairs

/-!
Reduction, part by part. The tables of a schema stand for the table nodes and its relationships for the
edges with two ends, one by one and in their order; an edge sees nothing of the nodes but the labels at
its ends. So what is done to nodes and edges one by one is done to tables and relationships one by one,
and where some are left out, theirs are.
-/

set_option autoImplicit false

namespace SchemaDiagram

instance (e : Edge) : Decidable e.Loose := inferInstanceAs (Decidable (_ ∨ _))

namespace Diagram

def tied (d : Diagram) : List Edge := d.edges.filter fun e => ¬ e.Loose

def labelAt (nodes : List Node) (id : String) : Option Label :=
  (endpoint? nodes id).map fun n => n.data.label

/-- The relationship that an edge stands for. -/
structure Relates (nodes : List Node) (e : Edge) (r : Relationship) : Prop where
  tight : ¬ e.Loose
  id : r.id = e.id
  source : labelAt nodes e.source = some (.text r.fromTable)
  sourceColumn : r.fromColumn = e.sourceColumn
  target : labelAt nodes e.target = some (.text r.toTable)
  targetColumn : r.toColumn = e.targetColumn
  cardinality : cardinality? e.label = some r.cardinality

variable {d : Diagram} {s : Schema} {nodes nodes' : List Node} {e : Edge} {r : Relationship}

theorem relates_iff : relationshipOf nodes e = .ok (some r) ↔ Relates nodes e r := by
  rw [relationshipOf_some]
  constructor
  · rintro ⟨tight, a, b, c, x, y, ha, hb, hc, hx, hy, rfl⟩
    have source : labelAt nodes e.source = some (.text x) := by rw [labelAt, ha, ← hx]; rfl
    have target : labelAt nodes e.target = some (.text y) := by rw [labelAt, hb, ← hy]; rfl
    exact ⟨tight, rfl, source, rfl, target, rfl, hc⟩
  · rintro ⟨tight, hi, source, sourceColumn, target, targetColumn, hc⟩
    obtain ⟨a, ha, hx⟩ := Option.map_eq_some_iff.mp source
    obtain ⟨b, hb, hy⟩ := Option.map_eq_some_iff.mp target
    refine ⟨tight, a, b, r.cardinality, r.fromTable, r.toTable, ha, hb, hc, hx, hy, ?_⟩
    rw [← hi, ← sourceColumn, ← targetColumn]

theorem Relates.congr (h : Relates nodes e r)
    (ends : ∀ id, id = e.source ∨ id = e.target → labelAt nodes' id = labelAt nodes id) :
    Relates nodes' e r :=
  { h with
    source := (ends e.source (.inl rfl)).trans h.source
    target := (ends e.target (.inr rfl)).trans h.target }

theorem relationshipsOf_ok_iff {es : List Edge} {rs : List Relationship} :
    relationshipsOf nodes es = .ok rs ↔
      List.Forall₂ (fun r e => Relates nodes e r) rs (es.filter fun e => ¬ e.Loose) := by
  -- on the edges: a loose one stands for nothing and cannot fail, any other stands for one relationship
  induction es generalizing rs with
  | nil =>
    rw [List.filter_nil, List.forall₂_nil_right_iff, relationshipsOf, Except.ok.injEq, eq_comm]
  | cons e rest ih =>
    by_cases loose : e.Loose
    · rw [List.filter_cons_of_neg (by simpa using loose), ← ih, relationshipsOf,
        relationshipOf_loose loose]
      cases relationshipsOf nodes rest <;> rfl
    · rw [List.filter_cons_of_pos (by simpa using loose), List.forall₂_cons_right_iff]
      constructor
      · intro h
        obtain ⟨o, ho, h⟩ := Result.bind_ok h
        obtain ⟨qs, hqs, h⟩ := Result.bind_ok h
        cases h
        cases o with
        | none => exact absurd (loose_of_relationshipOf ho) loose
        | some r => exact ⟨r, qs, relates_iff.mp ho, ih.mp hqs, rfl⟩
      · rintro ⟨r, qs, hr, hqs, rfl⟩
        rw [relationshipsOf, relates_iff.mpr hr, ih.mpr hqs]
        rfl

theorem reduce_ok_iff :
    d.reduce = .ok s ↔
      List.Forall₂ (fun t n => n.toTable = .ok t) s.tables (d.nodes.filter Node.isTable) ∧
        List.Forall₂ (fun r e => Relates d.nodes e r) s.relationships d.tied := by
  unfold tied
  rw [← tablesOf_ok_iff, ← relationshipsOf_ok_iff]
  constructor
  · intro h
    obtain ⟨ts, hts, h⟩ := Result.bind_ok h
    obtain ⟨rs, hrs, h⟩ := Result.bind_ok h
    cases h
    exact ⟨hts, hrs⟩
  · rintro ⟨hts, hrs⟩
    unfold reduce
    rw [hts, hrs]
    rfl

theorem ids_of_reduce (reduced : d.reduce = .ok s) :
    s.relationships.map Relationship.id = d.tied.map Edge.id := by
  obtain ⟨-, related⟩ := reduce_ok_iff.mp reduced
  rw [← List.forall₂_eq_eq_eq]
  exact forall₂_map related fun r _ e _ h => h.id

theorem endpoint?_map {f : Node → Node} (ids : ∀ n, (f n).id = n.id) (nodes : List Node)
    (id : String) : endpoint? (nodes.map f) id = (endpoint? nodes id).map f := by
  induction nodes with
  | nil => rfl
  | cons n rest ih =>
    rw [List.map_cons, endpoint?, endpoint?, ih, ids n]
    cases endpoint? rest id with
    | some m => rfl
    | none => split <;> rfl

theorem endpoint?_filter {p : Node → Bool} {id : String}
    (kept : ∀ n ∈ nodes, n.id = id → p n = true) :
    endpoint? (nodes.filter p) id = endpoint? nodes id := by
  induction nodes with
  | nil => rfl
  | cons n rest ih =>
    obtain ⟨head, tail⟩ := List.forall_mem_cons.mp kept
    rw [endpoint?]
    by_cases hp : p n = true
    · rw [List.filter_cons_of_pos hp, endpoint?, ih tail]
    · rw [List.filter_cons_of_neg hp, ih tail, if_neg fun same => hp (head same), Option.or_none]

theorem labelAt_filter {p : Node → Bool} {id : String}
    (kept : ∀ n ∈ nodes, n.id = id → p n = true) :
    labelAt (nodes.filter p) id = labelAt nodes id :=
  congrArg (Option.map _) (endpoint?_filter kept)

theorem labelAt_putData (d : Diagram) (id : String) (data : NodeData) (other : String) :
    labelAt (d.putData id data).nodes other =
      (labelAt d.nodes other).map fun l => if other = id then data.label else l := by
  unfold labelAt putData mapNode
  rw [endpoint?_map fun n => by split <;> rfl, Option.map_map, Option.map_map]
  refine Option.map_congr fun n hn => ?_
  rw [Function.comp_apply, Function.comp_apply, (mem_of_endpoint? hn).2]
  split <;> rfl

theorem labelAt_of_mem (ids : (d.nodes.map Node.id).Nodup) {n : Node} (hn : n ∈ d.nodes) :
    labelAt d.nodes n.id = some n.data.label := by
  rw [labelAt, endpoint?_of_mem ids hn]
  rfl

theorem labelAt_putData_of_label (ids : (d.nodes.map Node.id).Nodup) {n : Node} (hn : n ∈ d.nodes)
    {data : NodeData} (label : data.label = n.data.label) (id : String) :
    labelAt (d.putData n.id data).nodes id = labelAt d.nodes id := by
  rw [labelAt_putData]
  by_cases same : id = n.id
  · rw [same, labelAt_of_mem ids hn, Option.map_some, if_pos rfl, label]
  · cases labelAt d.nodes id with
    | none => rfl
    | some l => rw [Option.map_some, if_neg same]

theorem end_iff (ids : (d.nodes.map Node.id).Nodup)
    (labels : (d.nodes.map fun m => m.data.label).Nodup) {n : Node} (hn : n ∈ d.nodes)
    {name : String} (label : n.data.label = .text name) {id x : String}
    (h : labelAt d.nodes id = some (.text x)) : id = n.id ↔ x = name := by
  constructor
  · rintro rfl
    rw [labelAt_of_mem ids hn, label, Option.some.injEq, Label.text.injEq] at h
    exact h.symm
  · rintro rfl
    obtain ⟨m, hm, hx⟩ := Option.map_eq_some_iff.mp h
    obtain ⟨hm, hi⟩ := mem_of_endpoint? hm
    rw [← hi, List.inj_on_of_nodup_map labels hm hn (hx.trans label.symm)]

/-- Nodes and edges may be exchanged for others one by one, as long as nodes stay tables and edges keep
    or lack their ends. -/
theorem reduce_mapped (reduced : d.reduce = .ok s) {f : Node → Node} {g : Edge → Edge}
    {F : Table → Table} {G : Relationship → Edge → Relationship}
    (types : ∀ n, (f n).isTable = n.isTable) (ends : ∀ e, (g e).Loose ↔ e.Loose)
    (tables : ∀ t ∈ s.tables, ∀ n ∈ d.nodes, n.toTable = .ok t → (f n).toTable = .ok (F t))
    (relationships : ∀ r ∈ s.relationships, ∀ e ∈ d.tied, Relates d.nodes e r →
      Relates (d.nodes.map f) (g e) (G r e)) :
    reduce ⟨d.nodes.map f, d.edges.map g⟩ =
      .ok ⟨s.tables.map F, List.zipWith G s.relationships d.tied⟩ := by
  obtain ⟨shown, related⟩ := reduce_ok_iff.mp reduced
  refine reduce_ok_iff.mpr ⟨?_, ?_⟩
  · change List.Forall₂ _ _ ((d.nodes.map f).filter Node.isTable)
    rw [filter_map_of fun n _ => types n]
    exact forall₂_map shown fun t ht n hn => tables t ht n (List.mem_of_mem_filter hn)
  · have filtered : tied ⟨d.nodes.map f, d.edges.map g⟩ = d.tied.map g :=
      filter_map_of fun e _ => decide_eq_decide.mpr (not_congr (ends e))
    rw [filtered]
    exact forall₂_zipWith related relationships

/-- Tables and relationships go with their nodes and edges, as long as no edge that stays loses an end. -/
theorem reduce_filtered (reduced : d.reduce = .ok s) {p : Node → Bool} {q : Edge → Bool}
    {P : Table → Bool} {Q : Relationship → Bool}
    (tables : ∀ t ∈ s.tables, ∀ n ∈ d.nodes, n.toTable = .ok t → P t = p n)
    (relationships : ∀ r ∈ s.relationships, ∀ e ∈ d.tied, Relates d.nodes e r → Q r = q e)
    (ends : ∀ e ∈ d.tied, q e = true → ∀ id, id = e.source ∨ id = e.target →
      ∀ n ∈ d.nodes, n.id = id → p n = true) :
    (filterEdges q (filterNodes p d)).reduce =
      .ok ⟨s.tables.filter P, s.relationships.filter Q⟩ := by
  obtain ⟨shown, related⟩ := reduce_ok_iff.mp reduced
  refine reduce_ok_iff.mpr ⟨?_, ?_⟩
  · have filtered :
        (d.nodes.filter p).filter Node.isTable = (d.nodes.filter Node.isTable).filter p :=
      List.filter_comm ..
    change List.Forall₂ _ _ ((d.nodes.filter p).filter Node.isTable)
    rw [filtered]
    exact forall₂_filter shown fun t ht n hn => tables t ht n (List.mem_of_mem_filter hn)
  · have filtered : (filterEdges q (filterNodes p d)).tied = d.tied.filter q := List.filter_comm ..
    rw [filtered]
    have kept := forall₂_filter related relationships
    -- the pairs that are kept relate over fewer nodes, among which their ends still are
    rw [← List.map_id (s.relationships.filter Q), ← List.map_id (d.tied.filter q)]
    refine forall₂_map kept fun r _ e he h => h.congr fun id at_ => ?_
    obtain ⟨he, hq⟩ := List.mem_filter.mp he
    exact labelAt_filter (ends e he hq id at_)

theorem reduce_mapEdges (reduced : d.reduce = .ok s) {g : Edge → Edge}
    {G : Relationship → Edge → Relationship} (ends : ∀ e, (g e).Loose ↔ e.Loose)
    (relationships : ∀ r ∈ s.relationships, ∀ e ∈ d.tied, Relates d.nodes e r →
      Relates d.nodes (g e) (G r e)) :
    (mapEdges g d).reduce = .ok { s with relationships := List.zipWith G s.relationships d.tied } := by
  have mapped := reduce_mapped (f := id) (F := id) reduced (fun _ => rfl) ends
    (fun t _ n _ ht => ht) fun r hr e he h => by
      rw [List.map_id]
      exact relationships r hr e he h
  rwa [List.map_id, List.map_id] at mapped

theorem reduce_filterEdges (reduced : d.reduce = .ok s) {q : Edge → Bool} {Q : Relationship → Bool}
    (relationships : ∀ r ∈ s.relationships, ∀ e ∈ d.tied, Relates d.nodes e r → Q r = q e) :
    (filterEdges q d).reduce = .ok { s with relationships := s.relationships.filter Q } := by
  have filtered := reduce_filtered (p := fun _ => true) (P := fun _ => true) reduced
    (fun _ _ _ _ _ => rfl) relationships fun _ _ _ _ _ _ _ _ => rfl
  rw [List.filter_true] at filtered
  have same : filterNodes (fun _ => true) d = d :=
    congrArg (fun ns => { d with nodes := ns }) (List.filter_true d.nodes)
  rwa [same] at filtered

theorem columns_of_reduce (ids : (d.nodes.map Node.id).Nodup) (reduced : d.reduce = .ok s) {n : Node}
    (hn : n ∈ d.nodes) {t : Table} (ht : t ∈ s.tables) (same : t.id = n.id) :
    t.columns = n.data.columns.map NodeColumn.toColumn := by
  obtain ⟨m, hm, hmt⟩ := exists_of_mem_left (reduce_ok_iff.mp reduced).1 ht
  have he : m = n := List.inj_on_of_nodup_map ids (List.mem_of_mem_filter hm) hn
    ((of_toTable hmt).1.symm.trans same)
  rw [← he]
  exact columns_of_toTable hmt

theorem reduce_putData (ids : (d.nodes.map Node.id).Nodup) (reduced : d.reduce = .ok s) {n : Node}
    (hn : n ∈ d.nodes) {data : NodeData} {F : Table → Table} {G : Relationship → Relationship}
    (table : ∀ t, n.toTable = .ok t → Node.toTable { n with data := data } = .ok (F t))
    (relationships : ∀ e r, Relates d.nodes e r → Relates (d.putData n.id data).nodes e (G r)) :
    (d.putData n.id data).reduce =
      .ok ⟨s.tables.map fun t => if t.id = n.id then F t else t, s.relationships.map G⟩ := by
  have mapped := reduce_mapped reduced (g := id) (G := fun r _ => G r)
    (f := fun m => if m.id = n.id then { m with data := data } else m)
    (F := fun t => if t.id = n.id then F t else t) (fun m => by split <;> rfl) (fun e => Iff.rfl) ?_
    fun r _ e _ h => relationships e r h
  · rw [zipWith_left (reduce_ok_iff.mp reduced).2, List.map_id] at mapped
    exact mapped
  · intro t _ m hm ht
    have id := (of_toTable ht).1
    by_cases same : m.id = n.id
    · rw [if_pos same, if_pos (id.trans same)]
      rw [List.inj_on_of_nodup_map ids hm hn same] at ht ⊢
      exact table t ht
    · rw [if_neg same, if_neg (id ▸ same)]
      exact ht

theorem toTable_withColumns {n : Node} {t : Table} (h : n.toTable = .ok t) (cs : List NodeColumn) :
    Node.toTable { n with data := { n.data with columns := cs } } =
      .ok { t with columns := cs.map NodeColumn.toColumn } := by
  rcases n with ⟨id, type, position, label, comment, columns⟩
  cases label with
  | malformed v => cases h
  | text name =>
    cases h
    rfl

theorem reduce_putColumns (ids : (d.nodes.map Node.id).Nodup) (reduced : d.reduce = .ok s) {n : Node}
    (hn : n ∈ d.nodes) (cs : List NodeColumn) :
    (d.putData n.id { n.data with columns := cs }).reduce =
      .ok { s with tables := s.tables.map fun t =>
        if t.id = n.id then { t with columns := cs.map NodeColumn.toColumn } else t } := by
  have label : { n.data with columns := cs }.label = n.data.label := rfl
  have put := reduce_putData ids reduced hn (G := id) (fun t ht => toTable_withColumns ht cs)
    fun e r h => h.congr fun id _ => labelAt_putData_of_label ids hn label id
  rwa [List.map_id] at put

end Diagram

end SchemaDiagram
