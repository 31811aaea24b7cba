import SchemaDiagram.Proofs.Attempt
import SchemaDiagram.Proofs.Changes
import SchemaDiagram.Proofs.EditAtomic
import SchemaDiagram.Proofs.FreshNames
import SchemaDiagram.Proofs.RoundTrip
import SchemaDiagram.Session.Action

/-!
Diagrams keep together. Ids of nodes and of edges are pairwise distinct, edges with two ends lead
from node to node, and labels of edges say nothing or are cardinalities. Every change of a diagram
is made of a few modifications, and each of those keeps all four; a change that fails makes none.
Reduction has nothing to refuse in a diagram that has them, save labels of nodes that are no texts.
-/

set_option autoImplicit false

namespace SchemaDiagram

def LegalLabel (label : Option String) : Prop :=
  label = none ∨ label = some "" ∨ ∃ c : Cardinality, label = some c.spelling

theorem legalLabel_spelling (c : Cardinality) : LegalLabel (some c.spelling) := .inr (.inr ⟨c, rfl⟩)

def Fault.ofReduction : Fault → Bool
  | danglingEdge _ _ _ | unknownLabel _ _ => true
  | _ => false

def Edge.Loose (e : Edge) : Prop := e.source = "" ∨ e.target = ""

namespace Diagram

/-- Ids are distinct, edges with two ends are attached to nodes, and labels are legal. -/
structure Integral (d : Diagram) : Prop where
  nodes : (d.nodes.map Node.id).Nodup
  edges : (d.edges.map Edge.id).Nodup
  attached : ∀ e ∈ d.edges, e.source ≠ "" → e.target ≠ "" →
    e.source ∈ d.nodes.map Node.id ∧ e.target ∈ d.nodes.map Node.id
  legal : ∀ e ∈ d.edges, LegalLabel e.label

/-- What reduction asks of nodes and of edges with two ends; loose edges and ids of edges do not
    matter to it. -/
structure Attached (d : Diagram) : Prop where
  nodes : (d.nodes.map Node.id).Nodup
  attached : ∀ e ∈ d.edges, ¬ e.Loose →
    e.source ∈ d.nodes.map Node.id ∧ e.target ∈ d.nodes.map Node.id ∧ LegalLabel e.label

theorem Integral.toAttached {d : Diagram} (h : d.Integral) : d.Attached where
  nodes := h.nodes
  attached e he tight := by
    obtain ⟨hs, ht⟩ := not_or.mp tight
    obtain ⟨source, target⟩ := h.attached e he hs ht
    exact ⟨source, target, h.legal e he⟩

/-- Every node is headed with a text. -/
def Labelled (d : Diagram) : Prop := ∀ n ∈ d.nodes, ∃ name, n.data.label = .text name

variable {d d' : Diagram}

theorem mem_of_node? {id : Json} {n : Node} (h : d.node? id = some n) : n ∈ d.nodes :=
  List.mem_of_find?_eq_some h

/-- One of the things that changes of a diagram are made of. With `named`, tables keep texts for
    their labels. -/
inductive Modified (named : Prop) (d : Diagram) : Diagram → Prop where
  | newTable {id : String} (name : String) (p : Position) (fresh : id ∉ d.nodes.map Node.id) :
      Modified named d { d with nodes := d.nodes ++ [Diagram.newTable id name p] }
  | mapNode (id : String) {f : Node → Node}
      (same : ∀ n, (f n).id = n.id ∧ (f n).isTable = n.isTable)
      (texts : named → d.Labelled → ∀ n ∈ d.nodes, ∃ name, (f n).data.label = .text name) :
      Modified named d (d.mapNode id f)
  | detach (id : String) :
      Modified named d (filterEdges (fun e => e.source ≠ id ∧ e.target ≠ id)
        (filterNodes (fun n => n.id ≠ id) d))
  | newEdge {id source target : String} (column : String) (handle : Option String)
      (c : Cardinality) (fresh : id ∉ d.edges.map Edge.id) (start : source ∈ d.nodes.map Node.id)
      (goal : target ∈ d.nodes.map Node.id) :
      Modified named d
        { d with edges := d.edges ++ [Diagram.newEdge id source target column handle c] }
  | filterEdges (p : Edge → Bool) : Modified named d (filterEdges p d)
  | mapEdges {f : Edge → Edge}
      (same : ∀ e, (f e).id = e.id ∧ (f e).source = e.source ∧ (f e).target = e.target)
      (legal : ∀ e, LegalLabel e.label → LegalLabel (f e).label) : Modified named d (mapEdges f d)

theorem legal_relabel (id : String) (c : Cardinality) (e : Edge) (h : LegalLabel e.label) :
    LegalLabel (relabel id c e).label := by
  unfold relabel
  split
  · exact legalLabel_spelling c
  · exact h

theorem same_relabel (id : String) (c : Cardinality) (e : Edge) :
    (relabel id c e).id = e.id ∧ (relabel id c e).source = e.source ∧
      (relabel id c e).target = e.target := by
  unfold relabel
  split <;> exact ⟨rfl, rfl, rfl⟩

theorem modified_putColumns {named : Prop} {n : Node} (hn : n ∈ d.nodes) (cs : List NodeColumn) :
    Modified named d (d.putData n.id { n.data with columns := cs }) :=
  .mapNode n.id (fun _ => ⟨rfl, rfl⟩) fun _ labelled _ _ => labelled n hn

/-- What every modification keeps, a change that succeeds keeps. -/
theorem apply_induction {P : Diagram → Prop} {named : Prop}
    (step : ∀ u u', Modified named u u' → P u → P u') {grid : Grid} {e : Edit} {id : Option String}
    (texts : named → ∀ i v, e = .renameTable i v → ∃ name, v = .str name)
    (run : (e.apply grid).run d = .ok id d') (h : P d) : P d' := by
  cases e with
  | addTable p =>
    obtain ⟨i, run, -⟩ := Change.map_ok.mp run
    obtain ⟨hid, p, name, -, -, rfl⟩ := addTable_ok.mp run
    exact step _ _ (.newTable name p (Naming.nextNumbered_not_mem hid)) h
  | renameTable id v =>
    obtain ⟨⟨_, run⟩, -⟩ := Change.answer_ok.mp run
    obtain ⟨n, -, rfl⟩ := renameTable_ok.mp run
    refine step _ _ (.mapNode n.id (fun _ => ⟨rfl, rfl⟩) fun named _ _ _ => ?_) h
    obtain ⟨name, rfl⟩ := texts named id v rfl
    exact ⟨name, rfl⟩
  | removeTable id =>
    obtain ⟨⟨_, run⟩, -⟩ := Change.answer_ok.mp run
    obtain ⟨n, -, rfl⟩ := removeTable_ok.mp run
    exact step _ _ (.detach n.id) h
  | addColumn id update =>
    obtain ⟨⟨_, run⟩, -⟩ := Change.answer_ok.mp run
    obtain ⟨n, c, hn, -, -, rfl⟩ := addColumn_ok.mp run
    exact step _ _ (modified_putColumns (mem_of_node? hn) _) h
  | removeColumn id title =>
    obtain ⟨⟨_, run⟩, -⟩ := Change.answer_ok.mp run
    obtain ⟨n, c, hn, -, rfl⟩ := removeColumn_ok.mp run
    exact step _ _ (.filterEdges _) (step _ _ (modified_putColumns (mem_of_node? hn) _) h)
  | updateColumn id title update =>
    obtain ⟨⟨_, run⟩, -⟩ := Change.answer_ok.mp run
    obtain ⟨n, c, u, hn, -, -, rfl⟩ := updateColumn_ok.mp run
    have put (cs : List NodeColumn) := step _ _ (modified_putColumns (mem_of_node? hn) cs) h
    unfold retitle
    split
    · exact step _ _ (.mapEdges (fun _ => ⟨rfl, rfl, rfl⟩) fun _ legal => legal) (put _)
    · exact put _
  | addRelationship a ac b bc c =>
    obtain ⟨i, run, -⟩ := Change.map_ok.mp run
    obtain ⟨hid, source, goal, c, t, hs, hg, -, -, rfl⟩ := addRelationship_ok.mp run
    exact step _ _ (.newEdge _ t c (Naming.nextNumbered_not_mem hid)
      (List.mem_map_of_mem (mem_of_node? hs)) (List.mem_map_of_mem (mem_of_node? hg))) h
  | removeRelationship id =>
    obtain ⟨⟨_, run⟩, -⟩ := Change.answer_ok.mp run
    obtain ⟨x, -, rfl⟩ := removeRelationship_ok.mp run
    exact step _ _ (.filterEdges _) h
  | retypeRelationship id c =>
    obtain ⟨⟨_, run⟩, -⟩ := Change.answer_ok.mp run
    obtain ⟨x, c, -, -, rfl⟩ := retypeRelationship_ok.mp run
    exact step _ _ (.mapEdges (same_relabel x.id c) (legal_relabel x.id c)) h

theorem modified_moveTable {named : Prop} {id position : Json}
    (run : (moveTable id position).run d = .ok () d') : Modified named d d' := by
  obtain ⟨n, p, -, -, rfl⟩ := moveTable_ok.mp run
  exact .mapNode n.id (fun _ => ⟨rfl, rfl⟩) fun _ labelled => labelled

theorem ids_mapNode {id : String} {f : Node → Node} (same : ∀ n, (f n).id = n.id) :
    (d.mapNode id f).nodes.map Node.id = d.nodes.map Node.id := by
  unfold mapNode
  rw [List.map_map]
  refine List.map_congr_left fun n _ => ?_
  rw [Function.comp_apply]
  split
  · exact same n
  · rfl

theorem nodup_append_fresh {α β : Type} {f : α → β} {as : List α} {a : α}
    (distinct : (as.map f).Nodup) (fresh : f a ∉ as.map f) : ((as ++ [a]).map f).Nodup := by
  rw [List.map_append, List.map_singleton]
  refine distinct.append (List.nodup_singleton _) fun b hb hs => fresh ?_
  rwa [List.mem_singleton.mp hs] at hb

namespace Attached

theorem mapNode (h : d.Attached) {id : String} {f : Node → Node}
    (same : ∀ n, (f n).id = n.id) : (d.mapNode id f).Attached := by
  have ids : (d.mapNode id f).nodes.map Node.id = d.nodes.map Node.id := ids_mapNode same
  refine ⟨?_, ?_⟩
  · rw [ids]
    exact h.nodes
  · rw [ids]
    exact h.attached

theorem filterEdges (h : d.Attached) (p : Edge → Bool) : (filterEdges p d).Attached where
  nodes := h.nodes
  attached e he := h.attached e (List.mem_of_mem_filter he)

theorem mapEdges (h : d.Attached) {f : Edge → Edge}
    (same : ∀ e, (f e).source = e.source ∧ (f e).target = e.target)
    (legal : ∀ e, LegalLabel e.label → LegalLabel (f e).label) : (mapEdges f d).Attached where
  nodes := h.nodes
  attached := by
    intro e he
    obtain ⟨b, hb, rfl⟩ := List.mem_map.mp he
    unfold Edge.Loose
    rw [(same b).1, (same b).2]
    intro tight
    obtain ⟨source, target, label⟩ := h.attached b hb tight
    exact ⟨source, target, legal b label⟩

theorem appendNode (h : d.Attached) {n : Node} (fresh : n.id ∉ d.nodes.map Node.id) :
    Attached { d with nodes := d.nodes ++ [n] } where
  nodes := nodup_append_fresh h.nodes fresh
  attached e he tight := by
    obtain ⟨source, target, legal⟩ := h.attached e he tight
    rw [List.map_append]
    exact ⟨List.mem_append_left _ source, List.mem_append_left _ target, legal⟩

theorem appendEdge (h : d.Attached) {e : Edge} (source : e.source ∈ d.nodes.map Node.id)
    (target : e.target ∈ d.nodes.map Node.id) (legal : LegalLabel e.label) :
    Attached { d with edges := d.edges ++ [e] } where
  nodes := h.nodes
  attached b hb tight := by
    rcases List.mem_append.mp hb with hb | hb
    · exact h.attached b hb tight
    · rw [List.mem_singleton.mp hb]
      exact ⟨source, target, legal⟩

theorem detach (h : d.Attached) (id : String) :
    (Diagram.filterEdges (fun e => e.source ≠ id ∧ e.target ≠ id)
      (filterNodes (fun n => n.id ≠ id) d)).Attached where
  nodes := h.nodes.sublist (List.filter_sublist.map Node.id)
  attached e he tight := by
    have keeps : ∀ i, i ∈ d.nodes.map Node.id → i ≠ id →
        i ∈ (d.nodes.filter fun n => n.id ≠ id).map Node.id := by
      intro i hi hne
      obtain ⟨n, hn, rfl⟩ := List.mem_map.mp hi
      exact List.mem_map_of_mem (List.mem_filter.mpr ⟨hn, by simpa using hne⟩)
    obtain ⟨he, hp⟩ := List.mem_filter.mp he
    obtain ⟨source, target, legal⟩ := h.attached e he tight
    simp only [decide_eq_true_eq] at hp
    exact ⟨keeps _ source hp.1, keeps _ target hp.2, legal⟩

theorem modified {named : Prop} (h : d.Attached) (m : Modified named d d') : d'.Attached := by
  cases m with
  | newTable name p fresh => exact h.appendNode fresh
  | mapNode id same => exact h.mapNode fun n => (same n).1
  | detach id => exact h.detach id
  | newEdge column handle c fresh start goal =>
    exact h.appendEdge start goal (legalLabel_spelling c)
  | filterEdges p => exact h.filterEdges p
  | mapEdges same legal => exact h.mapEdges (fun e => (same e).2) legal

end Attached

structure LegalEdges (es : List Edge) : Prop where
  distinct : (es.map Edge.id).Nodup
  legal : ∀ e ∈ es, LegalLabel e.label

theorem LegalEdges.filter {es : List Edge} (h : LegalEdges es) (p : Edge → Bool) :
    LegalEdges (es.filter p) where
  distinct := h.distinct.sublist (List.filter_sublist.map Edge.id)
  legal e he := h.legal e (List.mem_of_mem_filter he)

theorem LegalEdges.map {es : List Edge} (h : LegalEdges es) {f : Edge → Edge}
    (same : ∀ e, (f e).id = e.id) (legal : ∀ e, LegalLabel e.label → LegalLabel (f e).label) :
    LegalEdges (es.map f) where
  distinct := by
    have ids : (es.map f).map Edge.id = es.map Edge.id := by
      rw [List.map_map]
      exact List.map_congr_left fun e _ => same e
    rw [ids]
    exact h.distinct
  legal := List.forall_mem_map.mpr fun e he => legal e (h.legal e he)

theorem LegalEdges.append {es : List Edge} (h : LegalEdges es) {e : Edge} (fresh : e.id ∉ es.map Edge.id)
    (legal : LegalLabel e.label) : LegalEdges (es ++ [e]) where
  distinct := nodup_append_fresh h.distinct fresh
  legal b hb := by
    rcases List.mem_append.mp hb with hb | hb
    · exact h.legal b hb
    · rw [List.mem_singleton.mp hb]
      exact legal

theorem LegalEdges.modified {named : Prop} (h : LegalEdges d.edges) (m : Modified named d d') :
    LegalEdges d'.edges := by
  cases m with
  | newTable | mapNode => exact h
  | detach | filterEdges => exact h.filter _
  | newEdge column handle c fresh => exact h.append fresh (legalLabel_spelling c)
  | mapEdges same legal => exact h.map (fun e => (same e).1) legal

theorem integral_iff : d.Integral ↔ d.Attached ∧ LegalEdges d.edges := by
  constructor
  · intro h
    exact ⟨h.toAttached, h.edges, h.legal⟩
  · rintro ⟨attached, distinct, legal⟩
    refine ⟨attached.nodes, distinct, fun e he hs ht => ?_, legal⟩
    obtain ⟨source, target, -⟩ := attached.attached e he (not_or.mpr ⟨hs, ht⟩)
    exact ⟨source, target⟩

theorem Integral.modified {named : Prop} (h : d.Integral) (m : Modified named d d') :
    d'.Integral := by
  obtain ⟨attached, legal⟩ := integral_iff.mp h
  exact integral_iff.mpr ⟨attached.modified m, legal.modified m⟩

theorem Labelled.modified {named : Prop} (h : d.Labelled) (texts : named)
    (m : Modified named d d') : d'.Labelled := by
  cases m with
  | newTable name =>
    intro n hn
    rcases List.mem_append.mp hn with hn | hn
    · exact h n hn
    · rw [List.mem_singleton.mp hn]
      exact ⟨name, rfl⟩
  | mapNode id same labels =>
    refine List.forall_mem_map.mpr fun n hn => ?_
    split
    · exact labels texts h n hn
    · exact h n hn
  | detach => exact fun n hn => h n (List.mem_of_mem_filter hn)
  | newEdge | filterEdges | mapEdges => exact h

theorem cardinality?_of_legal {label : Option String} (h : LegalLabel label) :
    ∃ c, cardinality? label = some c := by
  rcases h with rfl | rfl | ⟨c, rfl⟩
  · exact ⟨.oneToMany, rfl⟩
  · exact ⟨.oneToMany, rfl⟩
  · cases c <;> exact ⟨_, rfl⟩

/-- An edge is loose and passed over, or relates the nodes at its ends. -/
theorem Attached.relationshipOf_cases (h : d.Attached) {e : Edge} (he : e ∈ d.edges) :
    relationshipOf d.nodes e = .ok none ∨
      ∃ a ∈ d.nodes, ∃ b ∈ d.nodes, ∃ c, relationshipOf d.nodes e =
        some <$> relate e a.data.label b.data.label c := by
  by_cases loose : e.Loose
  · exact .inl (if_pos loose)
  · obtain ⟨source, target, legal⟩ := h.attached e he loose
    obtain ⟨a, ha, hs⟩ := List.mem_map.mp source
    obtain ⟨b, hb, ht⟩ := List.mem_map.mp target
    obtain ⟨c, hc⟩ := cardinality?_of_legal legal
    refine .inr ⟨a, ha, b, hb, c, ?_⟩
    unfold Edge.Loose at loose
    unfold relationshipOf
    rw [if_neg loose, ← hs, ← ht, endpoint?_of_mem h.nodes ha, endpoint?_of_mem h.nodes hb, hc]

theorem Attached.not_ofReduction (h : d.Attached) {f : Fault} (hf : d.reduce = .error f) :
    f.ofReduction = false := by
  rcases reduce_error hf with ⟨n, -, hf⟩ | ⟨e, he, hf⟩
  · unfold Node.toTable at hf
    split at hf
    · cases hf
    · cases hf
      rfl
  · rcases h.relationshipOf_cases he with ho | ⟨a, -, b, -, c, ho⟩
    · rw [ho] at hf
      cases hf
    · rw [ho] at hf
      unfold relate at hf
      split at hf
      · cases hf
      · cases hf
        rfl

theorem Attached.reduce_ok (h : d.Attached) (labelled : d.Labelled) :
    ∃ schema, d.reduce = .ok schema := by
  cases hr : d.reduce with
  | ok schema => exact ⟨schema, rfl⟩
  | error f =>
    exfalso
    rcases reduce_error hr with ⟨n, hn, hf⟩ | ⟨e, he, hf⟩
    · obtain ⟨name, text⟩ := labelled n hn
      unfold Node.toTable at hf
      rw [text] at hf
      cases hf
    · rcases h.relationshipOf_cases he with ho | ⟨a, ha, b, hb, c, ho⟩
      · rw [ho] at hf
        cases hf
      · obtain ⟨x, hx⟩ := labelled a ha
        obtain ⟨y, hy⟩ := labelled b hb
        rw [ho, hx, hy] at hf
        cases hf

end Diagram

namespace Action

def Changes : Action → Prop
  | change _ | moveTable _ _ => True
  | _ => False

def NamesByText : Action → Prop
  | change (.renameTable _ name) => ∃ s, name = .str s
  | _ => True

def performAll (grid : Grid) (as : List Action) (s : Session) : Session :=
  as.foldl (fun s a => (a.perform grid s).1) s

theorem diagram_carryOut {α : Type} {x : Diagram.Change α} (clean : Diagram.Change.Clean x)
    (answer : α → Json) (s : Session) :
    (carryOut x answer s).1.diagram = s.diagram ∨
      ∃ a, x.run s.diagram = .ok a (carryOut x answer s).1.diagram := by
  unfold carryOut
  cases hx : x.run s.diagram with
  | ok a d => exact .inr ⟨a, rfl⟩
  | error f d => exact .inl (clean _ _ _ hx)

theorem perform_change (grid : Grid) (e : Edit) (s : Session) :
    ((change e).perform grid s).1.diagram = s.diagram ∨
      ∃ id, (e.apply grid).run s.diagram = .ok id ((change e).perform grid s).1.diagram := by
  cases e with
  | addColumn id update =>
    rcases diagram_carryOut (Diagram.addColumn_clean id update) .str s with same | ⟨title, run⟩
    · exact .inl same
    · exact .inr ⟨none, Diagram.Change.answer_ok.mpr ⟨⟨title, run⟩, rfl⟩⟩
  | _ => exact diagram_carryOut (Edit.apply_clean grid _) .ofText? s

theorem performAll_induction {P : Diagram → Prop} {named : Prop} {grid : Grid}
    (step : ∀ d d', Diagram.Modified named d d' → P d → P d') {as : List Action}
    (changes : ∀ a ∈ as, a.Changes) (texts : named → ∀ a ∈ as, a.NamesByText) {s : Session}
    (h : P s.diagram) : P (performAll grid as s).diagram := by
  induction as generalizing s with
  | nil => exact h
  | cons a rest ih =>
    obtain ⟨ha, changes⟩ := List.forall_mem_cons.mp changes
    refine ih changes (fun hn => (List.forall_mem_cons.mp (texts hn)).2) ?_
    cases a with
    | change e =>
      rcases perform_change grid e s with same | ⟨id, run⟩
      · rwa [same]
      · refine Diagram.apply_induction step (fun hn i v he => ?_) run h
        subst he
        exact texts hn _ List.mem_cons_self
    | moveTable id p =>
      rcases diagram_carryOut (Diagram.moveTable_clean id p) (fun _ => .null) s with same | ⟨u, run⟩
      · exact same ▸ h
      · exact step _ _ (Diagram.modified_moveTable run) h
    | _ => cases ha

/-- After changes of an integral diagram, whether they succeed or fail, the diagram is integral, and
    reduction raises nothing of its own. It succeeds if all tables have had texts for labels. -/
theorem integral_of_changes (grid : Grid) (s : Session) (as : List Action)
    (changes : ∀ a ∈ as, a.Changes) (h : s.diagram.Integral) :
    (performAll grid as s).diagram.Integral ∧
      (∀ f, (performAll grid as s).diagram.reduce = .error f → f.ofReduction = false) ∧
      ((∀ a ∈ as, a.NamesByText) → s.diagram.Labelled →
        ∃ schema, (performAll grid as s).diagram.reduce = .ok schema) := by
  have kept : (performAll grid as s).diagram.Integral :=
    performAll_induction (fun _ _ m (h : Diagram.Integral _) => h.modified m) changes False.elim h
  refine ⟨kept, fun f hf => kept.toAttached.not_ofReduction hf,
    fun texts labelled => kept.toAttached.reduce_ok ?_⟩
  exact performAll_induction (fun _ _ m (h : Diagram.Labelled _) => h.modified trivial m) changes
    (fun _ => texts) labelled

theorem usersAndPosts_integral : Desk.usersAndPosts.Integral where
  nodes := by decide
  edges := by decide
  attached := by decide
  legal := by
    intro e he
    simp only [Desk.usersAndPosts, List.mem_cons, List.not_mem_nil, or_false] at he
    rw [he]
    exact .inl rfl

theorem usersAndPosts_labelled : Desk.usersAndPosts.Labelled := by
  intro n hn
  simp only [Desk.usersAndPosts, List.mem_cons, List.not_mem_nil, or_false] at hn
  rcases hn with rfl | rfl <;> exact ⟨_, rfl⟩

/-- A table is added, loses its name and gets an edge, another one is not there to be moved, a column
    is retitled, and a table goes with its edges. -/
theorem integral_of_mixed_changes :
    let s := Session.blank.withDiagram Desk.usersAndPosts
    let as := [
      change (.addTable .null),
      change (.renameTable (.str "table_1") (.str "")),
      change (.addRelationship (.str "table_1") (.str "id") (.str "b") .null (.str "ONE_TO_ONE")),
      moveTable (.str "c") .null,
      change (.updateColumn (.str "a") (.str "id") (.obj [("title", .str "key")])),
      change (.removeTable (.str "a"))]
    let d := (performAll {} as s).diagram
    d.nodes.map Node.id = ["b", "table_1"] ∧ d.edges.map Edge.id = ["rel_1"] ∧ d.Integral ∧
      ∃ schema, d.reduce = .ok schema := by
  intro s as d
  have changes : ∀ a ∈ as, a.Changes := by simp [as, Changes]
  have texts : ∀ a ∈ as, a.NamesByText := by simp [as, NamesByText]
  obtain ⟨kept, -, reduces⟩ := integral_of_changes {} s as changes usersAndPosts_integral
  exact ⟨by decide +kernel, by decide +kernel, kept, reduces texts usersAndPosts_labelled⟩

end Action

end SchemaDiagram
