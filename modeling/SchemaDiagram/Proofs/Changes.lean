import SchemaDiagram.Proofs.DiagramChange

/-!
What each change comes to when it succeeds: which nodes and edges it found, what it read out of its
arguments, and the diagram that is there afterwards. Each statement says both directions, so later
proofs never look into a change again.
-/

set_option autoImplicit false

namespace SchemaDiagram.Diagram

namespace Change

variable {α β : Type}

theorem bind_ok {x : Change α} {k : α → Change β} {d d' : Diagram} {b : β} :
    (x >>= k).run d = .ok b d' ↔ ∃ a u, x.run d = .ok a u ∧ (k a).run u = .ok b d' := by
  constructor
  · exact run_bind_ok
  · rintro ⟨a, u, ha, hb⟩
    rw [EStateM.run_bind, ha]
    exact hb

theorem pure_ok {a b : α} {d d' : Diagram} :
    (pure a : Change α).run d = .ok b d' ↔ b = a ∧ d' = d := by
  constructor
  · intro h
    cases h
    exact ⟨rfl, rfl⟩
  · rintro ⟨rfl, rfl⟩
    rfl

theorem lift_ok {r : Result α} {a : α} {d d' : Diagram} :
    (liftM r : Change α).run d = .ok a d' ↔ r = .ok a ∧ d' = d := by
  cases r with
  | ok b =>
    refine pure_ok.trans ?_
    simp [eq_comm]
  | error f =>
    constructor
    · intro h
      cases h
    · rintro ⟨h, -⟩
      cases h

theorem modify_ok {g : Diagram → Diagram} {u : PUnit} {d d' : Diagram} :
    (modify g : Change PUnit).run d = .ok u d' ↔ d' = g d := by
  constructor
  · intro h
    cases h
    rfl
  · rintro rfl
    rfl

theorem map_ok {g : α → β} {x : Change α} {b : β} {d d' : Diagram} :
    (g <$> x).run d = .ok b d' ↔ ∃ a, x.run d = .ok a d' ∧ b = g a := by
  have hm : g <$> x = x >>= fun a => pure (g a) := (bind_pure_comp g x).symm
  rw [hm]
  simp only [bind_ok, pure_ok]
  constructor
  · rintro ⟨a, _, ha, rfl, rfl⟩
    exact ⟨a, ha, rfl⟩
  · rintro ⟨a, ha, rfl⟩
    exact ⟨a, _, ha, rfl, rfl⟩

theorem answer_ok {x : Change α} {v b : β} {d d' : Diagram} :
    (x >>= fun _ => pure v).run d = .ok b d' ↔ (∃ a, x.run d = .ok a d') ∧ b = v := by
  simp only [bind_ok, pure_ok]
  constructor
  · rintro ⟨a, _, ha, rfl, rfl⟩
    exact ⟨⟨a, ha⟩, rfl⟩
  · rintro ⟨⟨a, ha⟩, rfl⟩
    exact ⟨a, _, ha, rfl, rfl⟩

theorem get_ok {u d d' : Diagram} :
    (get : Change Diagram).run d = .ok u d' ↔ u = d ∧ d' = d := by
  constructor
  · intro h
    cases h
    exact ⟨rfl, rfl⟩
  · rintro ⟨rfl, rfl⟩
    rfl

end Change

open Change

variable {d d' : Diagram}

theorem requireNode_ok {id : Json} {n : Node} :
    (requireNode id).run d = .ok n d' ↔ d.node? id = some n ∧ d' = d := by
  unfold requireNode
  simp only [bind_ok, get_ok]
  constructor
  · rintro ⟨_, _, ⟨rfl, rfl⟩, h⟩
    split at h
    · obtain ⟨rfl, rfl⟩ := pure_ok.mp h
      exact ⟨‹_›, rfl⟩
    · cases h
  · rintro ⟨h, rfl⟩
    refine ⟨_, _, ⟨rfl, rfl⟩, ?_⟩
    rw [h]
    rfl

theorem requireEdge_ok {id : Json} {e : Edge} :
    (requireEdge id).run d = .ok e d' ↔ d.edge? id = some e ∧ d' = d := by
  unfold requireEdge
  simp only [bind_ok, get_ok]
  constructor
  · rintro ⟨_, _, ⟨rfl, rfl⟩, h⟩
    split at h
    · obtain ⟨rfl, rfl⟩ := pure_ok.mp h
      exact ⟨‹_›, rfl⟩
    · cases h
  · rintro ⟨h, rfl⟩
    refine ⟨_, _, ⟨rfl, rfl⟩, ?_⟩
    rw [h]
    rfl

theorem moveTable_ok {id position : Json} :
    (moveTable id position).run d = .ok () d' ↔
      ∃ n p, d.node? id = some n ∧ Record.validated .value position = .ok p ∧
        d' = d.mapNode n.id fun m => { m with position := p } := by
  unfold moveTable
  simp only [bind_ok, requireNode_ok, lift_ok, modify_ok]
  constructor
  · rintro ⟨n, _, ⟨hn, rfl⟩, p, _, ⟨hp, rfl⟩, rfl⟩
    exact ⟨n, p, hn, hp, rfl⟩
  · rintro ⟨n, p, hn, hp, rfl⟩
    exact ⟨n, _, ⟨hn, rfl⟩, p, _, ⟨hp, rfl⟩, rfl⟩

def newTable (id name : String) (p : Position) : Node where
  id := id
  position := p
  data := { label := .text name, columns := [firstColumn] }

theorem addTable_ok {grid : Grid} {position : Json} {id : String} :
    (addTable grid position).run d = .ok id d' ↔
      Naming.nextTableId d.nodes = .ok id ∧
        ∃ p name, tablePlace grid d.nodes.length position = .ok p ∧
          Naming.nextTableName d.nodes = .ok name ∧
          d' = { d with nodes := d.nodes ++ [newTable id name p] } := by
  unfold addTable
  simp only [bind_ok, get_ok, lift_ok, modify_ok, pure_ok]
  constructor
  · rintro ⟨_, _, ⟨rfl, rfl⟩, _, _, ⟨hid, rfl⟩, p, _, ⟨hp, rfl⟩, name, _, ⟨hname, rfl⟩, _, _, rfl,
      rfl, rfl⟩
    exact ⟨hid, p, name, hp, hname, rfl⟩
  · rintro ⟨hid, p, name, hp, hname, rfl⟩
    exact ⟨_, _, ⟨rfl, rfl⟩, _, _, ⟨hid, rfl⟩, p, _, ⟨hp, rfl⟩, name, _, ⟨hname, rfl⟩, (), _, rfl,
      rfl, rfl⟩

theorem renameTable_ok {id name : Json} :
    (renameTable id name).run d = .ok () d' ↔
      ∃ n, d.node? id = some n ∧ d' = d.putData n.id { n.data with label := .ofName name } := by
  unfold renameTable
  simp only [bind_ok, requireNode_ok, modify_ok]
  constructor
  · rintro ⟨n, _, ⟨hn, rfl⟩, rfl⟩
    exact ⟨n, hn, rfl⟩
  · rintro ⟨n, hn, rfl⟩
    exact ⟨n, _, ⟨hn, rfl⟩, rfl⟩

theorem removeTable_ok {id : Json} :
    (removeTable id).run d = .ok () d' ↔
      ∃ n, d.node? id = some n ∧
        d' = filterEdges (fun e => e.source ≠ n.id ∧ e.target ≠ n.id)
          (filterNodes (fun m => m.id ≠ n.id) d) := by
  unfold removeTable
  simp only [bind_ok, requireNode_ok, modify_ok]
  constructor
  · rintro ⟨n, _, ⟨hn, rfl⟩, _, _, rfl, rfl⟩
    exact ⟨n, hn, rfl⟩
  · rintro ⟨n, hn, rfl⟩
    exact ⟨n, _, ⟨hn, rfl⟩, (), _, rfl, rfl⟩

theorem addColumn_ok {id update : Json} {title : String} :
    (addColumn id update).run d = .ok title d' ↔
      ∃ n c, d.node? id = some n ∧ newColumn n.data.columns update = .ok c ∧ title = c.title ∧
        d' = d.putData n.id { n.data with columns := n.data.columns ++ [c] } := by
  unfold addColumn
  simp only [bind_ok, requireNode_ok, lift_ok, modify_ok, pure_ok]
  constructor
  · rintro ⟨n, _, ⟨hn, rfl⟩, c, _, ⟨hc, rfl⟩, _, _, rfl, rfl, rfl⟩
    exact ⟨n, c, hn, hc, rfl, rfl⟩
  · rintro ⟨n, c, hn, hc, rfl, rfl⟩
    exact ⟨n, _, ⟨hn, rfl⟩, c, _, ⟨hc, rfl⟩, (), _, rfl, rfl, rfl⟩

theorem removeColumn_ok {id title : Json} :
    (removeColumn id title).run d = .ok () d' ↔
      ∃ n c, d.node? id = some n ∧ requireColumn n title = .ok c ∧
        d' = filterEdges (fun e => c.title ∉ columnsAt e n.id)
          (d.putData n.id
            { n.data with columns := n.data.columns.filter fun b => b.title ≠ c.title }) := by
  unfold removeColumn
  simp only [bind_ok, requireNode_ok, lift_ok, modify_ok]
  constructor
  · rintro ⟨n, _, ⟨hn, rfl⟩, c, _, ⟨hc, rfl⟩, _, _, rfl, rfl⟩
    exact ⟨n, c, hn, hc, rfl⟩
  · rintro ⟨n, c, hn, hc, rfl⟩
    exact ⟨n, _, ⟨hn, rfl⟩, c, _, ⟨hc, rfl⟩, (), _, rfl, rfl⟩

theorem putData_putData (d : Diagram) (id : String) (data data' : NodeData) :
    (d.putData id data).putData id data' = d.putData id data' := by
  unfold putData mapNode
  rw [List.map_map]
  refine congrArg (fun ns => { d with nodes := ns }) (List.map_congr_left fun m _ => ?_)
  by_cases same : m.id = id
  · rw [Function.comp_apply, if_pos same, if_pos same, if_pos same]
  · rw [Function.comp_apply, if_neg same, if_neg same]

def replaceColumn (title : String) (updated : NodeColumn) (cs : List NodeColumn) :
    List NodeColumn :=
  cs.map fun c => if c.title = title then updated else c

def retitle (id old new : String) (d : Diagram) : Diagram :=
  if new ≠ old then mapEdges (retitleEdge id old new) d else d

theorem updateColumn_ok {id title update : Json} :
    (updateColumn id title update).run d = .ok () d' ↔
      ∃ n current updated, d.node? id = some n ∧ requireColumn n title = .ok current ∧
        mergeColumn (membersOf (Record.write .full current)) update = .ok updated ∧
        d' = retitle n.id current.title updated.title (d.putData n.id
          { n.data with columns := replaceColumn current.title updated n.data.columns }) := by
  unfold updateColumn retitle
  simp only [bind_ok, requireNode_ok, lift_ok, modify_ok]
  constructor
  · rintro ⟨n, _, ⟨hn, rfl⟩, current, _, ⟨hc, rfl⟩, updated, _, ⟨hu, rfl⟩, _, _, rfl, h⟩
    refine ⟨n, current, updated, hn, hc, hu, ?_⟩
    split at h
    · rw [if_pos ‹_›]
      exact modify_ok.mp h
    · rw [if_neg ‹_›]
      exact (pure_ok.mp h).2
  · rintro ⟨n, current, updated, hn, hc, hu, rfl⟩
    refine ⟨n, _, ⟨hn, rfl⟩, current, _, ⟨hc, rfl⟩, updated, _, ⟨hu, rfl⟩, (), _, rfl, ?_⟩
    split
    · exact modify_ok.mpr rfl
    · exact pure_ok.mpr ⟨rfl, rfl⟩

def newEdge (id source goal fromColumn : String) (target : Option String) (c : Cardinality) :
    Edge where
  id := id
  source := source
  target := goal
  sourceHandle := some (Handle.ofColumn fromColumn)
  targetHandle := target
  label := some c.spelling

theorem addRelationship_ok {fromId fromColumn toId toColumn cardinality : Json} {id : String} :
    (addRelationship fromId fromColumn toId toColumn cardinality).run d = .ok id d' ↔
      Naming.nextRelationshipId d.edges = .ok id ∧
        ∃ source goal c target, d.node? fromId = some source ∧ d.node? toId = some goal ∧
          Cardinality.ofJson cardinality = .ok c ∧ Diagram.targetHandle toColumn = .ok target ∧
          d' = { d with edges := d.edges ++
            [newEdge id source.id goal.id fromColumn.display target c] } := by
  unfold addRelationship
  simp only [bind_ok, requireNode_ok, get_ok, lift_ok, modify_ok, pure_ok]
  constructor
  · rintro ⟨source, _, ⟨hs, rfl⟩, goal, _, ⟨hg, rfl⟩, c, _, ⟨hc, rfl⟩, _, _, ⟨rfl, rfl⟩, _, _,
      ⟨hid, rfl⟩, target, _, ⟨ht, rfl⟩, _, _, rfl, rfl, rfl⟩
    exact ⟨hid, source, goal, c, target, hs, hg, hc, ht, rfl⟩
  · rintro ⟨hid, source, goal, c, target, hs, hg, hc, ht, rfl⟩
    exact ⟨source, _, ⟨hs, rfl⟩, goal, _, ⟨hg, rfl⟩, c, _, ⟨hc, rfl⟩, _, _, ⟨rfl, rfl⟩, _, _,
      ⟨hid, rfl⟩, target, _, ⟨ht, rfl⟩, (), _, rfl, rfl, rfl⟩

theorem removeRelationship_ok {id : Json} :
    (removeRelationship id).run d = .ok () d' ↔
      ∃ e, d.edge? id = some e ∧ d' = filterEdges (fun x => x.id ≠ e.id) d := by
  unfold removeRelationship
  simp only [bind_ok, requireEdge_ok, modify_ok]
  constructor
  · rintro ⟨e, _, ⟨he, rfl⟩, rfl⟩
    exact ⟨e, he, rfl⟩
  · rintro ⟨e, he, rfl⟩
    exact ⟨e, _, ⟨he, rfl⟩, rfl⟩

def relabel (id : String) (c : Cardinality) (e : Edge) : Edge :=
  if e.id = id then { e with label := some c.spelling } else e

theorem retypeRelationship_ok {id cardinality : Json} :
    (retypeRelationship id cardinality).run d = .ok () d' ↔
      ∃ e c, d.edge? id = some e ∧ Cardinality.ofJson cardinality = .ok c ∧
        d' = mapEdges (relabel e.id c) d := by
  unfold retypeRelationship
  simp only [bind_ok, requireEdge_ok, lift_ok, modify_ok]
  constructor
  · rintro ⟨e, _, ⟨he, rfl⟩, c, _, ⟨hc, rfl⟩, rfl⟩
    exact ⟨e, c, he, hc, rfl⟩
  · rintro ⟨e, c, he, hc, rfl⟩
    exact ⟨e, _, ⟨he, rfl⟩, c, _, ⟨hc, rfl⟩, rfl⟩

end SchemaDiagram.Diagram
