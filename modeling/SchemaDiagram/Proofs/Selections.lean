import SchemaDiagram.Proofs.Integrity

/-!
The table that is selected. A selection dangles when the diagram has lost its table, and of the edits only
the removal of a table loses one.
-/

set_option autoImplicit false

namespace SchemaDiagram

open Diagram

def Diagram.ids (d : Diagram) : List String := d.nodes.map Node.id

def Session.Points (s : Session) : Prop :=
  s.selection.node = .null ∨ ∃ id ∈ s.diagram.ids, s.selection.node = .str id

instance (s : Session) : Decidable s.Points := inferInstanceAs (Decidable (_ ∨ _))

/-- An edit loses no node but the one that it removes. -/
theorem Edit.ids_apply {grid : Grid} {e : Edit} {d d' : Diagram} {answer : Option String}
    (run : (e.apply grid).run d = .ok answer d') :
    (∀ id, e ≠ .removeTable id) ∧ d.ids ⊆ d'.ids ∨ ∃ id, e = .removeTable (.str id) ∧
      (Diagram.removeTable (.str id)).run d = .ok () d' := by
  have put (id : String) (data : NodeData) : d.ids ⊆ (d.putData id data).ids := by
    have same : (d.putData id data).ids = d.ids := ids_mapNode fun _ => rfl
    rw [same]
    exact List.Subset.refl _
  cases e with
  | removeTable id =>
    obtain ⟨⟨_, run⟩, -⟩ := Change.answer_ok.mp run
    obtain ⟨n, found, -⟩ := removeTable_ok.mp run
    obtain rfl := id_of_node? found
    exact .inr ⟨n.id, rfl, run⟩
  | addTable p =>
    obtain ⟨i, run, -⟩ := Change.map_ok.mp run
    obtain ⟨-, p, name, -, -, rfl⟩ := addTable_ok.mp run
    exact .inl ⟨nofun, List.map_subset Node.id (List.subset_append_left d.nodes _)⟩
  | renameTable id v =>
    obtain ⟨⟨_, run⟩, -⟩ := Change.answer_ok.mp run
    obtain ⟨n, -, rfl⟩ := renameTable_ok.mp run
    exact .inl ⟨nofun, put _ _⟩
  | addColumn id update =>
    obtain ⟨⟨_, run⟩, -⟩ := Change.answer_ok.mp run
    obtain ⟨n, c, -, -, -, rfl⟩ := addColumn_ok.mp run
    exact .inl ⟨nofun, put _ _⟩
  | removeColumn id title =>
    obtain ⟨⟨_, run⟩, -⟩ := Change.answer_ok.mp run
    obtain ⟨n, c, -, -, rfl⟩ := removeColumn_ok.mp run
    exact .inl ⟨nofun, put _ _⟩
  | updateColumn id title update =>
    obtain ⟨⟨_, run⟩, -⟩ := Change.answer_ok.mp run
    obtain ⟨n, c, u, -, -, -, rfl⟩ := updateColumn_ok.mp run
    unfold retitle
    split <;> exact .inl ⟨nofun, put _ _⟩
  | addRelationship a ac b bc c =>
    obtain ⟨i, run, -⟩ := Change.map_ok.mp run
    obtain ⟨-, source, goal, c, t, -, -, -, -, rfl⟩ := addRelationship_ok.mp run
    exact .inl ⟨nofun, List.Subset.refl _⟩
  | removeRelationship id =>
    obtain ⟨⟨_, run⟩, -⟩ := Change.answer_ok.mp run
    obtain ⟨x, -, rfl⟩ := removeRelationship_ok.mp run
    exact .inl ⟨nofun, List.Subset.refl _⟩
  | retypeRelationship id c =>
    obtain ⟨⟨_, run⟩, -⟩ := Change.answer_ok.mp run
    obtain ⟨x, c, -, -, rfl⟩ := retypeRelationship_ok.mp run
    exact .inl ⟨nofun, List.Subset.refl _⟩

theorem Diagram.ids_removeTable {id : String} {d d' : Diagram}
    (run : (removeTable (.str id)).run d = .ok () d') : ∀ x ∈ d.ids, x ≠ id → x ∈ d'.ids := by
  obtain ⟨n, found, rfl⟩ := removeTable_ok.mp run
  obtain rfl : id = n.id := Json.str.inj (id_of_node? found)
  rintro _ hx other
  obtain ⟨m, hm, rfl⟩ := List.mem_map.mp hx
  exact List.mem_map_of_mem (List.mem_filter.mpr ⟨hm, decide_eq_true other⟩)

end SchemaDiagram
