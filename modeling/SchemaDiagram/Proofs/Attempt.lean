import SchemaDiagram.Proofs.DiagramChange
import SchemaDiagram.Proofs.Reduction

/-!
What an attempt to edit can come to. An attempt that fails or is rolled back leaves the diagram as
it was found, whatever the edit had put in place by then; one that passes leaves the changed diagram
and gives its schema.
-/

set_option autoImplicit false

namespace SchemaDiagram

open Diagram.Change (Clean Reads Total total_pure)

namespace Edit

theorem apply_clean (grid : Grid) (e : Edit) : Clean (e.apply grid) := by
  cases e with
  | addTable p =>
    exact (Diagram.addTable_clean grid p).bind_total fun _ => total_pure _
  | renameTable id name =>
    exact (Diagram.renameTable_clean id name).bind_total fun _ => total_pure _
  | removeTable id =>
    exact (Diagram.removeTable_clean id).bind_total fun _ => total_pure _
  | addColumn id update =>
    exact (Diagram.addColumn_clean id update).bind_total fun _ => total_pure _
  | removeColumn id title =>
    exact (Diagram.removeColumn_clean id title).bind_total fun _ => total_pure _
  | updateColumn id title update =>
    exact (Diagram.updateColumn_clean id title update).bind_total fun _ => total_pure _
  | addRelationship a ac b bc c =>
    exact (Diagram.addRelationship_clean a ac b bc c).bind_total fun _ => total_pure _
  | removeRelationship id =>
    exact (Diagram.removeRelationship_clean id).bind_total fun _ => total_pure _
  | retypeRelationship id c =>
    exact (Diagram.retypeRelationship_clean id c).bind_total fun _ => total_pure _

theorem answer_of_run {α : Type} {x : Diagram.Change α} {v id : Option String} {d d' : Diagram}
    (h : (x >>= fun _ => pure v).run d = .ok id d') : id = v := by
  obtain ⟨a, u, ha, hv⟩ := Diagram.Change.run_bind_ok h
  cases hv
  rfl

theorem answer_of_map {x : Diagram.Change String} {id : Option String} {d d' : Diagram}
    (h : (some <$> x).run d = .ok id d') : id.isSome = true := by
  have hm : some <$> x = x >>= fun a => pure (some a) := (bind_pure_comp some x).symm
  rw [hm] at h
  obtain ⟨a, u, ha, hv⟩ := Diagram.Change.run_bind_ok h
  cases hv
  rfl

theorem apply_id {grid : Grid} {e : Edit} {d d' : Diagram} {id : Option String}
    (h : (e.apply grid).run d = .ok id d') : id.isSome = e.makesId := by
  cases e with
  | addTable p => exact answer_of_map h
  | addRelationship a ac b bc c => exact answer_of_map h
  | renameTable _ _ | removeTable _ | addColumn _ _ | removeColumn _ _ | updateColumn _ _ _
  | removeRelationship _ | retypeRelationship _ _ =>
    rw [answer_of_run h]
    rfl

theorem accepted_ne_declined {e : Edit} {id : Option String} (h : id.isSome = e.makesId) :
    e.accepted id ≠ e.declined := by
  unfold accepted declined
  rw [← h]
  cases id with
  | none => simp
  | some s => simp [Json.ofText?]

end Edit

def Attempt.schema? : Attempt → Option Schema
  | .passed schema _ => some schema
  | _ => none

namespace Session

def saved (s : Session) : Session := { s with canvas := s.canvas.save }

theorem attempt_cases (grid : Grid) (e : Edit) (s : Session) :
    (∃ f, s.attempt grid e = (s.saved, .failed f)) ∨
    (∃ v : Verdict, v.valid = false ∧ s.attempt grid e = (s.saved, .rolledBack v)) ∨
    ∃ d id schema, (e.apply grid).run s.diagram = .ok id d ∧ d.reduce = .ok schema ∧
      schema.check.valid = true ∧
      s.attempt grid e = (s.saved.withDiagram d, .passed schema id) := by
  have hd : s.canvas.save.diagram = s.diagram := rfl
  cases hx : (e.apply grid).run s.diagram with
  | error f d =>
    -- nothing is in place yet, so it does not matter whether the fault is undone
    have hc : d = s.diagram := e.apply_clean grid s.diagram f d hx
    refine .inl ⟨f, ?_⟩
    unfold attempt change
    rw [hd, hx, hc]
    cases hf : f.reverts with
    | true =>
      simp only [hf, if_true]
      rfl
    | false =>
      simp only [hf]
      rfl
  | ok id d =>
    cases hr : d.reduce with
    | error f =>
      have hf : f.reverts = true := Diagram.reverts_of_reduce hr
      refine .inl ⟨f, ?_⟩
      unfold attempt change
      rw [hd, hx]
      simp only [hr, hf, if_true]
      rfl
    | ok schema =>
      cases hv : schema.check.valid with
      | false =>
        refine .inr (.inl ⟨schema.check, hv, ?_⟩)
        unfold attempt change
        rw [hd, hx]
        simp only [hr, hv]
        rfl
      | true =>
        refine .inr (.inr ⟨d, id, schema, rfl, hr, hv, ?_⟩)
        unfold attempt change
        rw [hd, hx]
        simp only [hr, hv, if_true]
        rfl

theorem attempt_of_reduce {grid : Grid} {e : Edit} {s : Session} {d : Diagram} {id : Option String}
    {schema : Schema} (run : (e.apply grid).run s.diagram = .ok id d)
    (reduced : d.reduce = .ok schema) :
    s.attempt grid e =
      if schema.check.valid then (s.saved.withDiagram d, .passed schema id)
      else (s.saved, .rolledBack schema.check) := by
  have hd : s.canvas.save.diagram = s.diagram := rfl
  unfold attempt change
  rw [hd, run]
  simp only [reduced]
  split <;> rfl

theorem passed_of_schema? {grid : Grid} {e : Edit} {s : Session} {schema : Schema}
    (passed : (s.attempt grid e).2.schema? = some schema) :
    ∃ d id, (e.apply grid).run s.diagram = .ok id d ∧ d.reduce = .ok schema ∧
      schema.check.valid = true ∧ s.attempt grid e = (s.saved.withDiagram d, .passed schema id) := by
  rcases s.attempt_cases grid e with ⟨f, ha⟩ | ⟨v, hv, ha⟩ | ⟨d, id, schema', hd, hr, hv, ha⟩
  · rw [ha] at passed
    cases passed
  · rw [ha] at passed
    cases passed
  · rw [ha] at passed
    obtain rfl := Option.some.inj passed
    exact ⟨d, id, hd, hr, hv, ha⟩

end Session

end SchemaDiagram
