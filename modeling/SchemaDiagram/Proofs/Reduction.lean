import SchemaDiagram.Reduction
import SchemaDiagram.Proofs.Results
import SchemaDiagram.Session.Edit

/-!
Reduction of diagrams. Whatever reduction refuses is a fault that an edit undoes.
-/

set_option autoImplicit false

namespace SchemaDiagram

namespace Diagram

theorem tablesOf_cons (n : Node) (nodes : List Node) :
    tablesOf (n :: nodes) =
      if n.isTable then do
        let t ← n.toTable
        let ts ← tablesOf nodes
        return t :: ts
      else tablesOf nodes := by
  unfold tablesOf
  by_cases h : n.isTable = true
  · rw [List.filter_cons_of_pos h, List.mapM_cons, if_pos h]
  · rw [List.filter_cons_of_neg h, if_neg h]

theorem reverts_of_toTable {n : Node} {f : Fault} (h : n.toTable = .error f) :
    f.reverts = true := by
  unfold Node.toTable at h
  split at h
  · cases h
  · cases h
    rfl

theorem reverts_of_relate {e : Edge} {a b : Label} {c : Cardinality} {f : Fault}
    (h : relate e a b c = .error f) : f.reverts = true := by
  unfold relate at h
  split at h
  · cases h
  · cases h
    rfl

theorem reverts_of_relationshipOf {nodes : List Node} {e : Edge} {f : Fault}
    (h : relationshipOf nodes e = .error f) : f.reverts = true := by
  unfold relationshipOf at h
  split at h
  · cases h
  · split at h
    · split at h
      · rename_i a b _ _ _ c _
        cases hr : relate e a.data.label b.data.label c with
        | ok r =>
          rw [hr] at h
          cases h
        | error g =>
          rw [hr] at h
          cases h
          exact reverts_of_relate hr
      · cases h
        rfl
    · cases h
      rfl

theorem relationshipsOf_error {nodes : List Node} {es : List Edge} {f : Fault}
    (h : relationshipsOf nodes es = .error f) : ∃ e ∈ es, relationshipOf nodes e = .error f := by
  induction es with
  | nil => cases h
  | cons e rest ih =>
    rcases Result.bind_error h with h | ⟨r, hr, h⟩
    · exact ⟨e, List.mem_cons_self, h⟩
    · rcases Result.bind_error h with h | ⟨rs, hrs, h⟩
      · obtain ⟨x, hx, hf⟩ := ih h
        exact ⟨x, List.mem_cons_of_mem e hx, hf⟩
      · cases h

theorem reduce_error {d : Diagram} {f : Fault} (h : d.reduce = .error f) :
    (∃ n ∈ d.nodes, n.toTable = .error f) ∨ ∃ e ∈ d.edges, relationshipOf d.nodes e = .error f := by
  rcases Result.bind_error h with h | ⟨ts, hts, h⟩
  · obtain ⟨n, hn, hf⟩ := Result.mapM_error h
    exact .inl ⟨n, (List.mem_filter.mp hn).1, hf⟩
  · rcases Result.bind_error h with h | ⟨rs, hrs, h⟩
    · exact .inr (relationshipsOf_error h)
    · cases h

theorem reverts_of_reduce {d : Diagram} {f : Fault} (h : d.reduce = .error f) :
    f.reverts = true := by
  rcases reduce_error h with ⟨n, -, hf⟩ | ⟨e, -, hf⟩
  · exact reverts_of_toTable hf
  · exact reverts_of_relationshipOf hf

end Diagram

end SchemaDiagram
