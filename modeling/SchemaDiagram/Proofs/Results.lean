import SchemaDiagram.Fault

/-!
Results of operations in sequence and over lists, and of reading records.
-/

set_option autoImplicit false

namespace SchemaDiagram

theorem Record.validated_ok {α : Type} [Record α] {src : Source} {v : Json} {a : α} :
    validated src v = .ok a ↔ decode src v = .ok a := by
  unfold validated validate
  cases (decode src v : Decoded α) <;> simp

namespace Result

variable {α β : Type}

theorem exists_of_isOk {x : Result α} (h : x.isOk = true) : ∃ a, x = .ok a := by
  cases x with
  | ok a => exact ⟨a, rfl⟩
  | error f => cases h

theorem bind_ok {x : Result α} {k : α → Result β} {b : β} (h : x >>= k = .ok b) :
    ∃ a, x = .ok a ∧ k a = .ok b := by
  cases x with
  | ok a => exact ⟨a, rfl, h⟩
  | error f => cases h

theorem bind_error {x : Result α} {k : α → Result β} {f : Fault} (h : x >>= k = .error f) :
    x = .error f ∨ ∃ a, x = .ok a ∧ k a = .error f := by
  cases x with
  | ok a => exact .inr ⟨a, rfl, h⟩
  | error g =>
    cases h
    exact .inl rfl

theorem map_cons (g : α → β) (x : Result α) (xs : Result (List α)) :
    (do let a ← x
        let as ← xs
        return a :: as : Result (List α)).map (List.map g) =
      (do let b ← x.map g
          let bs ← xs.map (List.map g)
          return b :: bs) := by
  cases x with
  | error f => rfl
  | ok a => cases xs <;> rfl

theorem mapM_error {g : α → Result β} {xs : List α} {f : Fault} (h : xs.mapM g = .error f) :
    ∃ a ∈ xs, g a = .error f := by
  induction xs with
  | nil => cases h
  | cons a rest ih =>
    rw [List.mapM_cons] at h
    rcases bind_error h with h | ⟨b, hb, h⟩
    · exact ⟨a, List.mem_cons_self, h⟩
    · rcases bind_error h with h | ⟨bs, hbs, h⟩
      · obtain ⟨c, hc, hf⟩ := ih h
        exact ⟨c, List.mem_cons_of_mem a hc, hf⟩
      · cases h

end Result

end SchemaDiagram
