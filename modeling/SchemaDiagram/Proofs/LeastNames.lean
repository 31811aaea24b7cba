import Mathlib.Data.Set.Card
import Mathlib.Order.Interval.Finset.Nat
import SchemaDiagram.Proofs.FreshNames

/-!
The least free name. New names are looked for one after the other from one past the number of names, and every
step of the search passes a name that is taken. So the search ends after no more steps than there are such
names, with the least number whose name is free, and this is at most the number of names beyond the first.
-/

set_option autoImplicit false

namespace SchemaDiagram.Naming

variable {taken : Set String} {stem : String} {start steps n : Nat}

/-- The search goes on from a number while its name is taken; after so many steps it ends at a number. -/
inductive Ends (taken : Set String) (stem : String) : Nat → Nat → Nat → Prop
  | free {n : Nat} (h : stem ++ toString n ∉ taken) : Ends taken stem n 0 n
  | step {start steps n : Nat} (h : stem ++ toString start ∈ taken) (later : Ends taken stem (start + 1) steps n) :
      Ends taken stem start (steps + 1) n

/-- The names of a stem that are numbered from a number on. -/
def numberedFrom (stem : String) (start : Nat) : Set String := {name | ∃ n, start ≤ n ∧ name = stem ++ toString n}

theorem Ends.number (h : Ends taken stem start steps n) : n = start + steps := by
  induction h with
  | free _ => rfl
  | step _ _ ih => omega

theorem Ends.passed (h : Ends taken stem start steps n) : ∀ k, start ≤ k → k < n → stem ++ toString k ∈ taken := by
  induction h with
  | free _ => omega
  | @step start steps n here _ ih =>
    intro k low high
    rcases Nat.eq_or_lt_of_le low with rfl | later
    · exact here
    · exact ih k later high

/-- Every step of the search passes a name of its own that is taken. -/
theorem Ends.steps_le (finite : taken.Finite) (h : Ends taken stem start steps n) :
    steps ≤ (taken ∩ numberedFrom stem start).ncard := by
  have passed : (fun k : Nat => stem ++ toString k) '' (Finset.Ico start n : Set Nat) ⊆
      taken ∩ numberedFrom stem start := by
    rintro _ ⟨k, hk, rfl⟩
    obtain ⟨low, high⟩ := Finset.mem_Ico.mp (Finset.mem_coe.mp hk)
    exact ⟨h.passed k low high, k, low, rfl⟩
  calc steps = (Finset.Ico start n).card := by rw [Nat.card_Ico, h.number, Nat.add_sub_cancel_left]
    _ = ((fun k : Nat => stem ++ toString k) '' (Finset.Ico start n : Set Nat)).ncard := by
      rw [Set.ncard_image_of_injective _ (append_toString_injective stem), Set.ncard_coe_finset]
    _ ≤ (taken ∩ numberedFrom stem start).ncard := Set.ncard_le_ncard passed (finite.inter_of_left _)

theorem ends_of_free (low : start ≤ n) (before : ∀ k, start ≤ k → k < n → stem ++ toString k ∈ taken)
    (free : stem ++ toString n ∉ taken) : Ends taken stem start (n - start) n := by
  induction h : n - start generalizing start with
  | zero =>
    obtain rfl : start = n := by omega
    exact .free free
  | succ steps ih =>
    refine .step (before start (Nat.le_refl _) (by omega)) (ih (by omega) (fun k later => ?_) (by omega))
    exact before k (by omega)

/-- The name that is found when the search begins one past the number of names. It ends after no more steps than
    there are names in its way, at the least number from there on whose name is free. -/
structure LeastFree (taken : Set String) (stem : String) (count : Nat) (name : String) : Prop where
  ends : ∃ steps n, Ends taken stem (count + 1) steps n ∧ name = stem ++ toString n ∧
    steps ≤ (taken ∩ numberedFrom stem (count + 1)).ncard
  least : ∃ n, IsLeast {n | count + 1 ≤ n ∧ stem ++ toString n ∉ taken} n ∧ name = stem ++ toString n ∧
    n ≤ 2 * count + 1

theorem ncard_names_le (names : List String) : {name | name ∈ names}.ncard ≤ names.length := by
  have same : {name | name ∈ names} = (names.toFinset : Set String) := by
    ext name
    simp
  rw [same, Set.ncard_coe_finset]
  exact names.toFinset_card_le

/-- The search through the names of a list finds the least free one. -/
theorem nextFree_leastFree (names : List String) (stem : String) {count : Nat} (few : names.length ≤ count) :
    LeastFree {name | name ∈ names} stem count (nextFree names stem (count + 1)) := by
  obtain ⟨n, low, found, free, before⟩ := nextFree_spec names stem (count + 1)
  have finite : {name | name ∈ names}.Finite := names.finite_toSet
  have ends : Ends {name | name ∈ names} stem (count + 1) (n - (count + 1)) n := ends_of_free low before free
  have steps := ends.steps_le finite
  have within : ({name | name ∈ names} ∩ numberedFrom stem (count + 1)).ncard ≤ names.length :=
    (Set.ncard_le_ncard Set.inter_subset_left finite).trans (ncard_names_le names)
  have number := ends.number
  refine ⟨⟨_, n, ends, found, steps⟩, n, ⟨⟨low, free⟩, fun k hk => ?_⟩, found, by omega⟩
  by_contra less
  exact hk.2 (before k hk.1 (by omega))

/-- A new table has the least free name from one past the number of tables on, and a new column the one from
    one past the number of columns. A table finds none only if a list or an object stands among the labels. -/
theorem least_free_names (nodes : List Node) (columns : List NodeColumn) :
    ((∃ name, nextTableName nodes = .ok name) ↔ ∀ n ∈ nodes, n.data.label.told = true) ∧
    (∀ name, nextTableName nodes = .ok name →
      LeastFree {name | ∃ n ∈ nodes, n.data.label = .text name} "new_table_" nodes.length name) ∧
    LeastFree {name | ∃ c ∈ columns, c.title = name} "column_" columns.length (nextColumnName columns) := by
  have made (told : ∀ n ∈ nodes, n.data.label.told = true) :
      nextTableName nodes = .ok (nextFree (nodes.filterMap fun n => n.data.label.text?) "new_table_"
        (nodes.length + 1)) := by
    rw [nextTableName, labelNames_of_told told]
    rfl
  have told (name : String) (h : nextTableName nodes = .ok name) : ∀ n ∈ nodes, n.data.label.told = true := by
    obtain ⟨names, found, -⟩ := Result.bind_ok h
    exact told_of_labelNames found
  refine ⟨⟨fun found => told _ found.choose_spec, fun h => ⟨_, made h⟩⟩, fun name h => ?_, ?_⟩
  · have same : {name | ∃ n ∈ nodes, n.data.label = .text name} =
        {name | name ∈ nodes.filterMap fun n => n.data.label.text?} := by
      ext name
      simp only [Set.mem_ofPred_eq, List.mem_filterMap, Label.text?_eq_some_iff]
    rw [made (told name h)] at h
    cases h
    rw [same]
    exact nextFree_leastFree _ _ (List.length_filterMap_le _ _)
  · have same : {name | ∃ c ∈ columns, c.title = name} = {name | name ∈ columns.map NodeColumn.title} := by
      ext name
      exact List.mem_map.symm
    rw [same]
    exact nextFree_leastFree _ _ (List.length_map _).le

example : nextColumnName [{ title := "column_3" }, { title := "column_1" }] = "column_4" := by
  decide +kernel

end SchemaDiagram.Naming
