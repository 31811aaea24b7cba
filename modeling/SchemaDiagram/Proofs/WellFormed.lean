import Mathlib.Data.List.Nodup
import SchemaDiagram.Schema.Validation

/-!
What the check accepts. Well-formedness is said without a scan: no order of tables, no names seen so
far and no table that is passed over. The check finds no issue just when the schema is well formed.
-/

set_option autoImplicit false

namespace SchemaDiagram

open Text (isBlank)

structure Table.WellFormed (t : Table) : Prop where
  named : isBlank t.name = false
  inhabited : t.columns ≠ []
  columns_named : ∀ c ∈ t.columns, isBlank c.name = false
  columns_distinct : (t.columns.map Column.name).Nodup
  columns_typed : ∀ c ∈ t.columns, isBlank c.type = false

/-- The end of a relationship names a table, and its column, unless it is empty, is a column of that
    table. -/
def EndsAt (tables : List Table) (table column : String) : Prop :=
  ∃ t ∈ tables, t.name = table ∧ (column ≠ "" → ∃ c ∈ t.columns, c.name = column)

structure Relationship.WellFormed (tables : List Table) (r : Relationship) : Prop where
  source : EndsAt tables r.fromTable r.fromColumn
  target : EndsAt tables r.toTable r.toColumn
  apart : ¬ (r.fromTable = r.toTable ∧ r.fromColumn = r.toColumn ∧ r.fromColumn ≠ "")

structure Schema.WellFormed (s : Schema) : Prop where
  tables : ∀ t ∈ s.tables, t.WellFormed
  distinct : (s.tables.map Table.name).Nodup
  relationships : ∀ r ∈ s.relationships, r.WellFormed s.tables

/-- Names that are pairwise distinct, and none of which was seen before. -/
def New (seen names : List String) : Prop := names.Nodup ∧ ∀ n ∈ names, n ∉ seen

theorem new_nil (seen : List String) : New seen [] :=
  ⟨List.nodup_nil, fun _ hn => absurd hn List.not_mem_nil⟩

theorem new_of_nothing_seen {names : List String} : New [] names ↔ names.Nodup :=
  ⟨fun h => h.1, fun h => ⟨h, fun _ _ => List.not_mem_nil⟩⟩

theorem new_cons {seen seen' names : List String} {n : String}
    (hs : ∀ m, m ∈ seen' ↔ m = n ∨ m ∈ seen) :
    New seen (n :: names) ↔ n ∉ seen ∧ New seen' names := by
  unfold New
  rw [List.nodup_cons, List.forall_mem_cons]
  constructor
  · rintro ⟨⟨hn, hd⟩, hf, hr⟩
    refine ⟨hf, hd, fun m hm hms => ?_⟩
    rcases (hs m).mp hms with rfl | hms
    · exact hn hm
    · exact hr m hm hms
  · rintro ⟨hf, hd, hr⟩
    refine ⟨⟨fun hn => ?_, hd⟩, hf, fun m hm hms => ?_⟩
    · exact hr n hn ((hs n).mpr (.inl rfl))
    · exact hr m hm ((hs m).mpr (.inr hms))

namespace Schema

theorem columnIssues_eq_nil (table : String) (seen : List String) (cs : List Column) :
    columnIssues table seen cs = [] ↔
      (∀ c ∈ cs, isBlank c.name = false ∧ isBlank c.type = false) ∧
        New seen (cs.map Column.name) := by
  induction cs generalizing seen with
  | nil => exact ⟨fun _ => ⟨fun c hc => absurd hc List.not_mem_nil, new_nil seen⟩, fun _ => rfl⟩
  | cons c rest ih =>
    have hs : ∀ m, m ∈ c.name :: seen ↔ m = c.name ∨ m ∈ seen := fun m => List.mem_cons
    rw [columnIssues, List.forall_mem_cons, List.map_cons, new_cons hs]
    cases hb : isBlank c.name with
    | true => simp
    | false =>
      have hd : (if c.name ∈ seen then [Issue.duplicateColumn table c.name] else []) = [] ↔
          c.name ∉ seen := by
        split <;> simp [*]
      have ht : (if isBlank c.type then [Issue.missingColumnType table c.name] else []) = [] ↔
          isBlank c.type = false := by
        split <;> simp [*]
      simp only [Bool.false_eq_true, if_false, List.append_eq_nil_iff, hd, ht, ih, true_and]
      constructor
      · rintro ⟨⟨hf, hy⟩, hr, hn⟩
        exact ⟨⟨hy, hr⟩, hf, hn⟩
      · rintro ⟨⟨hy, hr⟩, hf, hn⟩
        exact ⟨⟨hf, hy⟩, hr, hn⟩

theorem registered?_eq_none {known : List Table} {name : String} :
    registered? known name = none ↔ name ∉ known.map Table.name := by
  unfold registered?
  simp [List.find?_eq_none]

theorem tableIssues_eq_nil (known : List Table) (t : Table) :
    tableIssues known t = [] ↔ t.WellFormed ∧ t.name ∉ known.map Table.name := by
  rw [← registered?_eq_none]
  unfold tableIssues
  cases hb : isBlank t.name with
  | true =>
    refine ⟨fun h => absurd h (List.cons_ne_nil _ _), fun ⟨w, _⟩ => ?_⟩
    rw [w.named] at hb
    cases hb
  | false =>
    have hd : (if (registered? known t.name).isSome then [Issue.duplicateTable t.name] else []) =
        [] ↔ registered? known t.name = none := by
      cases registered? known t.name <;> simp
    have hi : (if t.columns.isEmpty then [Issue.emptyTable t.name]
        else columnIssues t.name [] t.columns) = [] ↔ t.WellFormed := by
      by_cases hc : t.columns = []
      · rw [if_pos (List.isEmpty_iff.mpr hc)]
        exact ⟨fun h => absurd h (List.cons_ne_nil _ _), fun w => absurd hc w.inhabited⟩
      · rw [if_neg (mt List.isEmpty_iff.mp hc), columnIssues_eq_nil, new_of_nothing_seen]
        constructor
        · rintro ⟨h, hn⟩
          exact ⟨hb, hc, fun c hm => (h c hm).1, hn, fun c hm => (h c hm).2⟩
        · intro w
          exact ⟨fun c hm => ⟨w.columns_named c hm, w.columns_typed c hm⟩, w.columns_distinct⟩
    simp only [Bool.false_eq_true, if_false, List.append_eq_nil_iff, hd, hi]
    exact and_comm

theorem register_of_new {known : List Table} {t : Table} (named : isBlank t.name = false)
    (new : t.name ∉ known.map Table.name) : register known t = known ++ [t] := by
  unfold register
  rw [registered?_eq_none.mpr new, named]
  rfl

theorem scanTables_eq_nil (known ts : List Table) :
    (scanTables known ts).1 = [] ↔
      (∀ t ∈ ts, t.WellFormed) ∧ New (known.map Table.name) (ts.map Table.name) := by
  induction ts generalizing known with
  | nil => exact ⟨fun _ => ⟨fun t ht => absurd ht List.not_mem_nil, new_nil _⟩, fun _ => rfl⟩
  | cons t rest ih =>
    have hs : ∀ m, m ∈ (known ++ [t]).map Table.name ↔ m = t.name ∨ m ∈ known.map Table.name := by
      intro m
      rw [List.map_append, List.mem_append, or_comm, List.map_singleton, List.mem_singleton]
    change tableIssues known t ++ (scanTables (register known t) rest).1 = [] ↔ _
    rw [List.append_eq_nil_iff, tableIssues_eq_nil, List.forall_mem_cons, List.map_cons,
      new_cons hs]
    -- a table is registered only if it has a name that is new, which either side grants
    constructor
    · rintro ⟨⟨w, hn⟩, hr⟩
      rw [register_of_new w.named hn, ih] at hr
      exact ⟨⟨w, hr.1⟩, hn, hr.2⟩
    · rintro ⟨⟨w, hr⟩, hn, hd⟩
      rw [register_of_new w.named hn, ih]
      exact ⟨⟨w, hn⟩, hr, hd⟩

theorem registered_of_scanTables {known ts : List Table} (h : (scanTables known ts).1 = []) :
    (scanTables known ts).2 = known ++ ts := by
  induction ts generalizing known with
  | nil => exact (List.append_nil known).symm
  | cons t rest ih =>
    obtain ⟨ht, hr⟩ := List.append_eq_nil_iff.mp h
    obtain ⟨w, hn⟩ := (tableIssues_eq_nil known t).mp ht
    have hk := register_of_new w.named hn
    change (scanTables (register known t) rest).2 = _
    rw [ih hr, hk, List.append_assoc, List.singleton_append]

theorem registered?_eq_some {known : List Table} (distinct : (known.map Table.name).Nodup)
    {name : String} {t : Table} :
    registered? known name = some t ↔ t ∈ known ∧ t.name = name := by
  constructor
  · intro h
    exact ⟨List.mem_of_find?_eq_some h, by simpa using List.find?_some h⟩
  · rintro ⟨ht, rfl⟩
    cases hu : registered? known t.name with
    | none => exact absurd (List.mem_map_of_mem ht) (registered?_eq_none.mp hu)
    | some u =>
      have hm : u ∈ known := List.mem_of_find?_eq_some hu
      have hn : u.name = t.name := by simpa using List.find?_some hu
      rw [List.inj_on_of_nodup_map distinct hm ht hn]

theorem endIssues_eq_nil {known : List Table} (distinct : (known.map Table.name).Nodup)
    (table column : String) :
    missingTable known table = [] ∧ missingColumn known table column = [] ↔
      EndsAt known table column := by
  unfold missingTable missingColumn EndsAt
  cases hr : registered? known table with
  | none =>
    refine ⟨fun h => absurd h.1 (List.cons_ne_nil _ _), fun ⟨t, ht, hn, _⟩ => ?_⟩
    rw [(registered?_eq_some distinct).mpr ⟨ht, hn⟩] at hr
    cases hr
  | some t =>
    have hc : (if column ≠ "" ∧ ¬ t.columns.any (fun c => c.name = column) then
        [Issue.unknownColumn table column] else []) = [] ↔
        (column ≠ "" → ∃ c ∈ t.columns, c.name = column) := by
      simp
    rw [hc]
    constructor
    · rintro ⟨-, h⟩
      obtain ⟨ht, hn⟩ := (registered?_eq_some distinct).mp hr
      exact ⟨t, ht, hn, h⟩
    · rintro ⟨u, hu, hn, h⟩
      rw [(registered?_eq_some distinct).mpr ⟨hu, hn⟩] at hr
      cases hr
      exact ⟨rfl, h⟩

theorem relationshipIssues_eq_nil {known : List Table} (named : ∀ t ∈ known, t.WellFormed)
    (distinct : (known.map Table.name).Nodup) (r : Relationship) :
    relationshipIssues known r = [] ↔ r.WellFormed known := by
  have nonempty : ∀ {table column : String}, EndsAt known table column → table ≠ "" := by
    rintro table column ⟨t, ht, rfl, -⟩ he
    have hb := (named t ht).named
    rw [he] at hb
    cases hb
  unfold relationshipIssues
  by_cases he : r.fromTable = "" ∨ r.toTable = ""
  · rw [if_pos he]
    refine ⟨fun h => absurd h (List.cons_ne_nil _ _), fun w => ?_⟩
    rcases he with he | he
    · exact absurd he (nonempty w.source)
    · exact absurd he (nonempty w.target)
  · have hs : (if r.fromTable = r.toTable ∧ r.fromColumn = r.toColumn ∧ r.fromColumn ≠ "" then
        [Issue.selfReference r.fromTable r.fromColumn] else []) = [] ↔
        ¬ (r.fromTable = r.toTable ∧ r.fromColumn = r.toColumn ∧ r.fromColumn ≠ "") := by
      rw [ite_eq_right_iff]
      exact imp_congr_right fun _ => iff_false_intro (List.cons_ne_nil _ _)
    rw [if_neg he]
    simp only [List.append_eq_nil_iff]
    rw [hs]
    constructor
    · rintro ⟨⟨⟨⟨ha, hb⟩, hc⟩, hd⟩, hn⟩
      exact ⟨(endIssues_eq_nil distinct _ _).mp ⟨ha, hc⟩,
        (endIssues_eq_nil distinct _ _).mp ⟨hb, hd⟩, hn⟩
    · intro w
      obtain ⟨ha, hc⟩ := (endIssues_eq_nil distinct _ _).mpr w.source
      obtain ⟨hb, hd⟩ := (endIssues_eq_nil distinct _ _).mpr w.target
      exact ⟨⟨⟨⟨ha, hb⟩, hc⟩, hd⟩, w.apart⟩

theorem issues_eq_nil (s : Schema) : s.check.issues = [] ↔ s.WellFormed := by
  have hi : s.check.issues = (scanTables [] s.tables).1 ++
      s.relationships.flatMap (relationshipIssues (scanTables [] s.tables).2) := rfl
  have ht := scanTables_eq_nil [] s.tables
  rw [List.map_nil, new_of_nothing_seen] at ht
  rw [hi, List.append_eq_nil_iff, List.flatMap_eq_nil_iff]
  constructor
  · rintro ⟨h, hr⟩
    obtain ⟨tables, distinct⟩ := ht.mp h
    rw [registered_of_scanTables h] at hr
    exact ⟨tables, distinct, fun r hm =>
      (relationshipIssues_eq_nil tables distinct r).mp (hr r hm)⟩
  · intro w
    have h := ht.mpr ⟨w.tables, w.distinct⟩
    rw [registered_of_scanTables h]
    exact ⟨h, fun r hm => (relationshipIssues_eq_nil w.tables w.distinct r).mpr
      (w.relationships r hm)⟩

/-- The check accepts exactly the well-formed schemas. -/
theorem valid_iff_wellFormed (s : Schema) : s.check.valid = true ↔ s.WellFormed := by
  rw [← issues_eq_nil]
  exact List.isEmpty_iff

end Schema

end SchemaDiagram
