import Mathlib.Data.Finset.Card
import Mathlib.Data.List.Infix
import SchemaDiagram.Proofs.WellFormed

/-!
What a verdict reports, and how often. The issues of the tables come first, each table's beside those
of the tables before it, and then those of the relationships, each on its own. A name that is there
more than once is reported for every occurrence but one, which is counted against the names seen so far.
-/

set_option autoImplicit false

namespace SchemaDiagram

open Text (isBlank)

def reported (code : String) (issues : List Issue) : Nat := (issues.map Issue.code).count code

theorem reported_nil (code : String) : reported code [] = 0 := rfl

theorem reported_cons (code : String) (i : Issue) (issues : List Issue) :
    reported code (i :: issues) = (if i.code = code then 1 else 0) + reported code issues := by
  simp only [reported, List.map_cons, List.count_cons, beq_iff_eq]
  exact Nat.add_comm _ _

theorem reported_append (code : String) (issues others : List Issue) :
    reported code (issues ++ others) = reported code issues + reported code others := by
  rw [reported, List.map_append, List.count_append, reported, reported]

theorem reported_of_ne {code : String} {issues : List Issue} (other : ∀ i ∈ issues, i.code ≠ code) :
    reported code issues = 0 := by
  refine List.count_eq_zero.mpr fun listed => ?_
  obtain ⟨i, hi, same⟩ := List.mem_map.mp listed
  exact other i hi same

theorem reported_ite (code : String) (i : Issue) (c : Prop) [Decidable c] :
    reported code (if c then [i] else []) = if c ∧ i.code = code then 1 else 0 := by
  by_cases hc : c <;> simp [hc, reported_cons, reported_nil]

def repeats (seen : Finset String) : List String → Nat
  | [] => 0
  | n :: rest => (if n ∈ seen then 1 else 0) + repeats (insert n seen) rest

theorem repeats_add_card (seen : Finset String) (names : List String) :
    repeats seen names + (names.toFinset \ seen).card = names.length := by
  induction names generalizing seen with
  | nil => simp [repeats]
  | cons n rest ih =>
    have later := ih (insert n seen)
    rw [repeats, List.toFinset_cons, List.length_cons]
    by_cases hn : n ∈ seen
    · rw [Finset.insert_eq_of_mem hn] at later
      rw [if_pos hn, Finset.insert_sdiff_of_mem _ hn, Finset.insert_eq_of_mem hn]
      omega
    · -- a name that is new stands for itself, wherever it comes again
      have split : insert n rest.toFinset \ seen = insert n (rest.toFinset \ insert n seen) := by
        ext m
        by_cases hm : m = n <;> simp [hm, hn]
      have new : n ∉ rest.toFinset \ insert n seen := by simp
      rw [if_neg hn, split, Finset.card_insert_of_notMem new]
      omega

theorem repeats_eq (names : List String) :
    repeats ∅ names = names.length - names.toFinset.card := by
  have h := repeats_add_card ∅ names
  rw [Finset.sdiff_empty] at h
  omega

def Table.columnNames (t : Table) : List String :=
  (t.columns.map Column.name).filter fun n => !isBlank n

namespace Schema

variable {table : String}

section Columns

variable (table) (seen : List String) (cs : List Column)

theorem columnIssues_cons (c : Column) :
    columnIssues table seen (c :: cs) =
      if isBlank c.name then .missingColumnName table :: columnIssues table seen cs
      else (if c.name ∈ seen then [Issue.duplicateColumn table c.name] else []) ++
        (if isBlank c.type then [Issue.missingColumnType table c.name] else []) ++
          columnIssues table (c.name :: seen) cs := rfl

theorem columnIssues_about : ∀ i ∈ columnIssues table seen cs,
    i.table? = some table ∧
      i.code ∈ ["MISSING_COLUMN_NAME", "DUPLICATE_COLUMN", "MISSING_COLUMN_TYPE"] := by
  induction cs generalizing seen with
  | nil => exact fun i hi => absurd hi List.not_mem_nil
  | cons c rest ih =>
    rw [columnIssues_cons]
    intro i hi
    split at hi
    · rcases List.mem_cons.mp hi with rfl | hi
      · exact ⟨rfl, by simp [Issue.code]⟩
      · exact ih seen i hi
    · rcases List.mem_append.mp hi with hi | hi
      · rcases List.mem_append.mp hi with hi | hi
        all_goals
          obtain ⟨-, rfl⟩ := List.mem_ite_nil_right.mp hi |>.imp_right List.mem_singleton.mp
          exact ⟨rfl, by simp [Issue.code]⟩
      · exact ih (c.name :: seen) i hi

theorem reported_missingColumnName :
    reported "MISSING_COLUMN_NAME" (columnIssues table seen cs) =
      cs.countP fun c => isBlank c.name := by
  induction cs generalizing seen with
  | nil => rfl
  | cons c rest ih =>
    rw [columnIssues_cons, List.countP_cons]
    cases hb : isBlank c.name <;>
      simp [reported_cons, reported_append, reported_ite, Issue.code, ih, Nat.add_comm]

theorem reported_missingColumnType :
    reported "MISSING_COLUMN_TYPE" (columnIssues table seen cs) =
      cs.countP fun c => !isBlank c.name && isBlank c.type := by
  induction cs generalizing seen with
  | nil => rfl
  | cons c rest ih =>
    rw [columnIssues_cons, List.countP_cons]
    cases hb : isBlank c.name <;>
      simp [reported_cons, reported_append, reported_ite, Issue.code, ih, Nat.add_comm]

theorem reported_duplicateColumn :
    reported "DUPLICATE_COLUMN" (columnIssues table seen cs) =
      repeats seen.toFinset ((cs.map Column.name).filter fun n => !isBlank n) := by
  induction cs generalizing seen with
  | nil => rfl
  | cons c rest ih =>
    rw [columnIssues_cons, List.map_cons, List.filter_cons]
    cases hb : isBlank c.name <;>
      simp [reported_cons, reported_append, reported_ite, Issue.code, ih, repeats]

end Columns

def tableNames (s : Schema) : List String := (s.tables.map Table.name).filter fun n => !isBlank n

def placed (s : Schema) : List (List Table × Table) := s.tables.inits.zip s.tables

def firstNamed? (tables : List Table) (name : String) : Option Table :=
  tables.find? fun t => !isBlank t.name && t.name = name

/-- What is reported of a table that stands behind others. -/
structure Reports (earlier : List Table) (t : Table) (issues : List Issue) : Prop where
  unnamed : isBlank t.name = true → issues = [.missingTableName t.id]
  about : isBlank t.name = false → ∀ i ∈ issues, i.table? = some t.name ∧
    i.code ∈ ["DUPLICATE_TABLE", "EMPTY_TABLE", "MISSING_COLUMN_NAME", "DUPLICATE_COLUMN",
      "MISSING_COLUMN_TYPE"]
  duplicate : isBlank t.name = false →
    reported "DUPLICATE_TABLE" issues = if t.name ∈ earlier.map Table.name then 1 else 0
  empty : isBlank t.name = false → reported "EMPTY_TABLE" issues = if t.columns = [] then 1 else 0
  unnamedColumns : isBlank t.name = false →
    reported "MISSING_COLUMN_NAME" issues = t.columns.countP fun c => isBlank c.name
  duplicateColumns : isBlank t.name = false →
    reported "DUPLICATE_COLUMN" issues = t.columnNames.length - t.columnNames.toFinset.card
  untypedColumns : isBlank t.name = false →
    reported "MISSING_COLUMN_TYPE" issues =
      t.columns.countP fun c => !isBlank c.name && isBlank c.type

section Tables

variable {known earlier : List Table} {t : Table}

theorem registered?_isSome {name : String} :
    (registered? known name).isSome = true ↔ name ∈ known.map Table.name := by
  rw [Option.isSome_iff_ne_none, Ne, registered?_eq_none, not_not]

theorem tableIssues_of_named (known : List Table) (named : isBlank t.name = false) :
    tableIssues known t =
      (if t.name ∈ known.map Table.name then [Issue.duplicateTable t.name] else []) ++
        if t.columns = [] then [Issue.emptyTable t.name] else columnIssues t.name [] t.columns := by
  simp only [tableIssues, named, Bool.false_eq_true, if_false, registered?_isSome,
    List.isEmpty_iff]

theorem reported_tableIssues (known : List Table) (named : isBlank t.name = false) (code : String) :
    reported code (tableIssues known t) =
      (if t.name ∈ known.map Table.name ∧ "DUPLICATE_TABLE" = code then 1 else 0) +
        if t.columns = [] then if "EMPTY_TABLE" = code then 1 else 0
        else reported code (columnIssues t.name [] t.columns) := by
  rw [tableIssues_of_named known named, reported_append, reported_ite]
  by_cases hc : t.columns = []
  · by_cases he : "EMPTY_TABLE" = code <;> simp [hc, he, reported_cons, reported_nil, Issue.code]
  · simp [hc, Issue.code]

theorem reported_inside {code : String} (known : List Table) (named : isBlank t.name = false)
    (table : "DUPLICATE_TABLE" ≠ code) (empty : "EMPTY_TABLE" ≠ code) :
    reported code (tableIssues known t) = reported code (columnIssues t.name [] t.columns) := by
  rw [reported_tableIssues known named]
  by_cases hc : t.columns = []
  · simp [hc, table, empty, columnIssues, reported_nil]
  · simp [hc, table]

theorem reported_outside {code : String} (table : String) (cs : List Column)
    (other : code ∉ ["MISSING_COLUMN_NAME", "DUPLICATE_COLUMN", "MISSING_COLUMN_TYPE"]) :
    reported code (columnIssues table [] cs) = 0 :=
  reported_of_ne fun i hi same => other (same ▸ (columnIssues_about table [] cs i hi).2)

theorem tableIssues_reports (earlier : List Table) (t : Table) :
    Reports earlier t (tableIssues earlier t) where
  unnamed blank := by simp [tableIssues, blank]
  about named := by
    rw [tableIssues_of_named earlier named]
    intro i hi
    rcases List.mem_append.mp hi with hi | hi
    · obtain ⟨-, hi⟩ := List.mem_ite_nil_right.mp hi
      obtain rfl := List.mem_singleton.mp hi
      exact ⟨rfl, by simp [Issue.code]⟩
    · split at hi
      · obtain rfl := List.mem_singleton.mp hi
        exact ⟨rfl, by simp [Issue.code]⟩
      · obtain ⟨about, code⟩ := columnIssues_about t.name [] t.columns i hi
        exact ⟨about, List.mem_cons_of_mem _ (List.mem_cons_of_mem _ code)⟩
  duplicate named := by
    rw [reported_tableIssues earlier named, reported_outside _ _ (by decide)]
    simp
  empty named := by
    rw [reported_tableIssues earlier named, reported_outside _ _ (by decide)]
    simp
  unnamedColumns named := by
    rw [reported_inside earlier named (by decide) (by decide), reported_missingColumnName]
  duplicateColumns named := by
    rw [reported_inside earlier named (by decide) (by decide), reported_duplicateColumn,
      List.toFinset_nil, repeats_eq, Table.columnNames]
  untypedColumns named := by
    rw [reported_inside earlier named (by decide) (by decide), reported_missingColumnType]

theorem firstNamed?_of_named {name : String} (tables : List Table) (named : isBlank name = false) :
    firstNamed? tables name = registered? tables name := by
  unfold firstNamed? registered?
  congr 1
  funext u
  by_cases same : u.name = name <;> simp [same, named]

theorem firstNamed?_of_blank {name : String} (tables : List Table) (blank : isBlank name = true) :
    firstNamed? tables name = none := by
  refine List.find?_eq_none.mpr fun u _ => ?_
  by_cases same : u.name = name <;> simp [same, blank]

/-- The tables that are registered are the first ones of their names. -/
def Registers (known earlier : List Table) : Prop :=
  ∀ name, registered? known name = firstNamed? earlier name

theorem Registers.register (h : Registers known earlier) (t : Table) :
    Registers (register known t) (earlier ++ [t]) := by
  intro name
  have last : firstNamed? (earlier ++ [t]) name =
      (registered? known name).or (firstNamed? [t] name) := by
    rw [h name, firstNamed?, List.find?_append]
    rfl
  rw [last]
  unfold Schema.register
  split
  · rename_i old
    by_cases same : t.name = name
    · subst same
      rcases old with blank | old
      · rw [firstNamed?_of_blank _ blank, Option.or_none]
      · rw [Option.or_of_isSome old]
    · simp [firstNamed?, same]
  · rename_i new
    obtain ⟨named, -⟩ := not_or.mp new
    rw [registered?, List.find?_append]
    congr 1
    by_cases same : t.name = name <;> simp [firstNamed?, same, named]
    subst same
    simpa using named

/-- What stands before a table counts as what is registered does. -/
theorem tableIssues_of_registers (h : Registers known earlier) (t : Table) :
    tableIssues known t = tableIssues earlier t := by
  cases blank : isBlank t.name with
  | true => simp [tableIssues, blank]
  | false =>
    have same : registered? known t.name = registered? earlier t.name := by
      rw [h t.name, firstNamed?_of_named earlier blank]
    simp [tableIssues, same]

theorem scanTables_issues (h : Registers known earlier) (ts : List Table) :
    (scanTables known ts).1 =
      ((ts.inits.map (earlier ++ ·)).zip ts).flatMap fun p => tableIssues p.1 p.2 := by
  induction ts generalizing known earlier with
  | nil => rfl
  | cons t rest ih =>
    have later := ih (h.register t)
    change tableIssues known t ++ (scanTables (Schema.register known t) rest).1 = _
    rw [later, tableIssues_of_registers h]
    simp [List.inits, Function.comp_def]

theorem scanTables_registers (h : Registers known earlier) (ts : List Table) :
    Registers (scanTables known ts).2 (earlier ++ ts) := by
  induction ts generalizing known earlier with
  | nil => rwa [List.append_nil]
  | cons t rest ih =>
    rw [List.append_cons]
    exact ih (h.register t)

theorem mem_names_register {name : String} (known : List Table) (named : isBlank t.name = false) :
    name ∈ (register known t).map Table.name ↔ name = t.name ∨ name ∈ known.map Table.name := by
  simp only [register, named, Bool.false_eq_true, false_or, registered?_isSome]
  split
  · rename_i old
    exact ⟨.inr, fun h => h.elim (fun same => same ▸ old) id⟩
  · rw [List.map_append, List.mem_append, or_comm, List.map_singleton, List.mem_singleton]

theorem reported_duplicateTable (known ts : List Table) :
    reported "DUPLICATE_TABLE" (scanTables known ts).1 =
      repeats (known.map Table.name).toFinset
        ((ts.map Table.name).filter fun n => !isBlank n) := by
  induction ts generalizing known with
  | nil => rfl
  | cons t rest ih =>
    change reported _ (tableIssues known t ++ (scanTables (register known t) rest).1) = _
    rw [reported_append, ih, List.map_cons, List.filter_cons]
    cases blank : isBlank t.name with
    | true => simp [tableIssues, register, blank, reported_cons, reported_nil, Issue.code]
    | false =>
      have names : ((register known t).map Table.name).toFinset =
          insert t.name (known.map Table.name).toFinset := by
        ext name
        rw [List.mem_toFinset, mem_names_register known blank, Finset.mem_insert, List.mem_toFinset]
      rw [names, reported_tableIssues known blank, reported_outside _ _ (by decide)]
      simp [repeats]

end Tables

/-- The issues of a relationship, for which only the first tables of the names at its ends count. -/
def endIssues (s : Schema) (r : Relationship) : List Issue :=
  relationshipIssues
    ((firstNamed? s.tables r.fromTable).toList ++ (firstNamed? s.tables r.toTable).toList) r

theorem name_of_firstNamed? {tables : List Table} {name : String} {t : Table}
    (h : firstNamed? tables name = some t) : t.name = name := by
  have first := List.find?_some h
  simp only [Bool.and_eq_true, decide_eq_true_eq] at first
  exact first.2

theorem registered?_ends {tables : List Table} {source target name : String}
    (either : name = source ∨ name = target) :
    registered? ((firstNamed? tables source).toList ++ (firstNamed? tables target).toList) name =
      firstNamed? tables name := by
  have own : ∀ n, registered? (firstNamed? tables n).toList name =
      if n = name then firstNamed? tables n else none := by
    intro n
    cases h : firstNamed? tables n with
    | none => simp [registered?]
    | some t =>
      have named := name_of_firstNamed? h
      by_cases same : n = name <;> simp [registered?, named, same]
  have both : registered? ((firstNamed? tables source).toList ++ (firstNamed? tables target).toList)
      name = (registered? (firstNamed? tables source).toList name).or
        (registered? (firstNamed? tables target).toList name) := List.find?_append
  rw [both, own, own]
  by_cases hs : source = name
  · by_cases ht : target = name <;> simp [hs, ht]
  · obtain rfl := either.resolve_left (Ne.symm hs)
    simp [hs]

theorem relationshipIssues_congr {known known' : List Table} {r : Relationship}
    (source : registered? known r.fromTable = registered? known' r.fromTable)
    (target : registered? known r.toTable = registered? known' r.toTable) :
    relationshipIssues known r = relationshipIssues known' r := by
  simp only [relationshipIssues, missingTable, missingColumn, source, target]

theorem relationshipIssues_of_registers {known : List Table} {s : Schema}
    (h : Registers known s.tables) (r : Relationship) :
    relationshipIssues known r = s.endIssues r := by
  apply relationshipIssues_congr
  · rw [h, registered?_ends (.inl rfl)]
  · rw [h, registered?_ends (.inr rfl)]

theorem relationshipIssues_about (known : List Table) (r : Relationship) :
    ∀ i ∈ relationshipIssues known r, i.code ∈ ["INVALID_RELATIONSHIP_ENDPOINTS",
      "INVALID_RELATIONSHIP_TABLE", "INVALID_RELATIONSHIP_COLUMN", "SELF_REFERENCING_COLUMN"] := by
  have table : ∀ n, ∀ i ∈ missingTable known n, i = .unknownTable n := fun n i hi =>
    List.mem_singleton.mp (List.mem_ite_nil_right.mp hi).2
  have column : ∀ n c, ∀ i ∈ missingColumn known n c, i = .unknownColumn n c := by
    intro n c i hi
    unfold missingColumn at hi
    split at hi
    · exact absurd hi List.not_mem_nil
    · exact List.mem_singleton.mp (List.mem_ite_nil_right.mp hi).2
  intro i hi
  unfold relationshipIssues at hi
  split at hi
  · obtain rfl := List.mem_singleton.mp hi
    simp [Issue.code]
  · simp only [List.mem_append, List.mem_ite_nil_right, List.mem_singleton] at hi
    rcases hi with (((hi | hi) | hi) | hi) | ⟨-, rfl⟩
    · simp [table _ i hi, Issue.code]
    · simp [table _ i hi, Issue.code]
    · simp [column _ _ i hi, Issue.code]
    · simp [column _ _ i hi, Issue.code]
    · simp [Issue.code]

theorem check_issues (s : Schema) :
    s.check.issues = s.placed.flatMap (fun p => tableIssues p.1 p.2) ++
      s.relationships.flatMap s.endIssues := by
  have start : Registers [] [] := fun _ => rfl
  have tables := scanTables_issues start s.tables
  have registers := scanTables_registers start s.tables
  rw [List.nil_append] at registers
  simp only [List.nil_append, List.map_id'] at tables
  have ends := funext (relationshipIssues_of_registers registers)
  change (scanTables [] s.tables).1 ++
    s.relationships.flatMap (relationshipIssues (scanTables [] s.tables).2) = _
  rw [tables, ends]
  rfl

theorem reported_check (s : Schema) :
    reported "DUPLICATE_TABLE" s.check.issues = s.tableNames.length - s.tableNames.toFinset.card := by
  have ends : reported "DUPLICATE_TABLE"
      (s.relationships.flatMap (relationshipIssues (scanTables [] s.tables).2)) = 0 := by
    refine reported_of_ne fun i hi same => ?_
    obtain ⟨r, -, hi⟩ := List.mem_flatMap.mp hi
    have code := relationshipIssues_about _ r i hi
    simp [same] at code
  change reported _ ((scanTables [] s.tables).1 ++
    s.relationships.flatMap (relationshipIssues (scanTables [] s.tables).2)) = _
  rw [reported_append, ends, reported_duplicateTable, Nat.add_zero]
  exact repeats_eq s.tableNames

/-- Every violation is reported once and in order: the tables' first, each table's beside those before
    it, then the relationships', for each of which only the first tables of its two names count. -/
theorem issues_in_order (s : Schema) :
    s.check.issues = s.placed.flatMap (fun p => tableIssues p.1 p.2) ++
        s.relationships.flatMap s.endIssues ∧
      s.placed.map Prod.snd = s.tables ∧
      (∀ p ∈ s.placed, Reports p.1 p.2 (tableIssues p.1 p.2)) ∧
      reported "DUPLICATE_TABLE" s.check.issues =
        s.tableNames.length - s.tableNames.toFinset.card ∧
      ∀ front back, ({ s with relationships := front ++ back } : Schema).check.issues =
        ({ s with relationships := [] } : Schema).check.issues ++
          front.flatMap s.endIssues ++ back.flatMap s.endIssues := by
  refine ⟨check_issues s, ?_, fun p _ => tableIssues_reports p.1 p.2, reported_check s,
    fun front back => ?_⟩
  · exact List.map_snd_zip (by simp)
  · rw [check_issues, check_issues, List.flatMap_append, List.flatMap_nil, List.append_nil,
      List.append_assoc]
    rfl

end Schema

end SchemaDiagram
