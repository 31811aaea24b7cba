import SchemaDiagram.Proofs.RoundTrip
import SchemaDiagram.Proofs.WellFormed

/-!
Schemas that pass the check, on their way through a diagram. The check looks at names and at no id,
while an edge finds its tables by id. A relationship comes back as it was just when both of its
tables can be traced: a table has an id, and no later table has the same one.
-/

set_option autoImplicit false

namespace SchemaDiagram

namespace Schema

def holder? (tables : List Table) (id : String) : Option Table :=
  tables.reverse.find? fun t => t.id = id

def Traceable (s : Schema) (name : String) : Prop :=
  ∃ t ∈ s.tables, t.name = name ∧ t.id ≠ "" ∧ holder? s.tables t.id = some t

theorem holder?_cons (t : Table) (tables : List Table) (id : String) :
    holder? (t :: tables) id = (holder? tables id).or (if t.id = id then some t else none) := by
  unfold holder?
  rw [List.reverse_cons, List.find?_append]
  by_cases h : t.id = id <;> simp [h]

theorem holder?_of_mem {tables : List Table} {t : Table} (ht : t ∈ tables) :
    ∃ u, holder? tables t.id = some u ∧ u.id = t.id := by
  cases hu : holder? tables t.id with
  | none =>
    have := List.find?_eq_none.mp hu t (List.mem_reverse.mpr ht)
    simp at this
  | some u => exact ⟨u, rfl, by simpa using List.find?_some hu⟩

theorem mem_of_holder? {tables : List Table} {id : String} {t : Table}
    (h : holder? tables id = some t) : t ∈ tables :=
  List.mem_reverse.mp (List.mem_of_find?_eq_some h)

end Schema

open Schema (holder?)

theorem Depicts.endpoint?_unplaced {ts : List Table} {ns : List Node} (h : Depicts ts ns)
    (id : String) :
    (Diagram.endpoint? ns id).map Node.unplaced = (holder? ts id).map fun t => t.toNode {} := by
  induction h with
  | nil => rfl
  | @cons t n ts ns hn _ ih =>
    have hi : n.id = t.id := by
      rw [hn]
      rfl
    have hu : n.unplaced = t.toNode {} := by
      rw [hn]
      rfl
    rw [Diagram.endpoint?, Schema.holder?_cons, Option.map_or, Option.map_or, ih, hi]
    by_cases ht : t.id = id <;> simp [ht, hu]

namespace Schema

variable {s : Schema} {grid : Grid} {places : Places}

theorem end_of_relationship {ns : List Node} (shown : Depicts s.tables ns)
    (distinct : (s.tables.map Table.name).Nodup) {name : String}
    (named : ∃ t ∈ s.tables, t.name = name) :
    ∃ a n u, s.table? name = some a ∧ Diagram.endpoint? ns a.id = some n ∧
      n.data.label = .text u ∧ (a.id ≠ "" ∧ u = name ↔ s.Traceable name) := by
  obtain ⟨a, ha, hfa, hna⟩ := table?_of_named named
  obtain ⟨u, hu, hi⟩ := holder?_of_mem ha
  have hm := shown.endpoint?_unplaced a.id
  rw [hu] at hm
  obtain ⟨n, hn, hl⟩ := Option.map_eq_some_iff.mp hm
  have hlabel : n.data.label = .text u.name := congrArg (fun m => m.data.label) hl
  refine ⟨a, n, u.name, hfa, hn, hlabel, ?_, ?_⟩
  · rintro ⟨hne, hun⟩
    exact ⟨u, mem_of_holder? hu, hun, hi ▸ hne, hi ▸ hu⟩
  · rintro ⟨t, ht, htn, hne, hlast⟩
    -- names are distinct, so the traceable table is the first one of that name
    have hta : t = a := List.inj_on_of_nodup_map distinct ht ha (htn.trans hna.symm)
    subst hta
    rw [hu] at hlast
    cases hlast
    exact ⟨hne, htn⟩

/-- Both tables of a relationship can be traced. -/
def Returns (s : Schema) (r : Relationship) : Prop :=
  s.Traceable r.fromTable ∧ s.Traceable r.toTable

theorem relationshipOf_edgeOf_iff {ns : List Node} (shown : Depicts s.tables ns)
    (distinct : (s.tables.map Table.name).Nodup) {r : Relationship}
    (source : ∃ t ∈ s.tables, t.name = r.fromTable) (target : ∃ t ∈ s.tables, t.name = r.toTable) :
    ∃ e o, s.edgeOf r = .ok e ∧ Diagram.relationshipOf ns e = .ok o ∧
      (o = some r ↔ s.Returns r) := by
  obtain ⟨a, n, u, hfa, hn, hu, ha⟩ := end_of_relationship shown distinct source
  obtain ⟨b, m, v, hfb, hm, hv, hb⟩ := end_of_relationship shown distinct target
  have hc : Diagram.cardinality? (some r.cardinality.spelling) = some r.cardinality := by
    cases r.cardinality <;> rfl
  refine ⟨_, if a.id = "" ∨ b.id = "" then none else some { r with fromTable := u, toTable := v },
    by rw [edgeOf, hfa, hfb], ?_, ?_⟩
  · unfold Diagram.relationshipOf
    by_cases he : a.id = "" ∨ b.id = ""
    · simp only [if_pos he]
    · simp only [if_neg he, hn, hm, hc, hu, hv]
      change Except.ok (some (Relationship.mk r.id u (Handle.column (some _)) v _ _)) = _
      rw [Handle.column_ofColumn]
      rfl
  · unfold Returns
    rw [← ha, ← hb]
    by_cases he : a.id = "" ∨ b.id = ""
    · rw [if_pos he]
      exact ⟨fun h => (by cases h), fun h => absurd he (not_or.mpr ⟨h.1.1, h.2.1⟩)⟩
    · rw [if_neg he]
      obtain ⟨hne, hme⟩ := not_or.mp he
      constructor
      · intro h
        have same : { r with fromTable := u, toTable := v } = r := Option.some.inj h
        exact ⟨⟨hne, congrArg Relationship.fromTable same⟩, hme, congrArg Relationship.toTable same⟩
      · rintro ⟨⟨-, rfl⟩, -, rfl⟩
        rfl

theorem relationshipsOf_iff {ns : List Node} (shown : Depicts s.tables ns)
    (distinct : (s.tables.map Table.name).Nodup) {rs : List Relationship}
    (named : ∀ r ∈ rs,
      (∃ t ∈ s.tables, t.name = r.fromTable) ∧ ∃ t ∈ s.tables, t.name = r.toTable) :
    ∃ es qs, rs.mapM s.edgeOf = .ok es ∧ Diagram.relationshipsOf ns es = .ok qs ∧
      qs.length ≤ rs.length ∧ (qs = rs ↔ ∀ r ∈ rs, s.Returns r) := by
  induction rs with
  | nil => exact ⟨[], [], rfl, rfl, Nat.le_refl 0, by simp⟩
  | cons r rest ih =>
    obtain ⟨es, qs, hes, hqs, hl, hi⟩ := ih fun q hq => named q (List.mem_cons_of_mem r hq)
    obtain ⟨hs, ht⟩ := named r List.mem_cons_self
    obtain ⟨e, o, he, ho, hr⟩ := relationshipOf_edgeOf_iff shown distinct hs ht
    refine ⟨e :: es, o.toList ++ qs, ?_, ?_, ?_, ?_⟩
    · rw [List.mapM_cons, he, hes]
      rfl
    · rw [Diagram.relationshipsOf, ho, hqs]
      rfl
    · cases o with
      | none => exact Nat.le_succ_of_le hl
      | some q => exact Nat.succ_le_succ hl
    · rw [List.forall_mem_cons, ← hr, ← hi]
      cases o with
      | none =>
        -- one relationship is gone, and no other can take its place
        refine ⟨fun h => ?_, fun h => by cases h.1⟩
        have : qs.length = (r :: rest).length := congrArg List.length h
        exact absurd hl (by rw [this, List.length_cons]; exact Nat.not_succ_le_self _)
      | some q =>
        change q :: qs = r :: rest ↔ _
        rw [List.cons.injEq, Option.some.injEq]

/-- An accepted schema comes back from its diagram with its tables. Its relationships come back just
    when their tables can be traced. It is accepted again unless a relationship has come in that was
    not there. -/
theorem valid_through_diagram (valid : s.check.valid = true) (width : grid.columns ≠ 0)
    (reach : ∀ (i : Nat) t, s.tables[i]? = some t → places.find? t.id = none → t.position = none →
      grid.Reaches i) :
    ∃ d u, s.project grid places = .ok d ∧ d.reduce = .ok u ∧
      u.tables.map Table.unplaced = s.tables.map Table.unplaced ∧
      (u.relationships = s.relationships ↔ ∀ r ∈ s.relationships, s.Returns r) ∧
      (u.relationships ⊆ s.relationships → u.check.valid = true) := by
  have w : s.WellFormed := (valid_iff_wellFormed s).mp valid
  have named : ∀ r ∈ s.relationships,
      (∃ t ∈ s.tables, t.name = r.fromTable) ∧ ∃ t ∈ s.tables, t.name = r.toTable := by
    intro r hr
    obtain ⟨⟨a, ha, hna, -⟩, ⟨b, hb, hnb, -⟩, -⟩ := w.relationships r hr
    exact ⟨⟨a, ha, hna⟩, b, hb, hnb⟩
  obtain ⟨ns, hns, shown⟩ := nodesFrom_depicts 0 fun i t ht =>
    placeOf_ok width (by rw [Nat.zero_add]; exact reach i t ht)
  obtain ⟨es, qs, hes, hqs, -, hi⟩ := relationshipsOf_iff shown w.distinct named
  obtain ⟨us, hus, hu, -, -⟩ := shown.tablesOf
  refine ⟨⟨ns, es⟩, ⟨us, qs⟩, ?_, ?_, hu, hi, fun h => ?_⟩
  · unfold project toNodes toEdges
    rw [hns, hes]
    rfl
  · unfold Diagram.reduce
    rw [hus, hqs]
    rfl
  · have same : Schema.unplaced ⟨us, qs⟩ = Schema.unplaced ⟨s.tables, qs⟩ := by
      unfold unplaced
      rw [hu]
    rw [← check_unplaced, same, check_unplaced]
    exact (valid_iff_wellFormed _).mpr
      { w with relationships := fun r hr => w.relationships r (h hr) }

/-- One table has no id and two share theirs, which the check does not mind. -/
def nicknames : Schema where
  tables := [
    { id := "", name := "a", columns := [{ name := "id", type := "int" }] },
    { id := "t", name := "b", columns := [{ name := "x", type := "int" }] },
    { id := "t", name := "c", columns := [{ name := "y", type := "int" }] }]
  relationships := [
    { id := "r1", fromTable := "a", fromColumn := "id", toTable := "c", toColumn := "y" },
    { id := "r2", fromTable := "b", fromColumn := "x", toTable := "c", toColumn := "y" }]

/-- The schema that comes back: the first relationship is gone, and the second begins at another
    table, which has no such column. -/
def rewired (p : Position) : Schema where
  tables := nicknames.tables.map fun t => { t with position := some p }
  relationships := [
    { id := "r2", fromTable := "c", fromColumn := "x", toTable := "c", toColumn := "y" }]

/-- Besides, a grid can be too wide to the left for a second table. -/
theorem nicknames_rewired :
    let p : Position := {}
    let wide : Grid := { columns := -10 ^ 400, spacingX := 0.0, spacingY := 0.0 }
    nicknames.check.valid = true ∧
      (nicknames.project {} [("", p), ("t", p)] >>= Diagram.reduce) = .ok (rewired p) ∧
      (rewired p).relationships ≠ nicknames.relationships ∧
      (rewired p).check.valid = false ∧
      wide.columns ≠ 0 ∧ nicknames.project wide [] = .error .hugeIndex := by
  decide +kernel

def bystanders : Schema where
  tables := [
    { id := "t", name := "a", columns := [{ name := "id", type := "int" }] },
    { id := "u", name := "b", columns := [{ name := "id-source", type := "int" }],
      position := some ⟨1.5, -2.0⟩ },
    { id := "t", name := "c", columns := [{ name := "y", type := "int" }] },
    { id := "", name := "d", columns := [{ name := "z", type := "int" }] }]
  relationships := [
    { id := "r", fromTable := "b", fromColumn := "id-source", toTable := "c", toColumn := "y" }]

theorem bystanders_through_diagram :
    (∀ r ∈ bystanders.relationships, bystanders.Returns r) ∧
      ∃ d u, bystanders.project {} [] = .ok d ∧ d.reduce = .ok u ∧
        u.tables.map Table.unplaced = bystanders.tables.map Table.unplaced ∧
        u.relationships = bystanders.relationships ∧ u.check.valid = true := by
  have valid : bystanders.check.valid = true := by decide +kernel
  have width : ({} : Grid).columns ≠ 0 := by decide
  have reach : ∀ (i : Nat) t, bystanders.tables[i]? = some t → Places.find? [] t.id = none →
      t.position = none → Grid.Reaches {} i := by
    intro i t ht _ _
    have hi : i < 4 := (List.getElem?_eq_some_iff.mp ht).1
    exact Grid.reaches_of_pos (by decide) (Nat.lt_trans hi (by decide +kernel))
  have traced : ∀ r ∈ bystanders.relationships, bystanders.Returns r := by
    unfold Returns Traceable
    decide +kernel
  obtain ⟨d, u, hd, hu, ht, hr, hv⟩ := valid_through_diagram valid width reach
  have back : u.relationships = bystanders.relationships := hr.mpr traced
  exact ⟨traced, d, u, hd, hu, ht, back, hv (back ▸ List.Subset.refl _)⟩

end Schema

end SchemaDiagram
