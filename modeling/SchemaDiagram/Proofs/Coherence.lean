import SchemaDiagram.Proofs.Integrity
import SchemaDiagram.Proofs.Normalisation

/-!
Acceptance, read off the diagram. A diagram of tables with ids of their own is accepted just when
its tables have names and columns as the check asks for them, and each edge with two ends relates
columns that are there. Nothing is said of schemas, so changes of a diagram can be followed.
-/

set_option autoImplicit false

namespace SchemaDiagram

open Text (isBlank)

/-- The name of a table is a text that is not blank, and there are columns, with titles of their own
    and types, none of them blank. -/
structure Node.Coherent (n : Node) : Prop where
  named : ∃ name, n.data.label = .text name ∧ isBlank name = false
  inhabited : n.data.columns ≠ []
  titled : ∀ c ∈ n.data.columns, isBlank c.title = false
  typed : ∀ c ∈ n.data.columns, isBlank c.type = false
  distinct : (n.data.columns.map NodeColumn.title).Nodup

def Node.Offers (n : Node) (column : String) : Prop :=
  column ≠ "" → ∃ c ∈ n.data.columns, c.title = column

namespace Edge

def sourceColumn (e : Edge) : String := Handle.column e.sourceHandle

def targetColumn (e : Edge) : String := e.targetHandle.getD ""

/-- The ends are tables with the columns that are named, and not one and the same column. -/
structure Coherent (nodes : List Node) (e : Edge) : Prop where
  legal : LegalLabel e.label
  source : ∃ n ∈ nodes, n.id = e.source ∧ n.Offers e.sourceColumn
  target : ∃ n ∈ nodes, n.id = e.target ∧ n.Offers e.targetColumn
  apart : ¬ (e.source = e.target ∧ e.sourceColumn = e.targetColumn ∧ e.sourceColumn ≠ "")

end Edge

namespace Diagram

/-- All nodes are tables, and have ids of their own. -/
structure Tabled (d : Diagram) : Prop where
  tables : ∀ n ∈ d.nodes, n.isTable = true
  ids : (d.nodes.map Node.id).Nodup

structure Coherent (d : Diagram) : Prop where
  nodes : ∀ n ∈ d.nodes, n.Coherent
  names : ∀ a ∈ d.nodes, ∀ b ∈ d.nodes, a.data.label = b.data.label → a = b
  edges : ∀ e ∈ d.edges, ¬ e.Loose → e.Coherent d.nodes

theorem Tabled.eq_of_id {d : Diagram} (h : d.Tabled) {a b : Node} (ha : a ∈ d.nodes)
    (hb : b ∈ d.nodes) (same : a.id = b.id) : a = b :=
  List.inj_on_of_nodup_map h.ids ha hb same

theorem columns_of_toTable {n : Node} {t : Table} (h : n.toTable = .ok t) :
    t.columns = n.data.columns.map NodeColumn.toColumn := by
  unfold Node.toTable at h
  split at h
  · cases h
    rfl
  · cases h

theorem wellFormed_iff_coherent {n : Node} {t : Table} (h : n.toTable = .ok t) :
    t.WellFormed ↔ n.Coherent := by
  have columns := columns_of_toTable h
  have name := (of_toTable h).2.1
  have titles : t.columns.map Column.name = n.data.columns.map NodeColumn.title := by
    rw [columns, List.map_map]
    rfl
  constructor
  · rintro ⟨named, inhabited, titled, distinct, typed⟩
    rw [columns] at inhabited titled typed
    rw [titles] at distinct
    exact ⟨⟨t.name, name.symm, named⟩, fun he => inhabited (by rw [he]; rfl),
      fun c hc => titled _ (List.mem_map_of_mem hc), fun c hc => typed _ (List.mem_map_of_mem hc),
      distinct⟩
  · rintro ⟨⟨s, hs, named⟩, inhabited, titled, typed, distinct⟩
    rw [← name, Label.text.injEq] at hs
    refine ⟨hs ▸ named, ?_, ?_, titles ▸ distinct, ?_⟩
    · rw [columns]
      exact fun he => inhabited (List.map_eq_nil_iff.mp he)
    · rw [columns]
      exact List.forall_mem_map.mpr titled
    · rw [columns]
      exact List.forall_mem_map.mpr typed

theorem offers_iff {n : Node} {t : Table} (h : n.toTable = .ok t) (column : String) :
    (column ≠ "" → ∃ c ∈ t.columns, c.name = column) ↔ n.Offers column := by
  rw [columns_of_toTable h]
  refine imp_congr_right fun _ => ?_
  simp only [List.mem_map, exists_exists_and_eq_and]
  rfl

theorem legal_of_cardinality? {label : Option String} {c : Cardinality}
    (h : cardinality? label = some c) : LegalLabel label := by
  cases label with
  | none => exact .inl rfl
  | some s =>
    by_cases empty : s = ""
    · exact .inr (.inl (congrArg some empty))
    · unfold cardinality? at h
      simp only [if_neg empty] at h
      exact .inr (.inr ⟨c, congrArg some (Cardinality.eq_spelling_of_ofText? h)⟩)

theorem relationshipOf_some {nodes : List Node} {e : Edge} {r : Relationship} :
    relationshipOf nodes e = .ok (some r) ↔
      ¬ e.Loose ∧ ∃ a b c x y, endpoint? nodes e.source = some a ∧
        endpoint? nodes e.target = some b ∧ cardinality? e.label = some c ∧
        a.data.label = .text x ∧ b.data.label = .text y ∧
        r = ⟨e.id, x, e.sourceColumn, y, e.targetColumn, c⟩ := by
  unfold relationshipOf Edge.Loose
  by_cases loose : e.source = "" ∨ e.target = ""
  · simp [loose]
  · rw [if_neg loose]
    constructor
    · intro h
      refine ⟨loose, ?_⟩
      split at h
      · rename_i a b ha hb
        split at h
        · rename_i c hc
          cases hx : a.data.label with
          | malformed v =>
            rw [hx] at h
            cases h
          | text x =>
            cases hy : b.data.label with
            | malformed v =>
              rw [hx, hy] at h
              cases h
            | text y =>
              rw [hx, hy] at h
              cases h
              exact ⟨a, b, c, x, y, ha, hb, hc, hx, hy, rfl⟩
        · cases h
      · cases h
    · rintro ⟨-, a, b, c, x, y, ha, hb, hc, hx, hy, rfl⟩
      simp only [ha, hb, hc, hx, hy]
      rfl

theorem loose_of_relationshipOf {nodes : List Node} {e : Edge}
    (h : relationshipOf nodes e = .ok none) : e.Loose := by
  by_contra tight
  unfold Edge.Loose at tight
  unfold relationshipOf at h
  rw [if_neg tight] at h
  split at h
  · rename_i a b _ _
    split at h
    · rename_i c _
      cases hr : relate e a.data.label b.data.label c with
      | ok r =>
        rw [hr] at h
        cases h
      | error f =>
        rw [hr] at h
        cases h
    · cases h
  · cases h

theorem relationshipOf_loose {nodes : List Node} {e : Edge} (h : e.Loose) :
    relationshipOf nodes e = .ok none :=
  if_pos h

theorem mem_relationshipsOf {nodes : List Node} {es : List Edge} {rs : List Relationship}
    (h : relationshipsOf nodes es = .ok rs) :
    (∀ e ∈ es, ∃ o, relationshipOf nodes e = .ok o) ∧
      ∀ r, r ∈ rs ↔ ∃ e ∈ es, relationshipOf nodes e = .ok (some r) := by
  induction es generalizing rs with
  | nil =>
    cases h
    simp
  | cons e rest ih =>
    obtain ⟨o, ho, h⟩ := Result.bind_ok h
    obtain ⟨qs, hqs, h⟩ := Result.bind_ok h
    cases h
    obtain ⟨total, mem⟩ := ih hqs
    refine ⟨List.forall_mem_cons.mpr ⟨⟨o, ho⟩, total⟩, fun r => ?_⟩
    rw [List.mem_append, mem, List.exists_mem_cons_iff, ho, Option.mem_toList, Except.ok.injEq]

theorem relationshipsOf_ok {nodes : List Node} {es : List Edge}
    (h : ∀ e ∈ es, ∃ o, relationshipOf nodes e = .ok o) :
    ∃ rs, relationshipsOf nodes es = .ok rs := by
  cases hr : relationshipsOf nodes es with
  | ok rs => exact ⟨rs, rfl⟩
  | error f =>
    obtain ⟨e, he, hf⟩ := relationshipsOf_error hr
    obtain ⟨o, ho⟩ := h e he
    rw [ho] at hf
    cases hf

section Shown

variable {d : Diagram} {us : List Table}

theorem distinct_iff_names (h : d.Tabled)
    (shown : List.Forall₂ (fun t n => n.toTable = .ok t) us d.nodes) :
    (us.map Table.name).Nodup ↔
      ∀ a ∈ d.nodes, ∀ b ∈ d.nodes, a.data.label = b.data.label → a = b := by
  rw [names_nodup_iff shown]
  exact List.nodup_map_iff_inj_on (List.Nodup.of_map _ h.ids)

theorem endsAt_iff (shown : List.Forall₂ (fun t n => n.toTable = .ok t) us d.nodes)
    (distinct : (us.map Table.name).Nodup) {n : Node} (hn : n ∈ d.nodes) {name : String}
    (label : n.data.label = .text name) (column : String) :
    EndsAt us name column ↔ n.Offers column := by
  obtain ⟨t, ht, hnt⟩ := exists_of_mem_right shown hn
  have hname : t.name = name := by
    have := (of_toTable hnt).2.1
    rwa [label, Label.text.injEq] at this
  rw [← offers_iff hnt]
  constructor
  · rintro ⟨u, hu, same, column⟩
    rw [List.inj_on_of_nodup_map distinct ht hu (hname.trans same.symm)]
    exact column
  · exact fun column => ⟨t, ht, hname, column⟩

/-- A relationship is well formed just when its edge is coherent. -/
theorem relationship_wellFormed_iff (h : d.Tabled)
    (shown : List.Forall₂ (fun t n => n.toTable = .ok t) us d.nodes)
    (distinct : (us.map Table.name).Nodup) {e : Edge} {r : Relationship}
    (hr : relationshipOf d.nodes e = .ok (some r)) :
    r.WellFormed us ↔ e.Coherent d.nodes := by
  obtain ⟨tight, a, b, c, x, y, ha, hb, hc, hx, hy, rfl⟩ := relationshipOf_some.mp hr
  obtain ⟨ma, ia⟩ := mem_of_endpoint? ha
  obtain ⟨mb, ib⟩ := mem_of_endpoint? hb
  have sameNode : x = y ↔ e.source = e.target := by
    constructor
    · rintro rfl
      rw [← ia, ← ib, (distinct_iff_names h shown).mp distinct a ma b mb (hx.trans hy.symm)]
    · intro same
      rw [same, hb, Option.some.injEq] at ha
      rw [← ha, hy, Label.text.injEq] at hx
      exact hx.symm
  constructor
  · rintro ⟨source, target, apart⟩
    refine ⟨legal_of_cardinality? hc, ?_, ?_, ?_⟩
    · exact ⟨a, ma, ia, (endsAt_iff shown distinct ma hx _).mp source⟩
    · exact ⟨b, mb, ib, (endsAt_iff shown distinct mb hy _).mp target⟩
    · exact fun ⟨same, columns⟩ => apart ⟨sameNode.mpr same, columns⟩
  · rintro ⟨-, ⟨m, hm, im, source⟩, ⟨n, hn, hi, target⟩, apart⟩
    rw [h.eq_of_id hm ma (im.trans ia.symm)] at source
    rw [h.eq_of_id hn mb (hi.trans ib.symm)] at target
    exact ⟨(endsAt_iff shown distinct ma hx _).mpr source,
      (endsAt_iff shown distinct mb hy _).mpr target,
      fun ⟨same, columns⟩ => apart ⟨sameNode.mp same, columns⟩⟩

end Shown

theorem Coherent.labelled {d : Diagram} (h : d.Coherent) : d.Labelled := by
  intro n hn
  obtain ⟨name, text, -⟩ := (h.nodes n hn).named
  exact ⟨name, text⟩

theorem Coherent.relationshipOf_ok {d : Diagram} (tabled : d.Tabled) (h : d.Coherent) {e : Edge}
    (he : e ∈ d.edges) : ∃ o, relationshipOf d.nodes e = .ok o := by
  by_cases loose : e.Loose
  · exact ⟨none, relationshipOf_loose loose⟩
  · obtain ⟨legal, ⟨a, ha, ia, -⟩, ⟨b, hb, ib, -⟩, -⟩ := h.edges e he loose
    obtain ⟨c, hc⟩ := cardinality?_of_legal legal
    obtain ⟨x, hx⟩ := h.labelled a ha
    obtain ⟨y, hy⟩ := h.labelled b hb
    refine ⟨_, relationshipOf_some.mpr ⟨loose, a, b, c, x, y, ?_, ?_, hc, hx, hy, rfl⟩⟩
    · rw [← ia]
      exact endpoint?_of_mem tabled.ids ha
    · rw [← ib]
      exact endpoint?_of_mem tabled.ids hb

theorem Coherent.reduce_ok {d : Diagram} (tabled : d.Tabled) (h : d.Coherent) :
    ∃ schema, d.reduce = .ok schema := by
  obtain ⟨us, hus, -⟩ := tablesOf_labelled tabled.tables h.labelled
  obtain ⟨rs, hrs⟩ := relationshipsOf_ok fun e he => h.relationshipOf_ok tabled he
  refine ⟨⟨us, rs⟩, ?_⟩
  unfold reduce
  rw [hus, hrs]
  rfl

/-- A schema that a diagram reduces to is well formed just when the diagram is coherent. -/
theorem wellFormed_of_reduce_iff {d : Diagram} (tabled : d.Tabled) {s : Schema}
    (h : d.reduce = .ok s) : s.WellFormed ↔ d.Coherent := by
  obtain ⟨us, hus, h⟩ := Result.bind_ok h
  obtain ⟨rs, hrs, h⟩ := Result.bind_ok h
  cases h
  have shown := tablesOf_ok_iff.mp hus
  rw [List.filter_eq_self.mpr tabled.tables] at shown
  obtain ⟨total, mem⟩ := mem_relationshipsOf hrs
  constructor
  · rintro ⟨tables, distinct, relationships⟩
    refine ⟨fun n hn => ?_, (distinct_iff_names tabled shown).mp distinct, fun e he tight => ?_⟩
    · obtain ⟨t, ht, hnt⟩ := exists_of_mem_right shown hn
      exact (wellFormed_iff_coherent hnt).mp (tables t ht)
    · obtain ⟨o, ho⟩ := total e he
      cases o with
      | none => exact absurd (loose_of_relationshipOf ho) tight
      | some r =>
        exact (relationship_wellFormed_iff tabled shown distinct ho).mp
          (relationships r ((mem r).mpr ⟨e, he, ho⟩))
  · rintro ⟨nodes, names, edges⟩
    have distinct := (distinct_iff_names tabled shown).mpr names
    refine ⟨fun t ht => ?_, distinct, fun r hr => ?_⟩
    · obtain ⟨n, hn, hnt⟩ := exists_of_mem_left shown ht
      exact (wellFormed_iff_coherent hnt).mpr (nodes n hn)
    · obtain ⟨e, he, ho⟩ := (mem r).mp hr
      exact (relationship_wellFormed_iff tabled shown distinct ho).mpr
        (edges e he (relationshipOf_some.mp ho).1)

theorem accepted_iff_coherent {d : Diagram} (tabled : d.Tabled) : d.Accepted ↔ d.Coherent := by
  constructor
  · rintro ⟨s, hs, valid⟩
    refine (wellFormed_of_reduce_iff tabled hs).mp ((Schema.issues_eq_nil s).mp ?_)
    exact List.isEmpty_iff.mp valid
  · intro h
    obtain ⟨s, hs⟩ := h.reduce_ok tabled
    refine ⟨s, hs, List.isEmpty_iff.mpr ?_⟩
    exact (Schema.issues_eq_nil s).mpr ((wellFormed_of_reduce_iff tabled hs).mpr h)

end Diagram

end SchemaDiagram
