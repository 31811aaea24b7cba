import SchemaDiagram.Proofs.EditCoherence
import SchemaDiagram.Proofs.EditRuns

/-!
When edits commit. On an accepted diagram an edit that has what it is about and whose arguments can
be read is carried out, and its outcome reduces; it is accepted just when what the edit puts in
place goes together with what was there, which is said for each edit without a schema.
-/

set_option autoImplicit false

namespace SchemaDiagram

open Text (isBlank)

namespace Edit

/-- The tables, columns and edges that the edit names are there, its arguments can be read, and an
    id and a place are to be had where it needs them. -/
def Admissible (grid : Grid) (d : Diagram) : Edit → Prop
  | addTable position =>
    (∃ id, Naming.nextTableId d.nodes = .ok id) ∧
      ∃ p, Diagram.tablePlace grid d.nodes.length position = .ok p
  | renameTable id name => (∃ n ∈ d.nodes, id = .str n.id) ∧ ∃ s, name = .str s
  | removeTable id => ∃ n ∈ d.nodes, id = .str n.id
  | addColumn id update =>
    ∃ n ∈ d.nodes, id = .str n.id ∧ ∃ c, Diagram.newColumn n.data.columns update = .ok c
  | removeColumn id title =>
    ∃ n ∈ d.nodes, id = .str n.id ∧ ∃ c ∈ n.data.columns, title = .str c.title
  | updateColumn id title update =>
    ∃ n ∈ d.nodes, id = .str n.id ∧ ∃ c ∈ n.data.columns, title = .str c.title ∧
      ∃ u, Diagram.mergeColumn (Diagram.membersOf (Record.write .full c)) update = .ok u
  | addRelationship fromId _ toId toColumn cardinality =>
    (∃ n ∈ d.nodes, fromId = .str n.id) ∧ (∃ n ∈ d.nodes, toId = .str n.id) ∧
      (∃ target, Diagram.targetHandle toColumn = .ok target) ∧
      (∃ c, Cardinality.ofJson cardinality = .ok c) ∧
      ∃ id, Naming.nextRelationshipId d.edges = .ok id
  | removeRelationship id => ∃ e ∈ d.edges, id = .str e.id
  | retypeRelationship id cardinality =>
    (∃ e ∈ d.edges, id = .str e.id) ∧ ∃ c, Cardinality.ofJson cardinality = .ok c

/-- What the edit puts in place goes together with the rest of the diagram. -/
def Suits (d : Diagram) : Edit → Prop
  | addTable _ | removeTable _ | removeRelationship _ | retypeRelationship _ _ => True
  | renameTable id name =>
    ∃ s, name = .str s ∧ isBlank s = false ∧
      ∀ n ∈ d.nodes, n.data.label = .text s → id = .str n.id
  | addColumn id update =>
    update = .null ∨
      ∃ n ∈ d.nodes, id = .str n.id ∧ ∃ c, Diagram.newColumn n.data.columns update = .ok c ∧
        isBlank c.title = false ∧ isBlank c.type = false ∧ ∀ b ∈ n.data.columns, b.title ≠ c.title
  | removeColumn id title =>
    ∃ n ∈ d.nodes, id = .str n.id ∧ ∃ c ∈ n.data.columns, title = .str c.title ∧
      ∃ b ∈ n.data.columns, b ≠ c
  | updateColumn id title update =>
    ∃ n ∈ d.nodes, id = .str n.id ∧ ∃ c ∈ n.data.columns, title = .str c.title ∧
      ∃ u, Diagram.mergeColumn (Diagram.membersOf (Record.write .full c)) update = .ok u ∧
        isBlank u.title = false ∧ isBlank u.type = false ∧
        ∀ b ∈ n.data.columns, b ≠ c → b.title ≠ u.title
  | addRelationship fromId fromColumn toId toColumn _ =>
    ∃ m ∈ d.nodes, fromId = .str m.id ∧ ∃ n ∈ d.nodes, toId = .str n.id ∧
      ∃ target, Diagram.targetHandle toColumn = .ok target ∧
        m.Offers fromColumn.display ∧ n.Offers (target.getD "") ∧
        ¬ (m = n ∧ fromColumn.display = target.getD "" ∧ fromColumn.display ≠ "")

end Edit

namespace Diagram

variable {d d' : Diagram}

theorem exists_find? {α : Type} (key : α → String) {as : List α} {a : α} (ha : a ∈ as) :
    ∃ b, as.find? (fun x => Json.str (key x) = .str (key a)) = some b := by
  cases hf : as.find? fun x => Json.str (key x) = .str (key a) with
  | some b => exact ⟨b, rfl⟩
  | none =>
    rw [List.find?_eq_none] at hf
    exact absurd (by simp) (hf a ha)

theorem find?_iff {α : Type} (key : α → String) {as : List α} (distinct : (as.map key).Nodup)
    {v : Json} {a : α} :
    as.find? (fun x => Json.str (key x) = v) = some a ↔ a ∈ as ∧ v = .str (key a) := by
  constructor
  · intro h
    exact ⟨List.mem_of_find?_eq_some h, by simpa [eq_comm] using List.find?_some h⟩
  · rintro ⟨ha, rfl⟩
    obtain ⟨b, hb⟩ := exists_find? key ha
    have same : key b = key a := by simpa using List.find?_some hb
    rw [hb, List.inj_on_of_nodup_map distinct (List.mem_of_find?_eq_some hb) ha same]

theorem exists_named_iff {α : Type} (key : α → String) {as : List α}
    (distinct : (as.map key).Nodup) {a : α} (ha : a ∈ as) {P : α → Prop} :
    (∃ b ∈ as, Json.str (key a) = .str (key b) ∧ P b) ↔ P a := by
  constructor
  · rintro ⟨b, hb, same, p⟩
    rwa [List.inj_on_of_nodup_map distinct ha hb (Json.str.inj same)]
  · exact fun p => ⟨a, ha, rfl, p⟩

theorem exists_read_iff {α : Type} {x : Result α} {a : α} (h : x = .ok a) {P : α → Prop} :
    (∃ b, x = .ok b ∧ P b) ↔ P a := by
  subst h
  simp

theorem Tabled.node?_iff (h : d.Tabled) {id : Json} {n : Node} :
    d.node? id = some n ↔ n ∈ d.nodes ∧ id = .str n.id :=
  find?_iff Node.id h.ids

theorem exists_edge? {id : Json} (h : ∃ e ∈ d.edges, id = .str e.id) :
    ∃ e, d.edge? id = some e := by
  obtain ⟨e, he, rfl⟩ := h
  exact exists_find? Edge.id he

theorem requireColumn_iff {n : Node} (distinct : (n.data.columns.map NodeColumn.title).Nodup)
    {title : Json} {c : NodeColumn} :
    requireColumn n title = .ok c ↔ c ∈ n.data.columns ∧ title = .str c.title := by
  rw [← find?_iff NodeColumn.title distinct]
  unfold requireColumn
  split
  · rename_i b hb
    rw [hb, Except.ok.injEq, Option.some.injEq]
  · rename_i hb
    simp [hb]

theorem newColumn_null (cs : List NodeColumn) :
    ∃ c, newColumn cs .null = .ok c ∧ c.title = Naming.nextColumnName cs ∧ c.type = "varchar" :=
  ⟨{ title := Naming.nextColumnName cs, type := "varchar", primaryKey := some false,
     nullable := some true, unique := some false }, rfl, rfl, rfl⟩

/-- An admissible edit is carried out, and its outcome is coherent just when the edit suits the
    diagram. -/
theorem outcome (tabled : d.Tabled) (identified : ∀ n ∈ d.nodes, n.id ≠ "") (h : d.Coherent)
    {grid : Grid} {e : Edit} (adm : e.Admissible grid d) :
    ∃ id d', (e.apply grid).run d = .ok id d' ∧ (d'.Coherent ↔ e.Suits d) := by
  cases e with
  | addTable position =>
    obtain ⟨⟨id, hid⟩, p, hp⟩ := adm
    obtain ⟨name, hname, named, fresh⟩ := Naming.nextTableName_ok h.labelled
    refine ⟨_, _, Change.map_ok.mpr ⟨id, addTable_ok.mpr ⟨hid, p, name, hp, hname, rfl⟩, rfl⟩, ?_⟩
    exact iff_of_true (coherent_newTable h id p named fresh) trivial
  | renameTable id name =>
    obtain ⟨⟨n, hn, rfl⟩, s, rfl⟩ := adm
    have found := tabled.node?_iff.mpr ⟨hn, rfl⟩
    refine ⟨_, _, Change.answer_ok.mpr ⟨⟨(), renameTable_ok.mpr ⟨n, found, rfl⟩⟩, rfl⟩, ?_⟩
    refine (coherent_renamed tabled h hn s).trans ?_
    constructor
    · rintro ⟨named, others⟩
      exact ⟨s, rfl, named, fun m hm same => by rw [others m hm same]⟩
    · rintro ⟨t, ht, named, others⟩
      cases ht
      exact ⟨named, fun m hm same =>
        tabled.eq_of_id hm hn (Json.str.inj (others m hm same)).symm⟩
  | removeTable id =>
    obtain ⟨n, hn, rfl⟩ := adm
    have found := tabled.node?_iff.mpr ⟨hn, rfl⟩
    refine ⟨_, _, Change.answer_ok.mpr ⟨⟨(), removeTable_ok.mpr ⟨n, found, rfl⟩⟩, rfl⟩, ?_⟩
    exact iff_of_true (coherent_detached h n.id) trivial
  | addColumn id update =>
    obtain ⟨n, hn, rfl, c, hc⟩ := adm
    have found := tabled.node?_iff.mpr ⟨hn, rfl⟩
    refine ⟨_, _, Change.answer_ok.mpr ⟨⟨_, addColumn_ok.mpr ⟨n, c, found, hc, rfl, rfl⟩⟩, rfl⟩, ?_⟩
    refine (coherent_added tabled h hn c).trans ?_
    rw [Edit.Suits, exists_named_iff Node.id tabled.ids hn, exists_read_iff hc]
    refine ⟨.inr, fun suits => suits.elim (fun plain => ?_) id⟩
    subst plain
    obtain ⟨b, hb, title, type⟩ := newColumn_null n.data.columns
    rw [hb] at hc
    cases hc
    rw [title, type]
    exact ⟨Naming.nextColumnName_not_blank _, by decide, fun x => Naming.nextColumnName_fresh⟩
  | removeColumn id title =>
    obtain ⟨n, hn, rfl, c, hc, rfl⟩ := adm
    have found := tabled.node?_iff.mpr ⟨hn, rfl⟩
    have distinct := (h.nodes n hn).distinct
    have column := (requireColumn_iff distinct).mpr ⟨hc, rfl⟩
    refine ⟨_, _, Change.answer_ok.mpr ⟨⟨(), removeColumn_ok.mpr ⟨n, c, found, column, rfl⟩⟩, rfl⟩,
      ?_⟩
    refine (coherent_removed tabled h hn hc).trans ?_
    rw [Edit.Suits, exists_named_iff Node.id tabled.ids hn, exists_named_iff NodeColumn.title distinct hc]
  | updateColumn id title update =>
    obtain ⟨n, hn, rfl, c, hc, rfl, u, hu⟩ := adm
    have found := tabled.node?_iff.mpr ⟨hn, rfl⟩
    have distinct := (h.nodes n hn).distinct
    have column := (requireColumn_iff distinct).mpr ⟨hc, rfl⟩
    refine ⟨_, _, Change.answer_ok.mpr
      ⟨⟨(), updateColumn_ok.mpr ⟨n, c, u, found, column, hu, rfl⟩⟩, rfl⟩, ?_⟩
    refine (coherent_updated tabled h hn hc u).trans ?_
    rw [Edit.Suits, exists_named_iff Node.id tabled.ids hn, exists_named_iff NodeColumn.title distinct hc,
      exists_read_iff hu]
  | addRelationship fromId fromColumn toId toColumn cardinality =>
    obtain ⟨⟨a, ha, rfl⟩, ⟨b, hb, rfl⟩, ⟨target, ht⟩, ⟨c, hc⟩, id, hid⟩ := adm
    have source := tabled.node?_iff.mpr ⟨ha, rfl⟩
    have goal := tabled.node?_iff.mpr ⟨hb, rfl⟩
    refine ⟨_, _, Change.map_ok.mpr ⟨id,
      addRelationship_ok.mpr ⟨hid, a, b, c, target, source, goal, hc, ht, rfl⟩, rfl⟩, ?_⟩
    refine (coherent_newEdge identified tabled h ha hb id _ target c).trans ?_
    rw [Edit.Suits, exists_named_iff Node.id tabled.ids ha, exists_named_iff Node.id tabled.ids hb,
      exists_read_iff ht]
  | removeRelationship id =>
    obtain ⟨e, he⟩ := exists_edge? adm
    refine ⟨_, _, Change.answer_ok.mpr ⟨⟨(), removeRelationship_ok.mpr ⟨e, he, rfl⟩⟩, rfl⟩, ?_⟩
    exact iff_of_true (coherent_fewer h _) trivial
  | retypeRelationship id cardinality =>
    obtain ⟨target, c, hc⟩ := adm
    obtain ⟨e, he⟩ := exists_edge? target
    refine ⟨_, _, Change.answer_ok.mpr ⟨⟨(), retypeRelationship_ok.mpr ⟨e, c, he, hc, rfl⟩⟩, rfl⟩, ?_⟩
    exact iff_of_true (coherent_relabelled h e.id c) trivial

theorem Coherent.attached (h : d.Coherent) (tabled : d.Tabled) : d.Attached where
  nodes := tabled.ids
  attached e he tight := by
    obtain ⟨legal, ⟨a, ha, ia, -⟩, ⟨b, hb, ib, -⟩, -⟩ := h.edges e he tight
    exact ⟨List.mem_map.mpr ⟨a, ha, ia⟩, List.mem_map.mpr ⟨b, hb, ib⟩, legal⟩

/-- What an admissible edit makes of a coherent diagram reduces, to a schema that passes the check
    just when the edit suits the diagram. -/
theorem outcome_reduces (tabled : d.Tabled) (identified : ∀ n ∈ d.nodes, n.id ≠ "")
    (h : d.Coherent) {grid : Grid} {e : Edit} (adm : e.Admissible grid d) :
    ∃ id d' schema, (e.apply grid).run d = .ok id d' ∧ d'.reduce = .ok schema ∧
      (schema.check.valid = true ↔ e.Suits d) := by
  obtain ⟨id, d', run, suits⟩ := outcome tabled identified h adm
  have texts : True → ∀ i v, e = .renameTable i v → ∃ name, v = .str name := by
    rintro - i v rfl
    exact adm.2
  have attached : d'.Attached :=
    apply_induction (fun _ _ m (h : Attached _) => h.modified m) texts run (h.attached tabled)
  have labelled : d'.Labelled :=
    apply_induction (fun _ _ m (h : Labelled _) => h.modified trivial m) texts run h.labelled
  have tabled' : d'.Tabled :=
    apply_induction (fun _ _ m (h : Tabled _) => h.modified m) texts run tabled
  obtain ⟨schema, reduced⟩ := attached.reduce_ok labelled
  refine ⟨id, d', schema, run, reduced, ?_⟩
  rw [← suits, ← wellFormed_of_reduce_iff tabled' reduced, ← Schema.issues_eq_nil]
  exact List.isEmpty_iff

end Diagram

/-- An admissible edit of an accepted diagram commits if it suits the diagram, and hands on the
    schema of the outcome; else it is rolled back, and the diagram is as before. -/
theorem EditHost.commits_iff_suits {S : Type} {h : EditHost S} (lawful : h.Lawful) (grid : Grid)
    (e : Edit) (s : S) (tabled : (h.session s).diagram.Tabled)
    (identified : ∀ n ∈ (h.session s).diagram.nodes, n.id ≠ "")
    (accepted : (h.session s).diagram.Accepted)
    (admissible : e.Admissible grid (h.session s).diagram) :
    (e.Suits (h.session s).diagram → ∃ d id schema,
      (e.apply grid).run (h.session s).diagram = .ok id d ∧ d.reduce = .ok schema ∧
        (h.session s).attempt grid e =
          ((h.session s).saved.withDiagram d, .passed schema id) ∧
        ∀ calls, h.recording.run grid e (s, calls) =
          (((h.run grid e s).1, calls ++ [schema]), (h.run grid e s).2)) ∧
      (¬ e.Suits (h.session s).diagram → ∃ v : Verdict, v.valid = false ∧
        (h.session s).attempt grid e = ((h.session s).saved, .rolledBack v) ∧
        h.session (h.run grid e s).1 = (h.session s).saved ∧
        ∀ calls, h.recording.run grid e (s, calls) =
          (((h.run grid e s).1, calls), (h.run grid e s).2)) := by
  have coherent := (Diagram.accepted_iff_coherent tabled).mp accepted
  obtain ⟨id, d, schema, run, reduced, valid⟩ :=
    Diagram.outcome_reduces tabled identified coherent admissible
  have attempt := Session.attempt_of_reduce run reduced
  constructor
  · intro suits
    rw [if_pos (valid.mpr suits)] at attempt
    refine ⟨d, id, schema, run, reduced, attempt, fun calls => ?_⟩
    rw [run_recording, attempt]
    rfl
  · intro unsuited
    have invalid : ¬ schema.check.valid = true := fun hv => unsuited (valid.mp hv)
    rw [if_neg invalid] at attempt
    refine ⟨schema.check, Bool.not_eq_true _ ▸ invalid, attempt,
      session_of_unpassed lawful (by rw [attempt]; rfl), fun calls => ?_⟩
    rw [run_recording, attempt]
    exact congrArg (fun c => (((h.run grid e s).1, c), (h.run grid e s).2)) (List.append_nil calls)

namespace Desk

theorem usersAndPosts_tabled : usersAndPosts.Tabled where
  tables := by decide
  ids := by decide

/-- A column to which an edge leads gets another title; a table cannot take the name of another. -/
theorem retitled_commits_namesake_rolls_back :
    let h := host fun _ => none
    let s : Desk := { session := Session.blank.withDiagram usersAndPosts }
    let retitled := Edit.updateColumn (.str "a") (.str "id") (.obj [("title", .str "key")])
    let namesake := Edit.renameTable (.str "a") (.str "posts")
    (∃ schema, (h.recording.run {} retitled (s, [])).1.2 = [schema]) ∧
      (h.recording.run {} namesake (s, [])).1.2 = [] ∧
      (h.session (h.run {} namesake s).1).diagram = usersAndPosts := by
  intro h s retitled namesake
  have lawful : h.Lawful := host_lawful _
  have first : usersAndPosts.nodes[0] ∈ usersAndPosts.nodes := List.getElem_mem _
  have second : usersAndPosts.nodes[1] ∈ usersAndPosts.nodes := List.getElem_mem _
  have column : usersAndPosts.nodes[0].data.columns[0] ∈ usersAndPosts.nodes[0].data.columns :=
    List.getElem_mem _
  obtain ⟨commits, -⟩ := EditHost.commits_iff_suits lawful {} retitled s usersAndPosts_tabled
    (by decide) usersAndPosts_accepted ⟨_, first, rfl, _, column, rfl, _, rfl⟩
  obtain ⟨-, rollsBack⟩ := EditHost.commits_iff_suits lawful {} namesake s usersAndPosts_tabled
    (by decide) usersAndPosts_accepted ⟨⟨_, first, rfl⟩, _, rfl⟩
  have suits : retitled.Suits usersAndPosts :=
    ⟨_, first, rfl, _, column, rfl, _, rfl, by decide +kernel, by decide +kernel, by decide +kernel⟩
  have unsuited : ¬ namesake.Suits usersAndPosts := by
    rintro ⟨name, same, -, others⟩
    cases same
    exact absurd (others _ second rfl) (by decide)
  obtain ⟨-, -, schema, -, -, -, handed⟩ := commits suits
  obtain ⟨-, -, -, restored, kept⟩ := rollsBack unsuited
  refine ⟨⟨schema, ?_⟩, ?_, ?_⟩
  · rw [handed]
    rfl
  · rw [kept]
  · rw [restored]
    rfl

end Desk

end SchemaDiagram
