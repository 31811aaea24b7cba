import SchemaDiagram.Command
import SchemaDiagram.Proofs.PlainRecords
import SchemaDiagram.Proofs.WritablePaths

/-!
The two conversions of the command line. A conversion writes all of its result or leaves every file as it
was, and it says by its exit code which of the two it did. A schema that is laid out as a diagram is
recovered from the file of the diagram, with a place for each table.
-/

set_option autoImplicit false

namespace SchemaDiagram

open Files (Path Tree loadSchema loadDiagram saveSchema saveDiagram save)
open Json (Fits)
open Record (toWire)

namespace Command

theorem setup_default (t : Tree) : (Logging.setup {} {} {} t).2 = (t, none) := by
  have level : Logging.levelNamed (Json.orElse .null (.str "INFO")) = .ok 20 := by decide +kernel
  have format : Logging.formatOf .null = .ok Logging.defaultFormat := by decide +kernel
  unfold Logging.setup
  dsimp only
  rw [level, format]
  rfl

theorem run_default (c : Command) (t : Tree) :
    run {} c t = ((perform ({} : Settings).grid t c).1, (perform ({} : Settings).grid t c).2.plain) := by
  have ready := setup_default t
  unfold run
  generalize Logging.setup {} {} {} t = r at ready ⊢
  obtain ⟨l, k, failed⟩ := r
  cases ready
  rfl

end Command

inductive Conversion where
  | project
  | reduce

namespace Conversion

def command : Conversion → Path → Path → Command
  | project => .project
  | reduce => .reduce

def value (t : Tree) (p : Path) : Conversion → Result Json
  | project => do
    let s ← loadSchema t p
    let d ← s.project ({} : Settings).grid []
    return d.toJson
  | reduce => do
    let d ← loadDiagram t p
    let s ← d.reduce
    return toWire s

variable {k : Conversion} {t : Tree} {p out : Path} {v : Json} {f : Fault}

theorem value_project {s : Schema} {d : Diagram} (loaded : loadSchema t p = .ok s)
    (made : s.project ({} : Settings).grid [] = .ok d) : value t p .project = .ok d.toJson := by
  simp only [value, loaded, made, bind, Except.bind]
  rfl

theorem refused_ending (first : String) (f : Fault) : (Command.refused first f).ending ≠ .exit 0 := by
  unfold Command.refused
  split <;> simp

theorem perform_of_error (failed : k.value t p = .error f) (out : Path) :
    let r := Command.perform ({} : Settings).grid t (k.command p out)
    r.1 = t ∧ r.2.ending ≠ .exit 0 := by
  cases k with
  | project =>
    simp only [value, command, Command.perform] at failed ⊢
    cases loaded : loadSchema t p with
    | error f' => exact ⟨rfl, nofun⟩
    | ok s =>
      cases made : s.project ({} : Settings).grid [] with
      | error f' =>
        simp only [made, true_and]
        exact refused_ending _ f'
      | ok d =>
        rw [loaded] at failed
        simp only [bind, Except.bind, made] at failed
        cases failed
  | reduce =>
    simp only [value, command, Command.perform] at failed ⊢
    cases loaded : loadDiagram t p with
    | error f' => exact ⟨rfl, nofun⟩
    | ok d =>
      cases made : d.reduce with
      | error f' =>
        simp only [made, true_and]
        exact refused_ending _ f'
      | ok s =>
        rw [loaded] at failed
        simp only [bind, Except.bind, made] at failed
        cases failed

theorem saved_ending (what first : String) (r : Tree × Option Fault) :
    (Command.saved what out first r).1 = r.1 ∧ ((Command.saved what out first r).2.ending = .exit 0 ↔ r.2 = none) := by
  obtain ⟨t, failed⟩ := r
  cases failed with
  | some f => simp [Command.saved]
  | none => simp [Command.saved]

theorem perform_of_ok (made : k.value t p = .ok v) (out : Path) :
    let r := Command.perform ({} : Settings).grid t (k.command p out)
    r.1 = (save t out v).1 ∧ (r.2.ending = .exit 0 ↔ (save t out v).2 = none) := by
  cases k with
  | project =>
    obtain ⟨s, loaded, made⟩ := Result.bind_ok made
    obtain ⟨d, projected, made⟩ := Result.bind_ok made
    cases made
    simp only [command, Command.perform, loaded, projected]
    exact saved_ending "Graph" _ _
  | reduce =>
    obtain ⟨d, loaded, made⟩ := Result.bind_ok made
    obtain ⟨s, reduced, made⟩ := Result.bind_ok made
    cases made
    simp only [command, Command.perform, loaded, reduced]
    exact saved_ending "AST" _ _

theorem ends_well_iff (rooted : t.get? t.here = some .folder) :
    ((k.command p out).run {} t).2.ending = .exit 0 ↔ (∃ v, k.value t p = .ok v) ∧ t.Writable out := by
  rw [Command.run_default]
  change (Command.perform _ t (k.command p out)).2.ending = .exit 0 ↔ _
  cases made : k.value t p with
  | error f => simp [(perform_of_error made out).2]
  | ok v => simp [(perform_of_ok made out).2, Files.save_ok_iff rooted]

theorem entry_run (ended : ((k.command p out).run {} t).2.ending = .exit 0) :
    ∃ v, k.value t p = .ok v ∧ ((k.command p out).run {} t).1.entry out = .ok (.file (.text v.pretty)) := by
  rw [Command.run_default] at ended ⊢
  change (Command.perform _ t (k.command p out)).2.ending = .exit 0 at ended
  cases made : k.value t p with
  | error f => exact absurd ended (perform_of_error made out).2
  | ok v =>
    obtain ⟨tree, ends⟩ := perform_of_ok made out
    refine ⟨v, rfl, ?_⟩
    dsimp only
    rw [tree]
    exact Files.entry_save (ends.mp ended)

theorem kept_run (ended : ((k.command p out).run {} t).2.ending ≠ .exit 0) :
    Tree.Kept t ((k.command p out).run {} t).1 ∧
      ∀ c, ((k.command p out).run {} t).1.entry out = .ok (.file c) ↔ t.entry out = .ok (.file c) := by
  rw [Command.run_default] at ended ⊢
  change (Command.perform _ t (k.command p out)).2.ending ≠ .exit 0 at ended
  dsimp only
  cases made : k.value t p with
  | error f =>
    rw [(perform_of_error made out).1]
    exact ⟨.refl t, fun c => Iff.rfl⟩
  | ok v =>
    obtain ⟨tree, ends⟩ := perform_of_ok made out
    rw [tree]
    obtain ⟨f, failed⟩ := Option.ne_none_iff_exists'.mp (mt ends.mpr ended)
    obtain ⟨kept, none⟩ := Files.save_failed failed
    exact ⟨kept, fun c => ⟨fun found => absurd found (none c), fun found => absurd (kept.entry found) (none c)⟩⟩

theorem run_rooted (rooted : t.get? t.here = some .folder) :
    let r := (k.command p out).run {} t
    r.1.get? r.1.here = some .folder := by
  rw [Command.run_default]
  dsimp only
  cases made : k.value t p with
  | error f =>
    rw [(perform_of_error made out).1]
    exact rooted
  | ok v =>
    rw [(perform_of_ok made out).1, Files.save_here]
    exact Files.save_folder rooted

end Conversion

/-- A table as it comes back from its node: it has a place, its own if it had one. -/
def Table.Placed (t u : Table) : Prop :=
  ∃ p, u = { t with position := some p } ∧ ∀ own, t.position = some own → p = own

namespace Schema

variable {s : Schema} {d : Diagram} {grid : Grid}

theorem tablesOf_nodesFrom {index : Nat} {ts : List Table} {ns : List Node}
    (h : nodesFrom grid [] index ts = .ok ns) :
    ∃ us, Diagram.tablesOf ns = .ok us ∧ List.Forall₂ Table.Placed ts us := by
  induction ts generalizing index ns with
  | nil =>
    cases h
    exact ⟨[], rfl, .nil⟩
  | cons t rest ih =>
    obtain ⟨p, place, h⟩ := Result.bind_ok h
    obtain ⟨ms, later, h⟩ := Result.bind_ok h
    cases h
    obtain ⟨us, reduced, placed⟩ := ih later
    refine ⟨{ t with position := some p } :: us, ?_, .cons ⟨p, rfl, fun own given => ?_⟩ placed⟩
    · have shown : (t.toNode p).isTable = true := rfl
      rw [Diagram.tablesOf_cons, if_pos shown, t.toTable_toNode p, reduced]
      rfl
    · unfold placeOf at place
      rw [given] at place
      cases place
      rfl

/-- What a schema is laid out as comes back as the schema, with a place for each table. -/
theorem reduce_of_project (made : s.project grid [] = .ok d) (distinct : (s.tables.map Table.id).Nodup)
    (identified : ∀ table ∈ s.tables, table.id ≠ "") :
    ∃ u, d.reduce = .ok u ∧ u.unplaced = s.unplaced ∧ List.Forall₂ Table.Placed s.tables u.tables ∧
      u.relationships = s.relationships := by
  have shows : d.reduce.map Schema.unplaced = .ok s.unplaced := shows_of_project made distinct identified
  obtain ⟨us, tables, placed⟩ := tablesOf_nodesFrom (parts_of_project made).1
  cases reduced : d.reduce with
  | error f =>
    rw [reduced] at shows
    cases shows
  | ok u =>
    rw [reduced] at shows
    have same : u.unplaced = s.unplaced := Except.ok.inj shows
    obtain ⟨ws, own, rest⟩ := Result.bind_ok reduced
    obtain ⟨rs, -, rest⟩ := Result.bind_ok rest
    cases rest
    obtain rfl : us = ws := Except.ok.inj (tables.symm.trans own)
    have relationships : rs = s.relationships := congrArg (fun s => s.relationships) same
    exact ⟨_, rfl, same, placed, relationships⟩

theorem isPlain_of_load {t : Tree} {p : Path} (loaded : loadSchema t p = .ok s) : s.IsPlain := by
  obtain ⟨text, -, loaded⟩ := Result.bind_ok loaded
  unfold Files.schemaOfText at loaded
  cases read : Json.parse .strict text with
  | error f =>
    rw [read] at loaded
    cases loaded
  | ok v =>
    rw [read] at loaded
    dsimp only at loaded
    unfold Record.validate at loaded
    cases decoded : (Record.decode .text v : Decoded Schema) with
    | rejected ds =>
      rw [decoded] at loaded
      cases loaded
    | ok a =>
      rw [decoded] at loaded
      cases loaded
      exact Schema.isPlain_of_decode (Json.fits_of_parse read) decoded

end Schema

section Composition

variable {t : Tree} {p g out : Path} {s : Schema}

theorem loadDiagram_of_project (loaded : loadSchema t p = .ok s)
    (ended : ((Command.project p g).run {} t).2.ending = .exit 0) :
    ∃ d, s.project ({} : Settings).grid [] = .ok d ∧ loadDiagram ((Command.project p g).run {} t).1 g = .ok d := by
  obtain ⟨v, made, -⟩ := Conversion.entry_run (k := .project) ended
  obtain ⟨s', loaded', rest⟩ := Result.bind_ok made
  obtain rfl : s = s' := Except.ok.inj (loaded.symm.trans loaded')
  obtain ⟨d, projected, written⟩ := Result.bind_ok rest
  cases written
  rw [Command.run_default] at ended ⊢
  obtain ⟨tree, ends⟩ := Conversion.perform_of_ok made g
  have fits : Fits (981 + 7) d.toJson := (Schema.isPlain_of_load loaded).fits_project projected
  have headed : ∀ n ∈ d.nodes, n.data.label.IsText := by
    intro n hn
    have depicts := Schema.depicts_of_nodesFrom (Schema.parts_of_project projected).1
    obtain ⟨t, -, shown⟩ := exists_of_mem_right depicts hn
    rw [shown]
    exact ⟨t.name, rfl⟩
  refine ⟨d, projected, ?_⟩
  change loadDiagram (Command.perform _ t (.project p g)).1 g = _
  rw [show (Command.perform _ t (.project p g)).1 = _ from tree]
  exact Files.loadDiagram_saveDiagram (ends.mp ended) (Json.parse_pretty_of_fits fits) headed

theorem loadSchema_of_reduce {k : Tree} {d : Diagram} (plain : s.IsPlain)
    (projected : s.project ({} : Settings).grid [] = .ok d) (distinct : (s.tables.map Table.id).Nodup)
    (identified : ∀ table ∈ s.tables, table.id ≠ "") (loaded : loadDiagram k g = .ok d)
    (rooted : k.get? k.here = some .folder) (writable : k.Writable out) :
    ((Command.reduce g out).run {} k).2.ending = .exit 0 ∧
      ∃ u, loadSchema ((Command.reduce g out).run {} k).1 out = .ok u ∧
        List.Forall₂ Table.Placed s.tables u.tables ∧ u.relationships = s.relationships := by
  obtain ⟨u, reduced, same, tables, relationships⟩ := Schema.reduce_of_project projected distinct identified
  have made : Conversion.value k g .reduce = .ok (toWire u) := by
    unfold Conversion.value
    simp only [loaded, reduced, bind, Except.bind]
    rfl
  have ended := (Conversion.ends_well_iff (k := .reduce) rooted).mpr ⟨⟨_, made⟩, writable⟩
  refine ⟨ended, u, ?_, tables, relationships⟩
  have fits : Fits (194 + 6) (toWire u) := (plain.of_unplaced same).fits
  rw [Command.run_default] at ended ⊢
  obtain ⟨tree, ends⟩ := Conversion.perform_of_ok made out
  change loadSchema (Command.perform _ k (.reduce g out)).1 out = _
  rw [show (Command.perform _ k (.reduce g out)).1 = _ from tree]
  exact Files.loadSchema_saveSchema (ends.mp ended) (Json.parse_pretty_of_fits fits)

end Composition

/-- A conversion under default settings is complete or leaves every file alone. It ends well if and only if
    the input is loaded and converted and the output can be written; then the output is the wire form of the
    value, and otherwise no file has changed. A schema whose tables have distinct ids, none of them empty,
    comes back from the file of its diagram with the same tables, each with a place, and relationships. -/
theorem conversions_complete_or_leave (t : Tree) (rooted : t.get? t.here = some .folder) (p out : Path) :
    (∀ k : Conversion,
      let r := (k.command p out).run {} t
      (r.2.ending = .exit 0 ↔ (∃ v, k.value t p = .ok v) ∧ t.Writable out) ∧
      (r.2.ending = .exit 0 → ∃ v, k.value t p = .ok v ∧ r.1.entry out = .ok (.file (.text v.pretty))) ∧
      (r.2.ending ≠ .exit 0 →
        (∀ c, r.1.entry out = .ok (.file c) ↔ t.entry out = .ok (.file c)) ∧
        ∀ place c, r.1.get? place = some (.file c) ↔ t.get? place = some (.file c))) ∧
    ∀ s : Schema, loadSchema t p = .ok s → (s.tables.map Table.id).Nodup → (∀ table ∈ s.tables, table.id ≠ "") →
      let r := (Command.project p out).run {} t
      r.2.ending = .exit 0 →
      ∀ back : Path, r.1.Writable back →
        let q := (Command.reduce out back).run {} r.1
        q.2.ending = .exit 0 ∧ ∃ u, loadSchema q.1 back = .ok u ∧
          List.Forall₂ Table.Placed s.tables u.tables ∧ u.relationships = s.relationships := by
  refine ⟨fun k => ⟨Conversion.ends_well_iff rooted, Conversion.entry_run, fun ended => ?_⟩, ?_⟩
  · obtain ⟨kept, same⟩ := Conversion.kept_run ended
    exact ⟨same, fun place c => kept.file_iff place c⟩
  · intro s loaded distinct identified r ended back writable
    obtain ⟨d, projected, again⟩ := loadDiagram_of_project loaded ended
    have rooted : r.1.get? r.1.here = some .folder := Conversion.run_rooted (k := .project) rooted
    exact loadSchema_of_reduce (Schema.isPlain_of_load loaded) projected distinct identified again rooted writable

def orders : Schema where
  tables := [
    { id := "t1", name := "users", columns := [{ name := "id", type := "integer", primaryKey := true }],
      position := some ⟨1.5, -2.0⟩ },
    { id := "t2", name := "orders", columns := [{ name := "user", defaultValue := some (.int 0) }] }]
  relationships := [
    { id := "r1", fromTable := "orders", fromColumn := "user", toTable := "users", toColumn := "id" }]

/-- A schema is laid out as a diagram in a folder that is made for it, and is recovered over the file of the
    diagram. -/
theorem conversions_complete_or_leave_of_orders :
    let input : Path := ⟨1, ["orders.json"]⟩
    let graph : Path := ⟨1, ["out", "graph.json"]⟩
    let t := (saveSchema {} input orders).1
    let r := (Command.project input graph).run {} t
    let q := (Command.reduce graph graph).run {} r.1
    r.2.ending = .exit 0 ∧
      (∃ v, Conversion.project.value t input = .ok v ∧ r.1.entry graph = .ok (.file (.text v.pretty))) ∧
      q.2.ending = .exit 0 ∧ ∃ u, loadSchema q.1 graph = .ok u ∧
        List.Forall₂ Table.Placed orders.tables u.tables ∧ u.relationships = orders.relationships := by
  intro input graph t
  have rooted : t.get? t.here = some .folder := Files.save_folder rfl
  have loaded : loadSchema t input = .ok orders :=
    Files.loadSchema_saveSchema (by decide +kernel) (Json.parse_pretty (by decide +kernel))
  have placed : (orders.project ({} : Settings).grid []).isOk = true := by decide +kernel
  have writable : t.Writable graph := by
    have free : t.get? ["out"] = none ∧ t.get? ["out", "graph.json"] ≠ some .folder := by decide +kernel
    refine ⟨by decide +kernel, by decide, List.forall_mem_singleton.mpr fun c file => ?_, free.2, by decide⟩
    cases free.1.symm.trans file
  -- from here on only these facts about the tree are used, and its texts are not written out again
  clear_value t
  obtain ⟨runs, back⟩ := conversions_complete_or_leave t rooted input graph
  obtain ⟨ends, writes, -⟩ := runs .project
  have project : Conversion.project.command input graph = .project input graph := rfl
  rw [project] at ends writes
  obtain ⟨d, made⟩ := Result.exists_of_isOk placed
  have ended := ends.mpr ⟨⟨_, Conversion.value_project loaded made⟩, writable⟩
  obtain ⟨v, value, written⟩ := writes ended
  have folder := @Conversion.run_rooted .project t input graph rooted
  rw [project] at folder
  have again := Files.writable_of_file folder written
  exact ⟨ended, ⟨v, value, written⟩, back orders loaded (by decide) (by decide) ended graph again⟩

end SchemaDiagram
