import SchemaDiagram.Proofs.ParseAnswers
import SchemaDiagram.Proofs.Snapshots
import SchemaDiagram.Proofs.WireReturn

/-!
Answers to parse requests replace the diagram as a whole or not at all. An answer brings a schema when it
is current, lists no errors, and its schema can be read and drawn over the places of the nodes; then the
session has that schema and its diagram. Any other answer leaves both as they were, wherever the handler
stops. No table that was on the screen moves.
-/

set_option autoImplicit false

namespace SchemaDiagram

/-- Where a table comes to stand: at the last of the nodes with its id, else at its own position, else
    at its index in the grid. -/
inductive StandsAt (grid : Grid) (nodes : List Node) (index : Nat) (t : Table) : Position → Prop where
  | kept {front back : List Node} {n : Node} (shown : nodes = front ++ n :: back) (own : n.id = t.id)
      (last : ∀ m ∈ back, m.id ≠ t.id) : StandsAt grid nodes index t n.position
  | stored {p : Position} (new : ∀ n ∈ nodes, n.id ≠ t.id) (given : t.position = some p) :
      StandsAt grid nodes index t p
  | slot {p : Position} (new : ∀ n ∈ nodes, n.id ≠ t.id) (unplaced : t.position = none)
      (placed : grid.place index = .ok p) : StandsAt grid nodes index t p

/-- What a node shows of its table. -/
structure Portrays (t : Table) (n : Node) : Prop where
  id : n.id = t.id
  type : n.type = tableNodeType
  label : n.data.label = .text t.name
  comment : n.data.comment = t.comment
  titles : n.data.columns.map (·.title) = t.columns.map (·.name)
  columns : n.data.columns = t.columns.map Column.toNodeColumn

theorem Table.portrays_toNode (t : Table) (p : Position) : Portrays t (t.toNode p) :=
  ⟨rfl, rfl, rfl, rfl, by simp [Table.toNode, Column.toNodeColumn], rfl⟩

namespace Schema

variable {grid : Grid} {index : Nat}

theorem standsAt_of_placeOf {nodes : List Node} {t : Table} {p : Position}
    (h : placeOf grid (Places.ofNodes nodes) index t = .ok p) : StandsAt grid nodes index t p := by
  unfold placeOf at h
  rw [Diagram.find?_ofNodes] at h
  cases known : Diagram.endpoint? nodes t.id with
  | some n =>
    rw [known] at h
    cases h
    obtain ⟨front, back, shown, own, last⟩ := Diagram.endpoint?_eq_some known
    exact .kept shown own last
  | none =>
    rw [known] at h
    have new := Diagram.endpoint?_eq_none known
    cases given : t.position with
    | some q =>
      rw [given] at h
      cases h
      exact .stored new given
    | none =>
      rw [given] at h
      exact .slot new given h

theorem node_of_nodesFrom {places : Places} {ts : List Table} {ns : List Node}
    (h : nodesFrom grid places index ts = .ok ns) {i : Nat} {t : Table} (ht : ts[i]? = some t) :
    ∃ p, placeOf grid places (index + i) t = .ok p ∧ ns[i]? = some (t.toNode p) := by
  induction ts generalizing index ns i with
  | nil => cases ht
  | cons u rest ih =>
    obtain ⟨p, hp, h⟩ := Result.bind_ok h
    obtain ⟨ms, hms, h⟩ := Result.bind_ok h
    cases h
    cases i with
    | zero =>
      cases ht
      exact ⟨p, hp, rfl⟩
    | succ i =>
      obtain ⟨q, hq, hn⟩ := ih hms ht
      rw [Nat.add_right_comm] at hq
      exact ⟨q, hq, hn⟩

end Schema

def Session.picture (s : Session) : Option Schema × Diagram := (s.document.schema, s.diagram)

namespace Sync.Coordinator

/-- The number of the request that an answer belongs to. -/
def answerNumber (m : Coordinator) (payload : Json) : Int :=
  (sequence (payload.get "version") (m.world.parseReceived + 1)).1

/-- The answer is current and free of errors, and its schema can be read and drawn over the nodes. -/
structure Brings (m : Coordinator) (payload : Json) (schema : Schema) (d : Diagram) : Prop where
  current : (m.world.acceptFrom : Int) ≤ answerNumber m payload
  clean : (payload.get "errors").truthy = false
  read : Record.validated .value (payload.get "ast") = .ok schema
  drawn : schema.project m.world.settings.grid (Places.ofNodes (session m).diagram.nodes) = .ok d

/-- What an answer is dropped or refused for. -/
inductive Unfit (m : Coordinator) (payload : Json) : Prop where
  | stale (late : answerNumber m payload < m.world.acceptFrom)
  | flawed (errors : (payload.get "errors").truthy = true)
  | empty (absent : payload.get "ast" = .null)
  | malformed (illegible : ∀ schema : Schema, Record.validated .value (payload.get "ast") ≠ .ok schema)
  | dangling {schema : Schema} {r : Relationship}
      (read : Record.validated .value (payload.get "ast") = .ok schema)
      (mem : r ∈ schema.relationships)
      (missing : (∀ t ∈ schema.tables, t.name ≠ r.fromTable) ∨ ∀ t ∈ schema.tables, t.name ≠ r.toTable)

variable {m : Coordinator} {payload : Json} {schema : Schema} {d : Diagram}

theorem Unfit.not_brings (unfit : Unfit m payload) : ¬ Brings m payload schema d := by
  intro brings
  cases unfit with
  | stale late => exact absurd brings.current (Int.not_le.mpr late)
  | flawed errors =>
    rw [brings.clean] at errors
    cases errors
  | empty absent =>
    have read := brings.read
    rw [absent] at read
    cases read
  | malformed illegible => exact illegible schema brings.read
  | @dangling other r read mem missing =>
    obtain rfl := Except.ok.inj (read.symm.trans brings.read)
    obtain ⟨⟨a, ha, source⟩, b, hb, target⟩ :=
      Schema.named_of_edges (Schema.parts_of_project brings.drawn).2 r mem
    rcases missing with missing | missing
    · exact missing a ha source
    · exact missing b hb target

theorem recordsOf_eq_nil {α : Type} [Record α] {v : Json} :
    recordsOf α v = .ok [] ↔ v.truthy = false := by
  constructor
  · intro h
    obtain ⟨items, listed, read⟩ := Result.bind_ok h
    obtain rfl := List.forall₂_nil_left_iff.mp (Result.mapM_ok.mp read)
    by_contra given
    rw [Bool.not_eq_false] at given
    unfold iterate at listed
    rw [if_pos given] at listed
    cases v with
    | arr items =>
      cases listed
      cases given
    | str s =>
      have empty : s = "" := by simpa using listed
      rw [empty] at given
      cases given
    | obj members =>
      have empty : members = [] := by simpa using listed
      rw [empty] at given
      cases given
    | null | bool | int | float => cases listed
  · intro nothing
    unfold recordsOf iterate
    rw [nothing]
    rfl

theorem accept_passes_iff :
    (accept payload m).2 = .ok true ↔ (∃ members, payload = .obj members) ∧
      (m.world.acceptFrom : Int) ≤ answerNumber m payload := by
  cases payload with
  | obj members =>
    rw [accept_of_number rfl, Except.ok.injEq, decide_eq_true_eq]
    exact (and_iff_right ⟨members, rfl⟩).symm
  | null | bool | int | float | str | arr =>
    refine iff_of_false nofun fun ⟨⟨_, obj⟩, _⟩ => ?_
    cases obj

theorem obj_of_validated (read : Record.validated .value (payload.get "ast") = .ok schema) :
    ∃ members, payload = .obj members := by
  obtain ⟨parts, given, -⟩ := Record.decode_ok_inv (Record.validated_ok.mp read)
  cases payload with
  | obj members => exact ⟨members, rfl⟩
  | null | bool | int | float | str | arr => cases given

/-- An answer that brings a schema is taken over. -/
theorem Brings.adopted (brings : Brings m payload schema d) :
    (handleParsed payload m).2 = none ∧
      session (handleParsed payload m).1 = adopt (session m) schema d := by
  obtain ⟨current, clean, read, drawn⟩ := brings
  have passes := accept_passes_iff.mpr ⟨obj_of_validated read, current⟩
  obtain ⟨status, tested⟩ := accept_session payload m
  have settings := accept_settings payload m
  have listed := (recordsOf_eq_nil (α := TextError)).mpr clean
  have given : payload.get "ast" ≠ .null := by
    intro absent
    rw [absent] at read
    cases read
  unfold handleParsed
  generalize accept payload m = r at passes tested settings ⊢
  obtain ⟨k, p⟩ := r
  cases passes
  have drawn' : schema.project k.world.settings.grid (Places.ofNodes (session k).diagram.nodes) =
      .ok d := by
    rw [settings, tested]
    exact drawn
  simp only [listed, ne_eq, not_true_eq_false, false_or, if_neg given, read, drawn', true_and]
  change adopt (session k) schema d = _
  rw [tested]
  rfl

/-- Any other answer changes errors and status at most. -/
theorem session_of_not_brings (none : ¬ ∃ schema d, Brings m payload schema d) :
    ∃ errors status, session (handleParsed payload m).1 =
      ((session m).withErrors errors).withStatus status := by
  rcases session_of_parsed payload m with kept | ⟨schema, d, passes, clean, read, drawn, -⟩
  · exact kept
  · exact absurd ⟨schema, d, (accept_passes_iff.mp passes).2, recordsOf_eq_nil.mp clean, read, drawn⟩ none

/-- An answer that brings a schema is taken over as a whole: each table has its node at its index, which
    shows its id, name and columns, and no table that was on the screen moves. Any other answer leaves
    schema and diagram as they were, which is so whenever it is stale, lists errors, has no schema or one
    that cannot be read, or names a table that is not there. Text, id and selection stay in any case. -/
theorem handleParsed_replaces (payload : Json) (m : Coordinator) :
    (∀ schema d, Brings m payload schema d →
      (handleParsed payload m).2 = none ∧
      (session (handleParsed payload m).1).picture = (some schema, d) ∧
      d.nodes.length = schema.tables.length ∧
      ∀ i t, schema.tables[i]? = some t → ∃ n, d.nodes[i]? = some n ∧ n = t.toNode n.position ∧
        Portrays t n ∧ StandsAt m.world.settings.grid (session m).diagram.nodes i t n.position) ∧
    ((¬ ∃ schema d, Brings m payload schema d) →
      (session (handleParsed payload m).1).picture = (session m).picture) ∧
    (Unfit m payload → (session (handleParsed payload m).1).picture = (session m).picture) ∧
    (session (handleParsed payload m).1).document.text = (session m).document.text ∧
    (session (handleParsed payload m).1).canvas.diagramId = (session m).canvas.diagramId ∧
    (session (handleParsed payload m).1).selection = (session m).selection := by
  have kept (none : ¬ ∃ schema d, Brings m payload schema d) :
      (session (handleParsed payload m).1).picture = (session m).picture := by
    obtain ⟨errors, status, same⟩ := session_of_not_brings none
    rw [same]
    rfl
  refine ⟨fun schema d brings => ?_, kept, fun unfit => ?_, ?_⟩
  · obtain ⟨applied, adopted⟩ := brings.adopted
    have nodes := (Schema.parts_of_project brings.drawn).1
    refine ⟨applied, by rw [adopted]; rfl, (Schema.depicts_of_nodesFrom nodes).length_eq.symm, ?_⟩
    intro i t ht
    obtain ⟨p, placed, shown⟩ := Schema.node_of_nodesFrom nodes ht
    rw [Nat.zero_add] at placed
    exact ⟨t.toNode p, shown, rfl, t.portrays_toNode p, Schema.standsAt_of_placeOf placed⟩
  · exact kept fun ⟨_, _, brings⟩ => unfit.not_brings brings
  · by_cases brought : ∃ schema d, Brings m payload schema d
    · obtain ⟨schema, d, brings⟩ := brought
      rw [brings.adopted.2]
      exact ⟨rfl, rfl, rfl⟩
    · obtain ⟨errors, status, same⟩ := session_of_not_brings brought
      rw [same]
      exact ⟨rfl, rfl, rfl⟩

/-- One table that is on the screen, one with a position of its own, and one without. -/
def sheet : Schema where
  tables := [
    { id := "1", name := "users", position := some ⟨5.0, 5.0⟩ },
    { id := "2", name := "posts", position := some ⟨1.0, 2.0⟩ },
    { id := "3", name := "tags" }]
  relationships := [
    { id := "r", fromTable := "posts", fromColumn := "author", toTable := "users", toColumn := "id" }]

def drawnSheet : Diagram where
  nodes := [sheet.tables[0].toNode ⟨30.0, 40.0⟩, sheet.tables[1].toNode ⟨1.0, 2.0⟩,
    sheet.tables[2].toNode ⟨600.0, 0.0⟩]
  edges := [
    { id := "r", source := "2", target := "1", sourceHandle := some "author-source",
      targetHandle := some "id", label := some "ONE_TO_MANY" }]

def askedWithTwins : Coordinator :=
  mapSession (performAll askingTwice (fresh {} 1.0 {} {} { capacity := 50 } {})) (·.withDiagram
    { nodes := [{ id := "1", position := ⟨10.0, 20.0⟩ }, { id := "1", position := ⟨30.0, 40.0⟩ }] })

def answerWithSheet (version : Int) : Json :=
  .obj [("version", .int version), ("ast", Record.toWire sheet)]

/-- The answer to the second request is taken over, the one to the first is not. -/
theorem handleParsed_replaces_twins :
    (session (handleParsed (answerWithSheet 2) askedWithTwins).1).picture = (some sheet, drawnSheet) ∧
      (session (handleParsed (answerWithSheet 1) askedWithTwins).1).picture =
        (session askedWithTwins).picture := by
  have read : Record.validated .value ((answerWithSheet 2).get "ast") = .ok sheet :=
    Record.validated_ok.mpr (Schema.decode_toWire .value sheet)
  have brings : Brings askedWithTwins (answerWithSheet 2) sheet drawnSheet :=
    ⟨by decide +kernel, by decide +kernel, read, by decide +kernel⟩
  have stale : Unfit askedWithTwins (answerWithSheet 1) := .stale (by decide +kernel)
  obtain ⟨taken, -⟩ := handleParsed_replaces (answerWithSheet 2) askedWithTwins
  obtain ⟨-, -, kept, -⟩ := handleParsed_replaces (answerWithSheet 1) askedWithTwins
  exact ⟨(taken sheet drawnSheet brings).2.1, kept stale⟩

end Sync.Coordinator

end SchemaDiagram
