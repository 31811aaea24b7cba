import SchemaDiagram.Proofs.ColumnUpdates
import SchemaDiagram.Proofs.Loads
import SchemaDiagram.Proofs.Redrawing

/-!
Saving and loading. A load takes the text, the schema and the places of nodes from a record, and nothing
else: columns of nodes and edges are drawn anew from the schema. What was saved comes back all the same,
as long as the nodes of the payload can be read again.
-/

set_option autoImplicit false

namespace SchemaDiagram

open Record (decode toWire)

namespace Json

theorem ofText?_orElse (text : Option String) :
    (ofText? text).orElse (.str "") = .str (text.getD "") := by
  cases text with
  | none => rfl
  | some s =>
    unfold ofText? orElse truthy
    by_cases empty : s = "" <;> simp [empty]

end Json

/-- What a save sends of a session with a text, when nothing is overridden. -/
def Session.payload (s : Session) (text : String) : Sync.Payload where
  text := some text
  schema := s.document.schema
  nodes := some s.diagram.nodes
  edges := some s.diagram.edges
  errors := some s.document.errors

namespace Sync

namespace Payload

/-- A record from which the payload can be loaded under an id: it has its text, its schema and its nodes
    in wire form, and names no other id. -/
def StoredAs (p : Payload) (id record : Json) : Prop :=
  (record.get "_id" = .null ∨ record.get "_id" = id) ∧
    ∀ f ∈ [textField, schemaField, nodesField], record.get f.wire = (toWire p).get f.wire

instance (p : Payload) (id record : Json) : Decidable (p.StoredAs id record) :=
  inferInstanceAs (Decidable (_ ∧ _))

variable {p : Payload} {id record : Json}

theorem StoredAs.text (h : p.StoredAs id record) : record.get "dbmlText" = .ofText? p.text :=
  (h.2 textField (by simp)).trans (get_wireMembers apart (List.mem_of_getElem? (i := 0) rfl))

theorem StoredAs.schema (h : p.StoredAs id record) : record.get "ast" = .ofOption toWire p.schema :=
  (h.2 schemaField (by simp)).trans (get_wireMembers apart (List.mem_of_getElem? (i := 1) rfl))

theorem StoredAs.nodes (h : p.StoredAs id record) :
    record.get "nodes" = .ofOption (fun ns => .arr (ns.map toWire)) p.nodes :=
  (h.2 nodesField (by simp)).trans (get_wireMembers apart (List.mem_of_getElem? (i := 2) rfl))

end Payload

namespace Coordinator

theorem payloadOf_of_text {s : Session} {text : String} (given : s.document.text = .str text) :
    payloadOf {} s = .ok (s.payload text) := by
  rw [payloadOf_plain s rfl, given]
  rfl

theorem recordsOf_toWire {nodes : List Node} (legible : ∀ n ∈ nodes, n.data.label.legible = true) :
    recordsOf Node (.arr (nodes.map toWire)) = .ok (nodes.map Node.reread) := by
  have items : iterate (.arr (nodes.map toWire)) = .ok (nodes.map toWire) := by
    cases nodes <;> rfl
  have read : List.Forall₂ (fun m v => Record.validated .value v = .ok m) (nodes.map Node.reread)
      (nodes.map toWire) := by
    rw [List.forall₂_map_left_iff, List.forall₂_map_right_iff, List.forall₂_same]
    exact fun n hn => Record.validated_ok.mpr (Node.decode_toWire .value (legible n hn))
  unfold recordsOf
  rw [items]
  exact Result.mapM_ok.mpr read

section Filling

variable {p : Payload} {id : String} {record : Json} {s : Schema} {nodes : List Node} {n : Coordinator}

theorem drawnIn_stored {members : List (String × Json)} (stored : p.StoredAs (.str id) (.obj members))
    (schema : p.schema = some s) (sent : p.nodes = some nodes)
    (legible : ∀ n ∈ nodes, n.data.label.legible = true) (grid : Grid) :
    drawnIn grid members = (s.project grid (Places.ofNodes nodes)).map fun d => (s, d) := by
  have ast : member members "ast" = toWire s := by
    rw [show member members "ast" = _ from stored.schema, schema]
    rfl
  have given : member members "nodes" = .arr (nodes.map toWire) := by
    rw [show member members "nodes" = _ from stored.nodes, sent]
    rfl
  have places : Places.ofNodes (nodes.map Node.reread) = Places.ofNodes nodes := List.map_map
  unfold drawnIn
  rw [ast, given, Record.validated_ok.mpr (s.decode_toWire .value), recordsOf_toWire legible]
  change (do let d ← s.project grid (Places.ofNodes (nodes.map Node.reread)); return (s, d)) = _
  rw [places]
  cases s.project grid (Places.ofNodes nodes) <;> rfl

/-- A record that was stored for a payload fills the session with its text and its schema, and with a
    diagram that is drawn of the schema and the places of the nodes. -/
theorem fill_stored (named : id ≠ "") (stored : p.StoredAs (.str id) record)
    (schema : p.schema = some s) (sent : p.nodes = some nodes)
    (legible : ∀ n ∈ nodes, n.data.label.legible = true) {d : Diagram}
    (drawn : s.project n.world.settings.grid (Places.ofNodes nodes) = .ok d) :
    fill (.str id) record n =
      (mapSession n fun old => (((old.withText (.str (p.text.getD ""))).withDiagramId (.str id)).withSchema
        (some s)).withDiagram d, none) := by
  have ast := stored.schema
  rw [schema] at ast
  -- a record without members has no schema
  obtain ⟨members, rfl⟩ : ∃ members, record = .obj members := by
    cases record with
    | obj members => exact ⟨members, rfl⟩
    | null | bool _ | int _ | float _ | str _ | arr _ => cases ast
  have taken : membersIn (.obj members) = .ok members := by
    cases members <;> rfl
  have text : textIn members = .str (p.text.getD "") := by
    unfold textIn
    rw [show member members "dbmlText" = _ from stored.text, Json.ofText?_orElse]
  have own : (member members "_id").orElse (.str id) = .str id := by
    rcases stored.1 with none | same
    · rw [show member members "_id" = .null from none]
      rfl
    · rw [show member members "_id" = .str id from same]
      unfold Json.orElse
      split <;> rfl
  have truthy : (Json.str id).truthy = true := by simpa [Json.truthy] using named
  have full : (member members "ast").truthy = true := by
    rw [show member members "ast" = _ from ast]
    rfl
  unfold fill
  rw [taken]
  simp only
  unfold furnish entitled
  rw [if_pos full, if_pos truthy, text, own]
  -- setting the text and the id has left the grid as it was
  have found {k : Coordinator} (same : k.world.settings = n.world.settings) :
      drawnIn k.world.settings.grid members = .ok (s, d) := by
    rw [same, drawnIn_stored stored schema sent legible, drawn]
    rfl
  rw [found]
  · rfl
  · rfl

/-- A load returns true when its reply is a record that was stored for a payload. -/
theorem receiveLoad_stored {t : TaskId} {reply : Reply} (found : loaded (.str id) reply n = .ok record)
    (named : id ≠ "") (stored : p.StoredAs (.str id) record) (schema : p.schema = some s)
    (sent : p.nodes = some nodes) (legible : ∀ n ∈ nodes, n.data.label.legible = true) {d : Diagram}
    (drawn : s.project n.world.settings.grid (Places.ofNodes nodes) = .ok d) :
    let k := receiveLoad t (.str id) reply n
    k.loop = n.loop.finish t (.returned (.bool true)) ∧
      (session k).document.text = .str (p.text.getD "") ∧ (session k).canvas.diagramId = .str id ∧
      (session k).diagram = d := by
  intro k
  have filled : k = receiveLoad t (.str id) reply n := rfl
  unfold receiveLoad at filled
  rw [found] at filled
  simp only [fill_stored named stored schema sent legible drawn] at filled
  rw [filled]
  exact ⟨rfl, rfl, rfl, rfl⟩

end Filling

/-- An operation by which a load comes to its reply, which is a record: at its start, when the backend
    answers at once, or in a later turn of its task. -/
inductive Receives (n : Coordinator) (t : TaskId) (id record : Json) : Operation → Prop where
  | atOnce {o : Operation} (starts : Starts n o t id) (prompt : (loadReply n).delay = none)
      (found : loaded id (loadReply n) n = .ok record) : Receives n t id record o
  | late {reply : Reply} {signal : Signal} {rest : List Callback}
      (stands : n.loop.standing t = some (.own (.loading id reply)))
      (ready : n.loop.ready = .step t signal :: rest) (found : loaded id reply n = .ok record) :
      Receives n t id record .turn

theorem loaded_of_record {id : String} {reply : Reply} {n : Coordinator} {record : Json}
    (named : id ≠ "") (heard : Backend.failure? reply = none)
    (kept : n.world.backend.record? (.str id) = some record) :
    loaded (.str id) reply n = .ok record := by
  have truthy : (Json.str id).truthy = true := by simpa [Json.truthy] using named
  unfold loaded Backend.answerLoad
  rw [heard, if_pos truthy]
  simp only [kept]
  rfl

section Receives

variable {m n k : Coordinator} {t : TaskId} {id record : Json} {o : Operation}

theorem beginLoad_received (prompt : (loadReply n).delay = none)
    (found : loaded id (loadReply n) n = .ok record) {p : Debounce.Point Point Wait}
    (stands : n.loop.standing t = some p) :
    ∃ k reply, beginLoad t id n = receiveLoad t id reply k ∧ loaded id reply k = .ok record ∧
      ∃ p, k.loop.standing t = some p := by
  refine ⟨blanking id n, loadReply n, ?_, (loaded_blanking id _ n).trans found, p, ?_⟩
  · unfold beginLoad
    rw [prompt]
  · exact (standing_cancel n t).trans stands

theorem Receives.received (receives : Receives n t id record o) (sound : Sound .idle n) :
    ∃ k reply, perform n o = receiveLoad t id reply k ∧ loaded id reply k = .ok record ∧
      ∃ p, k.loop.standing t = some p := by
  cases receives with
  | atOnce starts prompt found =>
    rcases starts with ⟨rfl, rfl⟩ | ⟨rfl, stands, signal, rest, ready⟩
    · have entered := Loop.standing_enter n.loop (.own (.load id)) n.loop.fresh sound.orderly.new
      exact beginLoad_received (n := { n with loop := (n.loop.enter (.own (.load id))).1 }) prompt found
        (entered.trans (if_pos rfl))
    · rw [turn_of_ready ready, step_of_active sound.orderly ready stands rfl]
      exact beginLoad_received (n := takeUp rest n) prompt found stands
  | @late reply signal rest stands ready found =>
    rw [turn_of_ready ready, step_of_active sound.orderly ready stands rfl]
    exact ⟨takeUp rest n, reply, rfl, found, _, stands⟩

end Receives

/-- What was saved comes back. When the last change of the schema was an accepted answer or an edit that
    passed, nodes have ids of their own, and the labels of nodes that are no tables can be read again: a
    load that is answered with the record of the payload returns true, and then the session has the text
    that was saved and the id, and its diagram comes to the same schema, positions included. -/
theorem load_restores (settings : Settings) (delay : Float) (start : Session)
    (channel : Channel Inbound Unit) (notifier : Notifier Unit) (backend : Backend)
    (before : List Operation) (o : Operation) (t : TaskId) (id : String) (record : Json)
    (m : Coordinator) (payload : Payload) :
    let n := performAll before (fresh settings delay start channel notifier backend)
    let k := perform n o
    Drafted m → ((session m).diagram.nodes.map Node.id).Nodup →
    (∀ node ∈ (session m).diagram.nodes, node.id ≠ "") →
    (∀ node ∈ (session m).diagram.nodes, node.isTable = false → node.data.label.legible = true) →
    payloadOf {} (session m) = .ok payload → id ≠ "" → payload.StoredAs (.str id) record →
    Receives n t (.str id) record o →
    k.loop.outcome? t = some (.returned (.bool true)) ∧
      (session k).document.text = (session m).document.text.orElse (.str "") ∧
      (session k).canvas.diagramId = .str id ∧
      ∃ u, (session k).diagram.reduce = .ok u ∧ (session m).diagram.reduce = .ok u := by
  intro n k drafted distinct identified legible built named stored receives
  obtain ⟨s, own, renders⟩ := drafted.rendered
  obtain ⟨schema, nodes, -⟩ := payload_parts rfl built
  have text := text_of_built rfl built
  obtain ⟨n', reply, performed, found, p, stands⟩ := receives.received ((sound_fresh ..).performAll before)
  -- ids are apart, so that a node finds its own place among those that were saved
  have known : ∀ node ∈ (session m).diagram.nodes,
      (Places.ofNodes (session m).diagram.nodes).find? node.id = some node.position := by
    intro node hn
    rw [Diagram.find?_ofNodes, Diagram.endpoint?_of_mem distinct hn]
    rfl
  obtain ⟨d, u, drawn, reduced, saved⟩ := (renders.shows distinct identified).redrawn distinct identified
    renders.named n'.world.settings.grid known
  -- the label of a table is a text, or the diagram would not reduce
  have readable : ∀ node ∈ (session m).diagram.nodes, node.data.label.legible = true := by
    intro node hn
    cases table : node.isTable with
    | false => exact legible node hn table
    | true =>
      obtain ⟨name, label⟩ := Diagram.labelled_of_reduce saved hn table
      rw [label]
      rfl
  obtain ⟨loop, text', id', diagram⟩ :=
    receiveLoad_stored (t := t) found named stored (schema.trans own) nodes readable drawn
  rw [← performed] at loop text' id' diagram
  refine ⟨?_, ?_, id', u, ?_, saved⟩
  · rw [show k.loop = _ from loop]
    exact Loop.outcome?_finish stands _
  · rw [text', ← text, Json.ofText?_orElse]
  · rw [diagram]
    exact reduced

def drafting : List Operation :=
  [.start, .parse (.str "Table t"), .deliver sketched,
    .edit (.renameTable (.str "t") (.str "u")),
    .moveTable (.str "t") (.obj [("x", .int 7), ("y", .int 7)])]

theorem load_restores_draft :
    let m := performAll drafting (fresh {} 1.0 {} {} { capacity := 50 } {})
    let n := performAll (drafting ++ [.enter (.save [])]) (fresh {} 1.0 {} {} { capacity := 50 } {})
    let k := perform n (.enter (.load Backend.firstId))
    k.loop.outcome? n.loop.fresh = some (.returned (.bool true)) ∧
      (session k).document.text = .str "Table t" ∧ (session k).canvas.diagramId = Backend.firstId ∧
      ∃ u, (session k).diagram.reduce = .ok u ∧ (session m).diagram.reduce = .ok u := by
  intro m n k
  have edited : Drafted (performAll (drafting.take 4) (fresh {} 1.0 {} {} { capacity := 50 } {})) := by
    exact .edited (.renameTable (.str "t") (.str "u")) (by decide +kernel)
  have drafted : Drafted m := edited.moveTable _ _
  have text : (session m).document.text = .str "Table t" := by decide +kernel
  obtain ⟨record, kept, stored⟩ : ∃ record ∈ n.world.backend.record? Backend.firstId,
      ((session m).payload "Table t").StoredAs Backend.firstId record := by decide +kernel
  have heard : Backend.failure? (loadReply n) = none := by decide +kernel
  have receives : Receives n n.loop.fresh Backend.firstId record (.enter (.load Backend.firstId)) :=
    .atOnce (.inl ⟨rfl, rfl⟩) (by decide +kernel) (loaded_of_record (by decide) heard kept)
  have restores := load_restores {} 1.0 {} {} { capacity := 50 } {} (drafting ++ [.enter (.save [])])
    (.enter (.load Backend.firstId)) n.loop.fresh "diagram-1" record m
    ((session m).payload "Table t")
  extract_lets at restores
  have distinct : ((session m).diagram.nodes.map Node.id).Nodup := by decide +kernel
  have identified : ∀ node ∈ (session m).diagram.nodes, node.id ≠ "" := by decide +kernel
  have legible : ∀ node ∈ (session m).diagram.nodes, node.isTable = false →
      node.data.label.legible = true := by decide +kernel
  obtain ⟨returns, text', same, restored⟩ :=
    restores drafted distinct identified legible (payloadOf_of_text text) (by decide) stored receives
  rw [text] at text'
  exact ⟨returns, text', same, restored⟩

/-- A node that is no table gets a name that is no text. The edit passes, since reduction looks at tables
    only, and the payload is stored, but the node cannot be read again, and the load fails. -/
theorem illegible_note_unloaded :
    let start : Session := Session.withDiagram {} { nodes := [{ id := "n", type := "note" }] }
    let m := performAll [.edit (.renameTable (.str "n") (.int 5))]
      (fresh {} 1.0 start {} { capacity := 50 } {})
    let n := perform m (.enter (.save []))
    Drafted m ∧ (session m).diagram.nodes.map Node.id = ["n"] ∧
      payloadOf {} (session m) = .ok ((session m).payload "") ∧
      (∃ record, ((session m).payload "").StoredAs Backend.firstId record ∧
        Receives n n.loop.fresh Backend.firstId record (.enter (.load Backend.firstId))) ∧
      (perform n (.enter (.load Backend.firstId))).loop.outcome? n.loop.fresh ≠
        some (.returned (.bool true)) := by
  intro start m n
  have drafted : Drafted m :=
    .edited (.renameTable (.str "n") (.int 5)) (by decide +kernel)
  have text : (session m).document.text = .str "" := by decide +kernel
  obtain ⟨record, kept, stored⟩ : ∃ record ∈ n.world.backend.record? Backend.firstId,
      ((session m).payload "").StoredAs Backend.firstId record := by decide +kernel
  have heard : Backend.failure? (loadReply n) = none := by decide +kernel
  have receives : Receives n n.loop.fresh Backend.firstId record (.enter (.load Backend.firstId)) :=
    .atOnce (.inl ⟨rfl, rfl⟩) (by decide +kernel) (loaded_of_record (by decide) heard kept)
  exact ⟨drafted, by decide +kernel, payloadOf_of_text text, ⟨record, stored, receives⟩,
    by decide +kernel⟩

end Coordinator

end Sync

end SchemaDiagram
