import SchemaDiagram.Proofs.EditRuns
import SchemaDiagram.Proofs.Places

/-!
The drawing of a session, its schema and its diagram, and what changes it. An answer to a parse
request, an edit that passes and a table that is moved change it, and each of them asks for a save.
All other talk and the work of tasks leave it alone, as long as no load is among it.
-/

set_option autoImplicit false

namespace SchemaDiagram.Sync.Coordinator

/-- A change by which the session comes to have a schema and a diagram. -/
structure Draws (schema : Option Schema) (d : Diagram) (m k : Coordinator) : Prop
    extends Told m k where
  schema : (session k).document.schema = schema
  diagram : (session k).diagram = d
  peer : k.world.channel.peer = m.world.channel.peer
  settings : k.world.settings = m.world.settings

abbrev Aside (m k : Coordinator) : Prop :=
  Draws (session m).document.schema (session m).diagram m k

/-- What messages come to, of which some have been heard: a schema that one of them brings is
    adopted, and a save is asked for. -/
inductive Speech (heard : Json → Prop) : Coordinator → Coordinator → Prop where
  | aside {m k : Coordinator} (h : Aside m k) : Speech heard m k
  | adopt {m k : Coordinator} {payload : Json} {schema : Schema} {d : Diagram}
      (hears : heard payload) (read : Record.validated .value (payload.get "ast") = .ok schema)
      (projected : schema.project m.world.settings.grid
        (Places.ofNodes (session m).diagram.nodes) = .ok d)
      (h : Draws (some schema) d m k) : Speech heard m (k.schedule {})
  | trans {m k n : Coordinator} (h : Speech heard m k) (h' : Speech heard k n) : Speech heard m n

/-- A save of the session as it will be waits out a window that was begun meanwhile. -/
structure Postponed (m k : Coordinator) : Prop where
  pending : k.debouncer.pending = some {}
  window : ∃ w, k.debouncer.window = some w ∧ m.loop.fresh ≤ w

section Draws

variable {heard : Json → Prop} {schema : Option Schema} {d : Diagram} {m k n : Coordinator}

namespace Draws

theorem refl (m : Coordinator) : Aside m m := ⟨⟨rfl, rfl, .refl _⟩, rfl, rfl, rfl, rfl⟩

theorem aside (h : Draws schema d m k) (h' : Aside k n) : Draws schema d m n :=
  ⟨h.toTold.trans h'.toTold, h'.schema.trans h.schema, h'.diagram.trans h.diagram,
    h'.peer.trans h.peer, h'.settings.trans h.settings⟩

theorem draw {schema' : Option Schema} {d' : Diagram} (h : Draws schema d m k)
    (h' : Draws schema' d' k n) : Draws schema' d' m n :=
  ⟨h.toTold.trans h'.toTold, h'.schema, h'.diagram, h'.peer.trans h.peer,
    h'.settings.trans h.settings⟩

theorem session (h : Draws schema d m k) {f : Session → Session}
    (same : (f k.session).document.schema = k.session.document.schema ∧
      (f k.session).canvas = k.session.canvas) :
    Draws schema d m (mapSession k f) := by
  have keeps : k.world.Keeps (mapSession k f).world := .silent rfl rfl rfl rfl (congrArg (·.diagramId) same.2) rfl
  exact h.aside ⟨⟨rfl, rfl, keeps⟩, same.1, congrArg (·.diagram) same.2, rfl, rfl⟩

theorem note (h : Draws schema d m k) {l : LogLine} : Draws schema d m (k.note l) :=
  h.aside ⟨⟨rfl, rfl, .refl _⟩, rfl, rfl, rfl, rfl⟩

theorem update (h : Draws schema d m k) {w : World} (keeps : k.world.Keeps w)
    (session : w.session = k.world.session)
    (same : w.channel.peer = k.world.channel.peer ∧ w.settings = k.world.settings) :
    Draws schema d m (k.withWorld w) :=
  h.aside ⟨⟨rfl, rfl, keeps⟩, congrArg (·.document.schema) session,
    congrArg (·.canvas.diagram) session, same.1, same.2⟩

theorem witness (h : Draws schema d m k) {e : Event} (notice : e.isNotice = true) :
    Draws schema d m (witness k e) :=
  h.update ⟨rfl, rfl, rfl, rfl, rfl, [e], rfl, fun _ he => List.mem_singleton.mp he ▸ notice⟩ rfl
    ⟨rfl, rfl⟩

theorem channel (h : Draws schema d m k) {c : Channel Inbound Unit}
    (peer : c.peer = k.world.channel.peer) :
    Draws schema d m (channelHost.putChannel c k) :=
  h.update (.silent rfl rfl rfl rfl rfl rfl) rfl ⟨peer, rfl⟩

end Draws

theorem Speech.talk (h : Speech heard m k) : Talk (· = {}) m k := by
  induction h with
  | aside h => exact h.toTold.talk
  | adopt _ _ _ h => exact h.toTold.talk.trans (.schedule _ rfl)
  | trans _ _ ih ih' => exact ih.trans ih'

theorem fresh_cancel (m : Coordinator) : m.cancel.loop.fresh = m.loop.fresh := by
  unfold Debounce.Machine.cancel
  cases m.debouncer.window with
  | none => rfl
  | some w => exact Loop.fresh_cancel m.loop w

theorem postponed_schedule (m : Coordinator) : Postponed m (m.schedule {}) :=
  ⟨rfl, m.cancel.loop.fresh, rfl, Nat.le_of_eq (fresh_cancel m).symm⟩

theorem Postponed.aside (h : Postponed m k) (h' : Aside k n) : Postponed m n :=
  ⟨h'.debouncer ▸ h.pending, h'.debouncer ▸ h.window⟩

theorem Postponed.since (h : Postponed k n) (later : m.loop.fresh ≤ k.loop.fresh) :
    Postponed m n := by
  obtain ⟨w, window, new⟩ := h.window
  exact ⟨h.pending, w, window, Nat.le_trans later new⟩

theorem Speech.fresh_le (h : Speech heard m k) : m.loop.fresh ≤ k.loop.fresh := by
  induction h with
  | aside h => exact Nat.le_of_eq (h.loop ▸ rfl)
  | @adopt m k _ _ _ _ _ _ h =>
    have more : (k.schedule {}).loop.fresh = k.cancel.loop.fresh + 1 := rfl
    have same := fresh_cancel k
    rw [h.loop] at same
    omega
  | trans _ _ ih ih' => exact Nat.le_trans ih ih'

theorem Speech.adopted (h : Speech heard m k) : Aside m k ∨ Postponed m k := by
  induction h with
  | aside h => exact .inl h
  | @adopt m k _ _ _ _ _ _ h =>
    exact .inr ((postponed_schedule k).since (Nat.le_of_eq (h.loop ▸ rfl)))
  | trans h h' ih ih' =>
    rcases ih' with aside | postponed
    · exact ih.imp (fun h => h.aside aside) fun postponed => postponed.aside aside
    · exact .inr (postponed.since h.fresh_le)

theorem accept_aside (payload : Json) (m : Coordinator) : Aside m (accept payload m).1 := by
  have counted : Aside m (counting m) :=
    (Draws.refl m).update (.silent rfl rfl rfl rfl rfl rfl) rfl ⟨rfl, rfl⟩
  have judged := accept_judged payload m
  generalize accept payload m = r at judged ⊢
  cases judged with
  | unread | passes => exact counted
  | stale => exact counted.note
  | last =>
    dsimp only
    exact counted.note.session ⟨rfl, rfl⟩

theorem handleParsed_speech {payload : Json} (hears : heard payload) (m : Coordinator) :
    Speech heard m (handleParsed payload m).1 := by
  have accepted := accept_aside payload m
  have parsed := handleParsed_parsed payload m
  generalize (accept payload m).1 = k at accepted parsed
  generalize (accept payload m).2 = passes, handleParsed payload m = step at parsed ⊢
  have aside {n : Coordinator} (h : Aside k n) : Speech heard m n := .aside (accepted.aside h)
  cases parsed with
  | unread | stale | refused => exact aside (.refl k)
  | flawed => exact aside ((Draws.refl k).session ⟨rfl, rfl⟩).note
  | @drawn schema d l read projected =>
    have drawn : Draws (some schema) d k (mapSession k (adopt · schema d)) :=
      ⟨⟨rfl, rfl, .silent rfl rfl rfl rfl rfl rfl⟩, rfl, rfl, rfl, rfl⟩
    exact (aside (.refl k)).trans (.adopt hears read projected drawn.note)
  | inconsistent =>
    dsimp only
    exact aside ((Draws.refl k).note.session ⟨rfl, rfl⟩)

theorem handleParseFailed_aside (payload : Json) (m : Coordinator) :
    Aside m (handleParseFailed payload m).1 := by
  have accepted := accept_aside payload m
  have failed := handleParseFailed_parseFailed payload m
  generalize (accept payload m).1 = k at accepted failed
  generalize (accept payload m).2 = passes, handleParseFailed payload m = step at failed ⊢
  cases failed with
  | unread | stale => exact accepted
  | refused => exact accepted.note
  | told =>
    dsimp only
    exact accepted.note.session ⟨rfl, rfl⟩

theorem handleSchemaUpdated_aside (payload : Json) (m : Coordinator) :
    Aside m (handleSchemaUpdated payload m).1 := by
  have rewritten : Aside m (rewriting payload m) := by
    unfold rewriting
    split
    · exact .refl m
    · exact (Draws.refl m).session ⟨rfl, rfl⟩
  have updated := handleSchemaUpdated_schemaUpdated payload m
  generalize handleSchemaUpdated payload m = step at updated ⊢
  cases updated with
  | refused => exact rewritten
  | told =>
    dsimp only
    exact rewritten.session ⟨rfl, rfl⟩

theorem handle_speech (kind : Inbound) {payload : Json} (hears : heard payload) (m : Coordinator) :
    Speech heard m (handle kind payload m).1 := by
  cases kind with
  | parsed => exact handleParsed_speech hears m
  | parseFailed => exact .aside (handleParseFailed_aside payload m)
  | schemaUpdated => exact .aside (handleSchemaUpdated_aside payload m)

theorem watch_aside (up : Bool) (m : Coordinator) : Aside m (watch up m).1 := by
  have noted : Aside m (if up = m.world.connected then m
      else logs m .info
        (if up then "Parse channel connected" else "Parse channel disconnected")) := by
    split
    · exact .refl m
    · exact (Draws.refl m).note
  exact noted.update (.silent rfl rfl rfl rfl rfl rfl) rfl ⟨rfl, rfl⟩

theorem start_aside (m : Coordinator) : Aside m (start m).1 := by
  unfold start
  split
  · exact .refl m
  · simp only
    have peer (c : Channel Inbound Unit) (event : String) (kind : Inbound) :
        (c.on event kind).peer = c.peer := rfl
    generalize hc : ((m.world.channel.on Channel.Event.parsed .parsed).on
      Channel.Event.parseFailed .parseFailed).on Channel.Event.schemaUpdated .schemaUpdated = c
    have told : Aside m (channelHost.putChannel { c with watchers := c.watchers ++ [()] } m) :=
      (Draws.refl m).channel (by rw [← hc]; rfl)
    have added :
        Aside m (channelHost.addWatcher () (m.withWorld { m.world with channel := c })).1 :=
      told.aside (watch_aside c.connected _)
    rcases hk : channelHost.addWatcher () (m.withWorld { m.world with channel := c }) with ⟨k, f⟩
    rw [hk] at added
    cases f with
    | some f => exact added
    | none =>
      exact added.update (.silent rfl rfl rfl rfl rfl rfl) rfl ⟨rfl, rfl⟩

def Voices (heard : Json → Prop) (peer : Peer) : Prop :=
  ∀ p ∈ peer, ∀ r ∈ p.2, ∀ payload, heard (r.message payload).2

theorem callAll_speech {H : Type} {call : H → Coordinator → Step} {hs : List H}
    (each : ∀ h ∈ hs, ∀ m, Speech heard m (call h m).1) (m : Coordinator) :
    Speech heard m (callAll call hs m).1 := by
  induction hs generalizing m with
  | nil => exact .aside (.refl m)
  | cons h rest ih =>
    have hh := each h List.mem_cons_self m
    unfold callAll
    rcases hk : call h m with ⟨k, f⟩
    rw [hk] at hh
    cases f with
    | none => exact hh.trans (ih (fun h' hr => each h' (List.mem_cons_of_mem h hr)) k)
    | some f => exact hh

theorem deliver_speech {message : Message} (hears : heard message.2) (m : Coordinator) :
    Speech heard m (channelHost.deliver message m).1 :=
  callAll_speech (fun kind _ m => handle_speech kind hears m) m

theorem emit_speech (voices : Voices heard m.world.channel.peer) (message : Message) :
    Speech heard m (channelHost.emit message m).1 := by
  have hears : ∀ answer ∈ m.world.channel.answers message.1 message.2, heard answer.2 := by
    intro answer ha
    unfold Channel.answers at ha
    split at ha
    · rename_i p hp
      obtain ⟨r, hr, rfl⟩ := List.mem_map.mp ha
      exact voices p (List.mem_of_find?_eq_some hp) r hr message.2
    · cases ha
  unfold ChannelHost.emit
  simp only
  split
  · have sent : Aside m (channelHost.sending message (channelHost.putChannel
        { m.world.channel with sent := m.world.channel.sent ++ [message] } m)) :=
      ((Draws.refl m).channel (c := { m.world.channel with
        sent := m.world.channel.sent ++ [message] }) rfl).witness rfl
    have delivered := callAll_speech fun answer ha m => deliver_speech (hears answer ha) m
    exact (Speech.aside sent).trans (delivered _)
  · exact .aside (Draws.refl m).note

theorem setConnected_speech (up : Bool) (m : Coordinator) :
    Speech heard m (channelHost.setConnected up m).1 := by
  unfold ChannelHost.setConnected
  simp only
  split
  · exact .aside (.refl m)
  · have put : Aside m (channelHost.putChannel { m.world.channel with connected := up } m) :=
      (Draws.refl m).channel (c := { m.world.channel with connected := up }) rfl
    exact (Speech.aside put.note).trans (callAll_speech (fun _ _ m => .aside (watch_aside up m)) _)

theorem parse_speech (voices : Voices heard m.world.channel.peer) (text : Json) :
    Speech heard m (parse text m).1 := by
  unfold parse
  split
  · have asked : Aside m (requesting text m) :=
      ⟨⟨rfl, rfl, .silent rfl rfl rfl rfl rfl rfl⟩, rfl, rfl, rfl, rfl⟩
    have sent : Speech heard m (channelHost.emit (parseRequest text m) (requesting text m)).1 :=
      (Speech.aside asked).trans (emit_speech (asked.peer ▸ voices) (parseRequest text m))
    rcases hk : channelHost.emit (parseRequest text m) (requesting text m) with ⟨k, f⟩
    rw [hk] at sent
    cases f <;> exact sent
  · exact .aside (Draws.refl m).note

def spawning (schema : Schema) (m : Coordinator) : Coordinator :=
  { m with loop :=
    (m.loop.spawnIn .spawned (.own (.save { schema := some schema } .answer))).1 }

/-- What an edit comes to. One that passes draws its diagram and the schema of it, and what is told
    of it may fail, or else a save of the schema is started. -/
inductive Edited (heard : Json → Prop) (e : Edit) (m : Coordinator) :
    Coordinator × Result Json → Prop where
  | unpassed {r : Coordinator × Result Json}
      (none : ((session m).attempt m.world.settings.grid e).2.schema? = none) (h : Aside m r.1) :
      Edited heard e m r
  | untold {schema : Schema} {d : Diagram} {k n : Coordinator} (f : Fault)
      (passed : ((session m).attempt m.world.settings.grid e).2.schema? = some schema)
      (reduced : d.reduce = .ok schema) (h : Draws (some schema) d m k) (told : Speech heard k n) :
      Edited heard e m (n, .error f)
  | saved {schema : Schema} {d : Diagram} {k n l : Coordinator} (answer : Json)
      (passed : ((session m).attempt m.world.settings.grid e).2.schema? = some schema)
      (reduced : d.reduce = .ok schema) (h : Draws (some schema) d m k) (told : Speech heard k n)
      (settled : Aside (spawning schema n) l) : Edited heard e m (l, .ok answer)

theorem settle_aside (e : Edit) (m : Coordinator) : Aside m (editHost.settle e m) := by
  rcases settle_cases e m with ⟨id, -, same⟩ | ⟨-, same⟩
  · have document := Session.document_deselect (session m) id
    rw [same]
    exact (Draws.refl m).session (f := (·.deselect id))
      ⟨congrArg (·.schema) document, Session.canvas_deselect _ id⟩
  · rw [same]
    exact .refl m

theorem edit_edited (voices : Voices heard m.world.channel.peer) (e : Edit) :
    Edited heard e m (edit e m) := by
  have hs : editHost.session m = session m := rfl
  have put (s : Session) (same : s.document = (session m).document ∧
      s.canvas.diagramId = (session m).canvas.diagramId) :
      Draws (session m).document.schema s.diagram m (editHost.putSession s m) :=
    ⟨⟨rfl, rfl, .silent rfl rfl rfl rfl same.2 rfl⟩, congrArg (·.schema) same.1, rfl, rfl, rfl⟩
  have verdict {s : Option Schema} {d : Diagram} {k : Coordinator} (h : Draws s d m k)
      (v : Verdict) : Draws s d m (editHost.putVerdict v k) :=
    h.update (.silent rfl rfl rfl rfl rfl rfl) rfl ⟨rfl, rfl⟩
  have logged (lines : List LogLine) (k : Coordinator) : Aside k (editHost.logAll lines k) := by
    induction lines generalizing k with
    | nil => exact .refl k
    | cons l rest ih => exact (Draws.refl k).note.aside (ih _)
  unfold edit
  rcases (session m).attempt_cases m.world.settings.grid e with
    ⟨f, ha⟩ | ⟨v, -, ha⟩ | ⟨d, id, schema, -, reduced, -, ha⟩
  · rw [EditHost.run_failed (hs ▸ ha)]
    exact .unpassed (congrArg (fun r => r.2.schema?) ha) (put (session m).saved ⟨rfl, rfl⟩)
  · rw [EditHost.run_rolledBack (hs ▸ ha)]
    have noted (n : Note) (k : Coordinator) : Aside k (notify n k).1 :=
      ⟨(notify_noted n k).toTold, rfl, rfl, rfl, rfl⟩
    refine .unpassed (congrArg (fun r => r.2.schema?) ha) ?_
    exact ((verdict (put (session m).saved ⟨rfl, rfl⟩) v).aside (logged _ _)).aside (noted _ _)
  · have passed : ((session m).attempt m.world.settings.grid e).2.schema? = some schema :=
      congrArg (fun r => r.2.schema?) ha
    rw [EditHost.run_passed (t := (session m).saved.withDiagram d) (hs ▸ ha)]
    have stated : Draws (session m).document.schema d m
        (editHost.commitState e ((session m).saved.withDiagram d) schema m) :=
      (verdict (put ((session m).saved.withDiagram d) ⟨rfl, rfl⟩) schema.check).note
    generalize editHost.commitState e ((session m).saved.withDiagram d) schema m = c at stated
    have drawn : Draws (some schema) d m (superseding schema c) := by
      refine stated.draw ⟨⟨rfl, rfl, .silent rfl rfl rfl rfl rfl rfl⟩, rfl, stated.diagram, rfl, rfl⟩
    have told : Speech heard (superseding schema c) (tell schema (superseding schema c)).1 := by
      unfold tell
      split
      · exact emit_speech (drawn.peer ▸ voices) _
      · exact .aside (.refl _)
    rw [show editHost.commit schema c = commit schema c from rfl]
    unfold commit
    rcases hk : tell schema (superseding schema c) with ⟨n, f⟩
    rw [hk] at told
    cases f with
    | some f => exact .untold f passed reduced drawn told
    | none => exact .saved _ passed reduced drawn told (settle_aside e _)

theorem moveTable_cases (id position : Json) (m : Coordinator) :
    Aside m (moveTable id position m).1 ∨
      ∃ d k, d.unplaced = (session m).diagram.unplaced ∧ Draws (session m).document.schema d m k ∧
        (moveTable id position m).1 = k.schedule {} := by
  have moved := Diagram.moveTable_unplaced id position (session m).diagram
  unfold moveTable
  cases run : (Diagram.moveTable id position).run (session m).diagram with
  | error f d =>
    have same : d = (session m).diagram := Diagram.moveTable_clean id position _ f d run
    exact .inl ⟨⟨rfl, rfl, .silent rfl rfl rfl rfl rfl rfl⟩, rfl, same, rfl, rfl⟩
  | ok _ d =>
    rw [run] at moved
    have drawn : Draws (session m).document.schema d m (mapSession m (·.withDiagram d)) :=
      ⟨⟨rfl, rfl, .silent rfl rfl rfl rfl rfl rfl⟩, rfl, rfl, rfl, rfl⟩
    exact .inr ⟨d, mapSession m (·.withDiagram d), moved, drawn, rfl⟩

end Draws

end SchemaDiagram.Sync.Coordinator
