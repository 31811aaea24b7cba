import SchemaDiagram.Proofs.Handling
import SchemaDiagram.Proofs.Incidents

/-!
Talk with a coordinator. Calls, messages and edits change what it knows and ask for saves, but they
do no work of a task: the loop gains at most new tasks, the backend is not called, and the lock on it
stays as it is. What holds of each of the changes of which talk consists, and of one after another, holds of
all that is said in one operation.
-/

set_option autoImplicit false

namespace SchemaDiagram.Sync

open Debounce (Machine)

def Event.isNotice : Event → Bool
  | .sent _ | .note _ => true
  | .save _ _ _ _ | .answered _ _ | .load _ _ | .loadStarter _ => false

def Event.isCall : Event → Bool
  | .save _ _ _ _ => true
  | _ => false

/-- What talk leaves alone. -/
structure World.Keeps (w w' : World) : Prop where
  epoch : w'.epoch = w.epoch
  saving : w'.saving = w.saving
  queue : w'.queue = w.queue
  backend : w'.backend = w.backend
  diagramId : w'.session.canvas.diagramId = w.session.canvas.diagramId
  trace : ∃ notices, w'.trace = w.trace ++ notices ∧ ∀ e ∈ notices, e.isNotice = true

theorem World.Keeps.silent {w w' : World} (epoch : w'.epoch = w.epoch)
    (saving : w'.saving = w.saving) (queue : w'.queue = w.queue) (backend : w'.backend = w.backend)
    (diagramId : w'.session.canvas.diagramId = w.session.canvas.diagramId)
    (trace : w'.trace = w.trace) : w.Keeps w' := by
  refine ⟨epoch, saving, queue, backend, diagramId, [], ?_, fun _ he => nomatch he⟩
  rw [trace, List.append_nil]

theorem World.Keeps.refl (w : World) : w.Keeps w := .silent rfl rfl rfl rfl rfl rfl

theorem World.Keeps.trans {w w' w'' : World} (h : w.Keeps w') (h' : w'.Keeps w'') :
    w.Keeps w'' := by
  obtain ⟨es, hes, hn⟩ := h.trace
  obtain ⟨es', hes', hn'⟩ := h'.trace
  refine ⟨h'.epoch.trans h.epoch, h'.saving.trans h.saving, h'.queue.trans h.queue,
    h'.backend.trans h.backend, h'.diagramId.trans h.diagramId, es ++ es', ?_, fun e he => ?_⟩
  · rw [hes', hes, List.append_assoc]
  · exact (List.mem_append.mp he).elim (hn e) (hn' e)

namespace Coordinator

structure Told (m k : Coordinator) : Prop where
  loop : k.loop = m.loop
  debouncer : k.debouncer = m.debouncer
  world : m.world.Keeps k.world

/-- What messages and edits come to, with the saves that they may ask for. -/
inductive Talk (asks : Overrides → Prop) : Coordinator → Coordinator → Prop where
  | told {m k : Coordinator} (h : Told m k) : Talk asks m k
  | schedule (m : Coordinator) {o : Overrides} (asked : asks o) : Talk asks m (m.schedule o)
  | spawn (m : Coordinator) {schema : Schema} (asked : asks { schema := some schema }) :
      Talk asks m { m with loop :=
        (m.loop.spawnIn .spawned (.own (.save { schema := some schema } .answer))).1 }
  | trans {m k n : Coordinator} (h : Talk asks m k) (h' : Talk asks k n) : Talk asks m n

/-- What the number of an answer is compared with is left as it is. -/
structure Steady (m k : Coordinator) : Prop where
  sent : k.world.parseSent = m.world.parseSent
  received : k.world.parseReceived = m.world.parseReceived
  acceptFrom : k.world.acceptFrom = m.world.acceptFrom

structure Noted (m k : Coordinator) : Prop extends Told m k, Steady m k

/-- A change of which the text, the status and the errors of the session show nothing, and by which no
    save begins or ends. -/
structure Unseen (m k : Coordinator) : Prop extends Noted m k where
  text : (session k).document.text = (session m).document.text
  status : (session k).document.status = (session m).document.status
  errors : (session k).document.errors = (session m).document.errors
  inFlight : k.world.inFlight = m.world.inFlight

/-- A change that leaves the session as it is, and by which no save begins or ends. -/
structure Unmoved (m k : Coordinator) : Prop extends Noted m k where
  session : session k = session m
  inFlight : k.world.inFlight = m.world.inFlight

section Talk

variable {asks : Overrides → Prop} {m k : Coordinator}

theorem Told.trans {n : Coordinator} (h : Told m k) (h' : Told k n) : Told m n :=
  ⟨h'.loop.trans h.loop, h'.debouncer.trans h.debouncer, h.world.trans h'.world⟩

theorem Told.talk (h : Told m k) : Talk asks m k := .told h

theorem Talk.keeps (h : Talk asks m k) : m.world.Keeps k.world := by
  induction h with
  | told h => exact h.world
  | schedule m _ => exact .refl _
  | spawn m _ => exact .refl _
  | trans _ _ ih ih' => exact ih.trans ih'

theorem Talk.mono {asks' : Overrides → Prop} (h : Talk asks m k) (more : ∀ o, asks o → asks' o) :
    Talk asks' m k := by
  induction h with
  | told h => exact .told h
  | schedule m asked => exact .schedule m (more _ asked)
  | spawn m asked => exact .spawn m (more _ asked)
  | trans _ _ ih ih' => exact ih.trans ih'

theorem Talk.pending (h : Talk asks m k) {o : Overrides} (waits : k.debouncer.pending = some o) :
    m.debouncer.pending = some o ∨ asks o := by
  induction h with
  | told h => exact .inl (h.debouncer ▸ waits)
  | schedule m asked => exact .inr (Option.some.inj waits ▸ asked)
  | spawn m _ => exact .inl waits
  | trans _ _ ih ih' => exact (ih' waits).elim ih .inr

theorem Unseen.of_document (noted : Noted m k) (same : (session k).document = (session m).document)
    (inFlight : k.world.inFlight = m.world.inFlight) : Unseen m k :=
  ⟨noted, by rw [same], by rw [same], by rw [same], inFlight⟩

theorem Unmoved.unseen (h : Unmoved m k) : Unseen m k :=
  .of_document h.toNoted (congrArg Session.document h.session) h.inFlight

theorem Steady.refl (m : Coordinator) : Steady m m := ⟨rfl, rfl, rfl⟩

theorem Steady.trans {n : Coordinator} (h : Steady m k) (h' : Steady k n) : Steady m n :=
  ⟨h'.sent.trans h.sent, h'.received.trans h.received, h'.acceptFrom.trans h.acceptFrom⟩

namespace Noted

theorem refl (m : Coordinator) : Noted m m := ⟨⟨rfl, rfl, .refl _⟩, .refl m⟩

theorem trans {n : Coordinator} (h : Noted m k) (h' : Noted k n) : Noted m n :=
  ⟨h.toTold.trans h'.toTold, h.toSteady.trans h'.toSteady⟩

theorem update (h : Noted m k) {w : World} (keeps : k.world.Keeps w)
    (steady : Steady k (k.withWorld w)) : Noted m (k.withWorld w) :=
  h.trans ⟨⟨rfl, rfl, keeps⟩, steady⟩

theorem session (h : Noted m k) {f : Session → Session}
    (keeps : (f k.session).canvas.diagramId = k.session.canvas.diagramId) :
    Noted m (mapSession k f) :=
  h.update (.silent rfl rfl rfl rfl keeps rfl) ⟨rfl, rfl, rfl⟩

theorem note (h : Noted m k) {l : LogLine} : Noted m (k.note l) :=
  h.trans ⟨⟨rfl, rfl, .refl _⟩, rfl, rfl, rfl⟩

theorem witness (h : Noted m k) {e : Event} (notice : e.isNotice = true) :
    Noted m (witness k e) :=
  h.update ⟨rfl, rfl, rfl, rfl, rfl, [e], rfl, fun _ he => List.mem_singleton.mp he ▸ notice⟩
    ⟨rfl, rfl, rfl⟩

theorem channel (h : Noted m k) {c : Channel Inbound Unit} :
    Noted m (channelHost.putChannel c k) :=
  h.update (.silent rfl rfl rfl rfl rfl rfl) ⟨rfl, rfl, rfl⟩

end Noted

structure Counted (m k : Coordinator) : Prop where
  sent : k.world.parseSent = m.world.parseSent
  received : k.world.parseReceived = m.world.parseReceived + 1
  acceptFrom : k.world.acceptFrom = m.world.acceptFrom

theorem Counted.steady {n : Coordinator} (h : Counted m k) (steady : Steady k n) : Counted m n :=
  ⟨steady.sent.trans h.sent, steady.received.trans h.received, steady.acceptFrom.trans h.acceptFrom⟩

theorem accept_counted (payload : Json) (m : Coordinator) :
    Told m (accept payload m).1 ∧ Counted m (accept payload m).1 := by
  have told : Told m (counting m) := ⟨rfl, rfl, .silent rfl rfl rfl rfl rfl rfl⟩
  have counted : Counted m (counting m) := ⟨rfl, rfl, rfl⟩
  have noted {k : Coordinator} (h : Noted (counting m) k) : Told m k ∧ Counted m k :=
    ⟨told.trans h.toTold, counted.steady h.toSteady⟩
  have judged := accept_judged payload m
  generalize accept payload m = r at judged ⊢
  cases judged with
  | unread | passes => exact noted (.refl _)
  | stale => exact noted (Noted.refl _).note
  | last =>
    dsimp only
    exact noted ((Noted.refl _).note.session rfl)

theorem handleParsed_after (asked : asks {}) (payload : Json) (m : Coordinator) :
    Talk asks (accept payload m).1 (handleParsed payload m).1 ∧
      Steady (accept payload m).1 (handleParsed payload m).1 := by
  have noted {n : Coordinator} (h : Noted (accept payload m).1 n) :
      Talk asks (accept payload m).1 n ∧ Steady (accept payload m).1 n := ⟨h.toTold.talk, h.toSteady⟩
  have parsed := handleParsed_parsed payload m
  generalize (accept payload m).2 = passes, handleParsed payload m = step at parsed ⊢
  cases parsed with
  | unread | stale | refused => exact noted (.refl _)
  | flawed => exact noted ((Noted.refl _).session rfl).note
  | @drawn schema d =>
    obtain ⟨talk, steady⟩ := noted ((Noted.refl _).session (f := (adopt · schema d)) rfl).note
    exact ⟨talk.trans (.schedule _ asked), steady.trans ⟨rfl, rfl, rfl⟩⟩
  | inconsistent =>
    dsimp only
    exact noted ((Noted.refl _).note.session rfl)

theorem handleParseFailed_after (payload : Json) (m : Coordinator) :
    Noted (accept payload m).1 (handleParseFailed payload m).1 := by
  have failed := handleParseFailed_parseFailed payload m
  generalize (accept payload m).2 = passes, handleParseFailed payload m = step at failed ⊢
  cases failed with
  | unread | stale => exact .refl _
  | refused => exact (Noted.refl _).note
  | told =>
    dsimp only
    exact (Noted.refl _).note.session rfl

theorem handle_counted (asked : asks {}) {kind : Inbound} (answers : kind ≠ .schemaUpdated)
    (payload : Json) (m : Coordinator) :
    Talk asks m (handle kind payload m).1 ∧ Counted m (handle kind payload m).1 := by
  obtain ⟨told, counted⟩ := accept_counted payload m
  cases kind with
  | parsed =>
    obtain ⟨talk, steady⟩ := handleParsed_after asked payload m
    exact ⟨told.talk.trans talk, counted.steady steady⟩
  | parseFailed =>
    have noted := handleParseFailed_after payload m
    exact ⟨(told.trans noted.toTold).talk, counted.steady noted.toSteady⟩
  | schemaUpdated => exact absurd rfl answers

theorem rewriting_noted (payload : Json) (m : Coordinator) : Noted m (rewriting payload m) := by
  unfold rewriting
  split
  · exact .refl m
  · exact (Noted.refl m).session rfl

theorem handleSchemaUpdated_noted (payload : Json) (m : Coordinator) :
    Noted m (handleSchemaUpdated payload m).1 := by
  have rewritten := rewriting_noted payload m
  have updated := handleSchemaUpdated_schemaUpdated payload m
  generalize handleSchemaUpdated payload m = step at updated ⊢
  cases updated with
  | refused => exact rewritten
  | told =>
    dsimp only
    exact rewritten.session rfl

theorem watch_noted (up : Bool) (m : Coordinator) : Noted m (watch up m).1 := by
  have noted : Noted m (if up = m.world.connected then m
      else logs m .info (if up then "Parse channel connected" else "Parse channel disconnected")) := by
    split
    · exact .refl m
    · exact (Noted.refl m).note
  exact noted.update (.silent rfl rfl rfl rfl rfl rfl)
    ⟨rfl, rfl, rfl⟩

theorem watch_unmoved (up : Bool) (m : Coordinator) : Unmoved m (watch up m).1 := by
  refine ⟨watch_noted up m, ?_, ?_⟩ <;> unfold watch <;> simp only <;> split <;> rfl

theorem addWatcher_noted (m : Coordinator) : Noted m (channelHost.addWatcher () m).1 :=
  (Noted.refl m).channel.trans
    (watch_noted m.world.channel.connected (channelHost.putChannel
      { m.world.channel with watchers := m.world.channel.watchers ++ [()] } m))

theorem start_noted (m : Coordinator) : Noted m (start m).1 := by
  unfold start
  split
  · exact .refl m
  · simp only
    generalize ((m.world.channel.on Channel.Event.parsed .parsed).on
      Channel.Event.parseFailed .parseFailed).on Channel.Event.schemaUpdated .schemaUpdated = c
    have added := ((Noted.refl m).channel (c := c)).trans (addWatcher_noted _)
    change Noted m (channelHost.addWatcher () (m.withWorld { m.world with channel := c })).1 at added
    rcases hk : channelHost.addWatcher () (m.withWorld { m.world with channel := c }) with ⟨k, f⟩
    rw [hk] at added
    cases f with
    | some f => exact added
    | none =>
      exact added.update (.silent rfl rfl rfl rfl rfl rfl)
        ⟨rfl, rfl, rfl⟩

/-- Talk taken apart into the requests, the commits and the answers that it consists of. An answer that
    arrives while a call is still being made has a place of its own. -/
inductive Exchange (asks : Overrides → Prop) : Coordinator → Coordinator → Prop where
  | noted {m k : Coordinator} (h : Noted m k) : Exchange asks m k
  | request (text : Json) (m : Coordinator) (connected : m.world.connected = true) :
      Exchange asks m (requesting text m)
  | commit (schema : Schema) (m : Coordinator) : Exchange asks m (superseding schema m)
  | reply {kind : Inbound} (answers : kind ≠ .schemaUpdated) (payload : Json) (m : Coordinator)
      (asked : asks {}) : Exchange asks m (handle kind payload m).1
  | schedule (m : Coordinator) {o : Overrides} (asked : asks o) : Exchange asks m (m.schedule o)
  | spawn (m : Coordinator) {schema : Schema} (asked : asks { schema := some schema }) :
      Exchange asks m { m with loop :=
        (m.loop.spawnIn .spawned (.own (.save { schema := some schema } .answer))).1 }
  | trans {m k n : Coordinator} (h : Exchange asks m k) (h' : Exchange asks k n) : Exchange asks m n

theorem Exchange.talk (h : Exchange asks m k) : Talk asks m k := by
  induction h with
  | noted h => exact .told h.toTold
  | request text m _ =>
    exact .told ⟨rfl, rfl, .silent rfl rfl rfl rfl rfl rfl⟩
  | commit schema m =>
    exact .told ⟨rfl, rfl, .silent rfl rfl rfl rfl rfl rfl⟩
  | reply answers payload m asked => exact (handle_counted asked answers payload m).1
  | schedule m asked => exact .schedule m asked
  | spawn m asked => exact .spawn m asked
  | trans _ _ ih ih' => exact ih.trans ih'

theorem settle_cases (e : Edit) (m : Coordinator) :
    (∃ id, e = .removeTable id ∧ editHost.settle e m = mapSession m (·.deselect id)) ∨
      (∀ id, e ≠ .removeTable id) ∧ editHost.settle e m = m := by
  cases e with
  | removeTable id => exact .inl ⟨id, rfl, rfl⟩
  | addTable _ | renameTable _ _ | addColumn _ _ | removeColumn _ _ | updateColumn _ _ _
  | addRelationship _ _ _ _ _ | removeRelationship _ | retypeRelationship _ _ => exact .inr ⟨nofun, rfl⟩

theorem settle_unseen (e : Edit) (m : Coordinator) : Unseen m (editHost.settle e m) := by
  rcases settle_cases e m with ⟨id, -, same⟩ | ⟨-, same⟩
  · have canvas := Session.canvas_deselect (session m) id
    rw [same]
    exact .of_document ((Noted.refl m).session (f := (·.deselect id)) (congrArg (·.diagramId) canvas))
      (Session.document_deselect _ id) rfl
  · rw [same]
    exact Unmoved.unseen ⟨.refl m, rfl, rfl⟩

theorem notify_noted (n : Note) (m : Coordinator) : Noted m (notify n m).1 :=
  ⟨⟨rfl, rfl, rfl, rfl, rfl, rfl, rfl, [.note n], rfl, fun _ he => List.mem_singleton.mp he ▸ rfl⟩,
    rfl, rfl, rfl⟩

/-- A relation between moments, with the incidents on the way, that spans each of the changes of which
    talk consists. -/
structure Spans (asks : Overrides → Prop) (R : Coordinator → List Incident → Coordinator → Prop) :
    Prop where
  trans : ∀ {m k n is is'}, R m is k → R k is' n → R m (is ++ is') n
  unmoved : ∀ {m k}, Unmoved m k → R m [] k
  request : ∀ (text : Json) {m}, m.world.connected = true → R m [.requested text m] (requesting text m)
  supersede : ∀ (schema : Schema) m, R m [.committed schema] (superseding schema m)
  handle : asks {} → ∀ kind payload m, R m [.heard kind payload m] (handle kind payload m).1
  schedule : ∀ m {o}, asks o → R m [] (m.schedule o)
  spawn : ∀ m {schema : Schema}, asks { schema := some schema } → R m [] { m with loop :=
    (m.loop.spawnIn .spawned (.own (.save { schema := some schema } .answer))).1 }

namespace Spans

variable {R : Coordinator → List Incident → Coordinator → Prop} (spans : Spans asks R)

include spans

theorem refl (m : Coordinator) : R m [] m := spans.unmoved ⟨.refl m, rfl, rfl⟩

omit spans in
theorem restrict (spans : Spans (fun _ => True) R) : Spans asks R :=
  { spans with
    handle := fun _ => spans.handle trivial
    schedule := fun m _ _ => spans.schedule m trivial
    spawn := fun m _ _ => spans.spawn m trivial }

theorem andThen {n : Coordinator} {is : List Incident} (h : R m is k) (h' : R k [] n) : R m is n :=
  List.append_nil is ▸ spans.trans h h'

theorem note (m : Coordinator) (l : LogLine) : R m [] (m.note l) :=
  spans.unmoved ⟨(Noted.refl m).note, rfl, rfl⟩

theorem tracks (asked : asks {}) :
    channelHost.Tracks fun m calls k => R m (incidentsOfCalls calls) k where
  refl := spans.refl
  trans := fun {m k n calls calls'} h h' => by
    have both := spans.trans h h'
    unfold incidentsOfCalls at both ⊢
    rwa [List.map_append]
  handle := spans.handle asked
  sending := fun _ _ m => spans.unmoved ⟨(Noted.refl m).channel.witness rfl, rfl, rfl⟩
  log := fun l m => spans.note m l

theorem deliver (asked : asks {}) (message : Message) (m : Coordinator) :
    R m (whileDelivered message m) (channelHost.deliver message m).1 := by
  obtain ⟨calls, same, way⟩ := (spans.tracks asked).deliver message m []
  unfold whileDelivered
  rwa [same]

theorem emit (asked : asks {}) (message : Message) (m : Coordinator) :
    R m (whileSent message m) (channelHost.emit message m).1 := by
  obtain ⟨calls, same, way⟩ := (spans.tracks asked).emit message m []
  unfold whileSent
  rwa [same]

theorem watch (up : Bool) (m : Coordinator) : R m [] (watch up m).1 := spans.unmoved (watch_unmoved up m)

theorem watchers (up : Bool) (ws : List Unit) (m : Coordinator) :
    R m [] (callAll (fun _ => Coordinator.watch up) ws m).1 := by
  induction ws generalizing m with
  | nil => exact spans.refl m
  | cons w rest ih => exact spans.andThen (spans.watch up m) (ih _)

theorem setConnected (up : Bool) (m : Coordinator) : R m [] (channelHost.setConnected up m).1 := by
  unfold ChannelHost.setConnected
  simp only
  split
  · exact spans.refl m
  · refine spans.andThen (spans.unmoved ?_) (spans.watchers up _ _)
    exact ⟨(Noted.refl m).channel.note, rfl, rfl⟩

theorem start (m : Coordinator) : R m [] (start m).1 := by
  refine spans.unmoved ⟨start_noted m, ?_, ?_⟩
  all_goals
    unfold Coordinator.start
    split
    · rfl
    · simp only
      generalize ((m.world.channel.on Channel.Event.parsed .parsed).on
        Channel.Event.parseFailed .parseFailed).on Channel.Event.schemaUpdated .schemaUpdated = c
      have told := watch_unmoved c.connected
        (channelHost.putChannel { c with watchers := c.watchers ++ [()] } m)
      rcases hk : channelHost.addWatcher () (m.withWorld { m.world with channel := c }) with ⟨k, f⟩
      obtain rfl : (channelHost.addWatcher () (m.withWorld { m.world with channel := c })).1 = k :=
        congrArg Prod.fst hk
      cases f <;> first | exact told.session | exact told.inFlight

theorem parse (asked : asks {}) (text : Json) (m : Coordinator) :
    R m (whileParsed text m) (parse text m).1 := by
  unfold Coordinator.parse whileParsed
  split
  · rename_i connected
    have sent := spans.trans (spans.request text connected)
      (spans.emit asked (parseRequest text m) _)
    rcases hk : channelHost.emit (parseRequest text m) (requesting text m) with ⟨k, f⟩
    rw [hk] at sent
    cases f <;> exact sent
  · exact spans.note m _

theorem commit (asked : asks {}) {schema : Schema} (own : asks { schema := some schema })
    (m : Coordinator) : R m (whileCommitted schema m) (commit schema m).1 := by
  have told : R m (whileCommitted schema m) (tell schema (superseding schema m)).1 := by
    have connected : (superseding schema m).world.connected = m.world.connected := rfl
    unfold tell whileCommitted
    rw [connected]
    split
    · exact spans.trans (spans.supersede schema m) (spans.emit asked (update schema) _)
    · exact spans.supersede schema m
  unfold Coordinator.commit
  rcases hk : tell schema (superseding schema m) with ⟨k, f⟩
  rw [hk] at told
  cases f with
  | some f => exact told
  | none => exact spans.andThen told (spans.spawn k own)

theorem logAll (lines : List LogLine) (m : Coordinator) : R m [] (editHost.logAll lines m) := by
  induction lines generalizing m with
  | nil => exact spans.refl m
  | cons l rest ih => exact spans.andThen (spans.note m l) (ih _)

theorem postpone (members : List (String × Json)) (asked : asks { members := members })
    (m : Coordinator) : R m [] (postpone members m).1 := by
  unfold Coordinator.postpone
  cases checkOverrides members with
  | error f => exact spans.refl m
  | ok _ => exact spans.schedule m asked

-- An edit and a move change the diagram, of which text, status and errors show nothing.

variable (unseen : ∀ {m k}, Unseen m k → R m [] k)

include unseen

theorem edit (asked : asks {}) (e : Edit) (m : Coordinator)
    (own : ∀ schema, ((session m).attempt m.world.settings.grid e).2.schema? = some schema →
      asks { schema := some schema }) : R m (whileEdited e m) (edit e m).1 := by
  have hs : editHost.session m = session m := rfl
  have put (s : Session) (v : Verdict) (h : s.canvas.diagramId = (session m).canvas.diagramId)
      (same : s.document = (session m).document) :
      R m [] (editHost.putVerdict v (editHost.putSession s m)) :=
    unseen (.of_document ((Noted.refl m).update (.silent rfl rfl rfl rfl h rfl) ⟨rfl, rfl, rfl⟩)
      same rfl)
  unfold Coordinator.edit whileEdited
  rcases (session m).attempt_cases m.world.settings.grid e with
    ⟨f, ha⟩ | ⟨v, -, ha⟩ | ⟨d, id, schema, -, -, -, ha⟩
  · rw [EditHost.run_failed (hs ▸ ha), ha]
    exact unseen ⟨(Noted.refl m).session (f := fun _ => (session m).saved) rfl, rfl, rfl, rfl, rfl⟩
  · rw [EditHost.run_rolledBack (hs ▸ ha), ha]
    exact spans.andThen (spans.andThen (put (session m).saved v rfl rfl) (spans.logAll _ _))
      (spans.unmoved ⟨notify_noted _ _, rfl, rfl⟩)
  · have own := own schema (congrArg (fun r => r.2.schema?) ha)
    rw [EditHost.run_passed (t := (session m).saved.withDiagram d) (hs ▸ ha), ha]
    have stated : R m [] (editHost.commitState e ((session m).saved.withDiagram d) schema m) :=
      spans.andThen (put ((session m).saved.withDiagram d) schema.check rfl rfl) (spans.note _ _)
    have committed := spans.trans stated (spans.commit asked own _)
    change R m _ (editHost.commit schema _).1 at committed
    rcases hk : editHost.commit schema (editHost.commitState e _ schema m) with ⟨k, f⟩
    rw [hk] at committed
    cases f with
    | some f => exact committed
    | none => exact spans.andThen committed (unseen (settle_unseen e k))

theorem moveTable (asked : asks {}) (id position : Json) (m : Coordinator) :
    R m [] (moveTable id position m).1 := by
  have moved (d : Diagram) : R m [] (mapSession m (·.withDiagram d)) :=
    unseen ⟨(Noted.refl m).session (f := (·.withDiagram d)) rfl, rfl, rfl, rfl, rfl⟩
  unfold Coordinator.moveTable
  cases (Diagram.moveTable id position).run (session m).diagram with
  | error f d => exact moved d
  | ok _ d => exact spans.andThen (moved d) (spans.schedule _ asked)

end Spans

def asked (m : Coordinator) (o : Operation) (ov : Overrides) : Prop :=
  match o with
  | .edit e => ov = {} ∨ ∃ schema,
      ((session m).attempt m.world.settings.grid e).2.schema? = some schema ∧
        ov = { schema := some schema }
  | .postpone members | .spawn (.save members) | .enter (.save members) =>
    ov = { members := members }
  | .parse _ | .deliver _ | .moveTable _ _ => ov = {}
  | _ => False

/-- Whatever is said in an operation is spanned. -/
theorem Spans.perform {R : Coordinator → List Incident → Coordinator → Prop} {o : Operation}
    (spans : Spans (asked m o) R) (unseen : ∀ {m k}, Unseen m k → R m [] k) (talks : o.works = false) :
    R m (incidents m o) (perform m o) := by
  cases o with
  | start => exact spans.start m
  | parse text =>
    have plain : asked m (.parse text) {} := rfl
    exact spans.parse plain text m
  | deliver message =>
    have plain : asked m (.deliver message) {} := rfl
    exact spans.deliver plain message m
  | setConnected up => exact spans.setConnected up m
  | edit e => exact spans.edit unseen (.inl rfl) e m fun schema hs => .inr ⟨schema, hs, rfl⟩
  | moveTable id position =>
    have plain : asked m (.moveTable id position) {} := rfl
    exact spans.moveTable unseen plain id position m
  | postpone members =>
    have given : asked m (.postpone members) { members := members } := rfl
    exact spans.postpone members given m
  | spawn | enter | turn | advance => cases talks

theorem Exchange.spans : Spans asks fun m _ k => Exchange asks m k where
  trans := .trans
  unmoved := fun h => .noted h.toNoted
  request := fun text m connected => .request text m connected
  supersede := .commit
  handle := fun asked kind payload m => by
    cases kind with
    | parsed => exact .reply (by nofun) payload m asked
    | parseFailed => exact .reply (by nofun) payload m asked
    | schemaUpdated => exact .noted (handleSchemaUpdated_noted payload m)
  schedule := .schedule
  spawn := .spawn

theorem perform_exchange {o : Operation} (talks : o.works = false) (m : Coordinator) :
    Exchange (asked m o) m (perform m o) :=
  (@Exchange.spans (asked m o)).perform (fun h => .noted h.toNoted) talks

theorem Spans.furnish {R : Coordinator → List Incident → Coordinator → Prop} (spans : Spans asks R)
    (draw : ∀ {schema d} members m, drawnIn m.world.settings.grid members = .ok (schema, d) →
      R m [.drawn schema] (mapSession m fun s => (s.withSchema (some schema)).withDiagram d))
    (asked : asks {}) (members : List (String × Json)) (m : Coordinator) :
    R m (whileFurnished members m) (furnish members m).1 := by
  unfold Coordinator.furnish whileFurnished
  split
  · cases drawn : drawnIn m.world.settings.grid members with
    | error f => exact spans.refl m
    | ok r => exact draw members m drawn
  · split
    · have parsed := spans.parse asked (textIn members) m
      rcases hk : Coordinator.parse (textIn members) m with ⟨k, r⟩
      rw [hk] at parsed
      cases r <;> exact parsed
    · exact spans.refl m

theorem furnish_exchange (asked : asks {}) (members : List (String × Json)) (m : Coordinator) :
    Exchange asks m (furnish members m).1 :=
  (@Exchange.spans asks).furnish (fun _ m _ => .noted ((Noted.refl m).session rfl)) asked members m

end Talk

end Coordinator

end SchemaDiagram.Sync
