import SchemaDiagram.Proofs.PlainRuns

/-!
What an edit hands on. The schema of an edit that commits is announced to the remote side, if the
channel is up, and is saved last of all: an answer to the announcement that is refused keeps the save
from being started. An edit that does not commit hands nothing on.
-/

set_option autoImplicit false

namespace SchemaDiagram.Sync

namespace Coordinator

/-- What is sent for a schema that is committed: the channel must be up, and known to be. -/
def announcement (m : Coordinator) (schema : Schema) : List Message :=
  if m.world.connected = true ∧ m.world.channel.connected = true then [update schema] else []

def schemaAt : Debounce.Point Point Wait → Option Schema
  | .own (.save o _) => o.schema
  | .own _ | .window _ | .quiet _ | .pause _ _ => none

/-- The schemas with which tasks have been made that save at once. -/
def savesOf (l : TaskLoop) : List Schema := l.tasks.filterMap fun x => schemaAt x.point

def readable : Json → Bool
  | .obj members => (recordsOf TextError (member members "errors")).isOk
  | _ => false

/-- What the remote side answers to a commit is readable text for the schema. -/
def Retold (m : Coordinator) (o : Operation) : Prop :=
  ∀ schema ∈ committed m o, m.world.channel.connected = true →
    ∀ answer ∈ m.world.channel.answers (update schema).1 (update schema).2,
      ∀ kind ∈ m.world.channel.handlersOf answer.1, kind = .schemaUpdated ∧ readable answer.2 = true

instance (m : Coordinator) (o : Operation) : Decidable (Retold m o) :=
  inferInstanceAs (Decidable (∀ schema ∈ committed m o, _))

/-- A coordinator that is told of every change of the connection, and knows of the last. -/
structure InTouch (m : Coordinator) : Prop where
  watches : m.world.channel.watchers ≠ []
  knows : m.world.connected = m.world.channel.connected

/-- Nothing is sent and no save of a schema is started; the connection and the answers that count are
    as they were. -/
structure Silent (m k : Coordinator) : Prop where
  channel : k.world.channel = m.world.channel
  connected : k.world.connected = m.world.connected
  started : k.world.started = m.world.started
  parseSent : k.world.parseSent = m.world.parseSent
  acceptFrom : k.world.acceptFrom = m.world.acceptFrom
  saves : savesOf k.loop = savesOf m.loop

/-- What becomes of an edit, whatever the remote side answers: one that does not commit leaves all as it
    was, and the schema of one that does is saved at once unless the call fails. -/
structure HandsOn (m : Coordinator) (e : Edit) : Prop where
  uncommitted : committed m (.edit e) = none →
    (edit e m).1.world.channel = m.world.channel ∧ (edit e m).1.loop = m.loop ∧
      (edit e m).1.debouncer = m.debouncer ∧
      (session (edit e m).1).document.schema = (session m).document.schema ∧
      (edit e m).1.world.acceptFrom = m.world.acceptFrom
  committed : ∀ schema, committed m (.edit e) = some schema →
    (edit e m).1.world.channel.sent = m.world.channel.sent ++
        (if m.world.channel.connected then [update schema] else []) ∧
      (edit e m).1.world.acceptFrom = m.world.parseSent + 1 ∧
      savesOf (edit e m).1.loop = savesOf m.loop ++ if (edit e m).2.isOk then [schema] else []

/-- What becomes of an edit when the remote side answers as it should: it fails or is rolled back, or
    else the only task that it makes is the save of its schema. -/
structure HandsOnOnce (m : Coordinator) (e : Edit) : Prop where
  refused : (edit e m).2 = .ok e.declined ∨ (∃ f, (edit e m).2 = .error f) →
    committed m (.edit e) = none
  committed : ∀ schema, committed m (.edit e) = some schema →
    (edit e m).2.isOk = true ∧
      (edit e m).1.loop =
        (m.loop.spawnIn .spawned (.own (.save { schema := some schema } .answer))).1 ∧
      (edit e m).1.debouncer = m.debouncer ∧
      (session (edit e m).1).document.schema = some schema ∧
      ∀ s payload, payloadOf { schema := some schema } s = .ok payload → payload.schema = some schema

section Silent

variable {m k n : Coordinator}

namespace Silent

theorem refl (m : Coordinator) : Silent m m := ⟨rfl, rfl, rfl, rfl, rfl, rfl⟩

theorem trans (h : Silent m k) (h' : Silent k n) : Silent m n :=
  ⟨h'.channel.trans h.channel, h'.connected.trans h.connected, h'.started.trans h.started,
    h'.parseSent.trans h.parseSent, h'.acceptFrom.trans h.acceptFrom, h'.saves.trans h.saves⟩

theorem session (h : Silent m k) {f : Session → Session} : Silent m (mapSession k f) :=
  h.trans ⟨rfl, rfl, rfl, rfl, rfl, rfl⟩

theorem note (h : Silent m k) {l : LogLine} : Silent m (k.note l) :=
  h.trans ⟨rfl, rfl, rfl, rfl, rfl, rfl⟩

end Silent

theorem savesOf_mapTask (l : TaskLoop) (t : TaskId)
    {f : Task (Debounce.Point Point Wait) → Task (Debounce.Point Point Wait)}
    (keeps : ∀ x, (f x).point = x.point) : savesOf (l.mapTask t f) = savesOf l := by
  unfold savesOf Loop.mapTask
  rw [List.filterMap_map]
  refine congrArg (l.tasks.filterMap ·) (funext fun x => ?_)
  change schemaAt (if x.id = t then f x else x).point = schemaAt x.point
  split
  · rw [keeps]
  · rfl

theorem savesOf_spawn (l : TaskLoop) (p : Debounce.Point Point Wait) :
    savesOf (l.spawn p).1 = savesOf l ++ (schemaAt p).toList := by
  change List.filterMap _ (l.tasks ++ [_]) = _
  rw [List.filterMap_append]
  cases h : schemaAt p <;> simp [savesOf, h]

theorem savesOf_spawnIn (l : TaskLoop) (group : TaskGroup) (p : Debounce.Point Point Wait) :
    savesOf (l.spawnIn group p).1 = savesOf l ++ (schemaAt p).toList := by
  rw [← savesOf_spawn]
  exact savesOf_mapTask (l.spawn p).1 _ fun _ => rfl

theorem savesOf_cancel (l : TaskLoop) (t : TaskId) : savesOf (l.cancel t) = savesOf l := by
  unfold Loop.cancel
  split
  · rfl
  · have marked := savesOf_mapTask l t (f := fun x => { x with calledOff := true }) fun _ => rfl
    simp only
    split <;> exact marked

theorem schedule_silent (m : Coordinator) (o : Overrides) : Silent m (m.schedule o) := by
  have same : (m.schedule o).world = m.world := cancel_world m
  have cancelled : savesOf m.cancel.loop = savesOf m.loop := by
    unfold Debounce.Machine.cancel
    cases m.debouncer.window with
    | none => rfl
    | some w => exact savesOf_cancel m.loop w
  refine ⟨by rw [same], by rw [same], by rw [same], by rw [same], by rw [same], ?_⟩
  have waits : schemaAt (.window false) = none := rfl
  change savesOf (m.cancel.loop.spawn (.window false)).1 = _
  rw [savesOf_spawn, waits, Option.toList_none, List.append_nil, cancelled]

theorem accept_silent (payload : Json) (m : Coordinator) : Silent m (accept payload m).1 := by
  have counted : Silent m (counting m) := ⟨rfl, rfl, rfl, rfl, rfl, rfl⟩
  have judged := accept_judged payload m
  generalize accept payload m = r at judged ⊢
  cases judged with
  | unread | passes => exact counted
  | stale => exact counted.note
  | last => exact counted.note.session (f := (·.withStatus .idle))

theorem handle_silent (kind : Inbound) (payload : Json) (m : Coordinator) :
    Silent m (handle kind payload m).1 := by
  have accepted := accept_silent payload m
  cases kind with
  | parsed =>
    have parsed := handleParsed_parsed payload m
    change Silent m (handleParsed payload m).1
    generalize (accept payload m).1 = k at accepted parsed
    generalize (accept payload m).2 = passes, handleParsed payload m = step at parsed ⊢
    cases parsed with
    | unread | stale | refused => exact accepted
    | flawed => exact accepted.session.note
    | @drawn schema d =>
      exact (accepted.session (f := (adopt · schema d))).note.trans (schedule_silent _ {})
    | inconsistent =>
      dsimp only
      exact accepted.note.session
  | parseFailed =>
    have failed := handleParseFailed_parseFailed payload m
    change Silent m (handleParseFailed payload m).1
    generalize (accept payload m).1 = k at accepted failed
    generalize (accept payload m).2 = passes, handleParseFailed payload m = step at failed ⊢
    cases failed with
    | unread | stale => exact accepted
    | refused => exact accepted.note
    | told =>
      dsimp only
      exact accepted.note.session
  | schemaUpdated =>
    have rewritten : Silent m (rewriting payload m) := by
      unfold rewriting
      split
      · exact .refl m
      · exact (Silent.refl m).session
    have updated := handleSchemaUpdated_schemaUpdated payload m
    change Silent m (handleSchemaUpdated payload m).1
    generalize handleSchemaUpdated payload m = step at updated ⊢
    cases updated with
    | refused => exact rewritten
    | told =>
      dsimp only
      exact rewritten.session

theorem callAll_silent {H : Type} {call : H → Coordinator → Step}
    (each : ∀ h m, Silent m (call h m).1) (hs : List H) (m : Coordinator) :
    Silent m (callAll call hs m).1 := by
  induction hs generalizing m with
  | nil => exact .refl m
  | cons h rest ih =>
    have hh := each h m
    unfold callAll
    rcases hk : call h m with ⟨k, f⟩
    rw [hk] at hh
    cases f with
    | none => exact hh.trans (ih k)
    | some f => exact hh

theorem deliver_silent (message : Message) (m : Coordinator) :
    Silent m (channelHost.deliver message m).1 :=
  callAll_silent (fun kind m => handle_silent kind message.2 m) _ m

theorem callAll_heard {H : Type} {call : H → Coordinator → Step} {hs : List H}
    {I : Coordinator → Prop}
    (each : ∀ h ∈ hs, ∀ m, I m → (call h m).2 = none ∧ I (call h m).1) {m : Coordinator} (hm : I m) :
    (callAll call hs m).2 = none ∧ I (callAll call hs m).1 := by
  induction hs generalizing m with
  | nil => exact ⟨rfl, hm⟩
  | cons h rest ih =>
    obtain ⟨heard, hk⟩ := each h List.mem_cons_self m hm
    unfold callAll
    rcases hs : call h m with ⟨k, f⟩
    rw [hs] at heard hk
    obtain rfl : f = none := heard
    exact ih (fun h' hr => each h' (List.mem_cons_of_mem h hr)) hk

theorem handleSchemaUpdated_heard {payload : Json} (read : readable payload = true)
    (m : Coordinator) : (handleSchemaUpdated payload m).2 = none := by
  cases payload with
  | obj members =>
    change (recordsOf TextError (member members "errors")).isOk = true at read
    unfold handleSchemaUpdated membersOf
    simp only
    generalize recordsOf TextError (member members "errors") = errors at read ⊢
    cases errors with
    | error f => cases read
    | ok errors =>
      dsimp only
      generalize (if member members "dbmlText" = .null then m
        else mapSession m (·.withText (member members "dbmlText"))) = k
      by_cases flaw : errors ≠ []
      · rw [if_pos flaw]
      · rw [if_neg flaw]
        split <;> rfl
  | null | bool _ | int _ | float _ | str _ | arr _ => cases read

def sending (message : Message) (m : Coordinator) : Coordinator :=
  channelHost.sending message (channelHost.putChannel
    { m.world.channel with sent := m.world.channel.sent ++ [message] } m)

structure Emits (messages : List Message) (m k : Coordinator) : Prop where
  channel : k.world.channel = { m.world.channel with sent := m.world.channel.sent ++ messages }
  connected : k.world.connected = m.world.connected
  started : k.world.started = m.world.started

theorem Silent.emits (h : Silent m k) : Emits [] m k :=
  ⟨by rw [h.channel, List.append_nil], h.connected, h.started⟩

theorem Emits.silent {messages : List Message} (h : Emits messages m k) (h' : Silent k n) :
    Emits messages m n :=
  ⟨h'.channel.trans h.channel, h'.connected.trans h.connected, h'.started.trans h.started⟩

theorem Emits.inTouch {messages : List Message} (h : Emits messages m k) (touch : InTouch m) :
    InTouch k :=
  ⟨by rw [h.channel]; exact touch.watches, by rw [h.connected, h.channel]; exact touch.knows⟩

theorem emit_eq (message : Message) (m : Coordinator) :
    channelHost.emit message m =
      if m.world.channel.connected then
        callAll channelHost.deliver (m.world.channel.answers message.1 message.2)
          (sending message m)
      else (m.note ⟨.warning, .channel, "Channel not connected, cannot emit: " ++ message.1⟩, none) :=
  rfl

theorem emit_answered (message : Message) (m : Coordinator) :
    Silent (if m.world.channel.connected then sending message m else m)
      (channelHost.emit message m).1 := by
  rw [emit_eq]
  split
  · exact callAll_silent deliver_silent _ _
  · exact (Silent.refl m).note

theorem tell_emits (schema : Schema) (m : Coordinator) :
    Emits (announcement m schema) m (tell schema m).1 ∧
      (tell schema m).1.world.acceptFrom = m.world.acceptFrom ∧
      savesOf (tell schema m).1.loop = savesOf m.loop := by
  unfold tell announcement
  cases known : m.world.connected with
  | true =>
    have answered := emit_answered (update schema) m
    cases up : m.world.channel.connected with
    | true =>
      rw [if_pos up] at answered
      have sent : Emits [update schema] m (sending (update schema) m) := ⟨rfl, rfl, rfl⟩
      exact ⟨sent.silent answered, answered.acceptFrom, answered.saves⟩
    | false =>
      rw [if_neg (by simp [up])] at answered
      exact ⟨answered.emits, answered.acceptFrom, answered.saves⟩
  | false => exact ⟨(Silent.refl m).emits, rfl, rfl⟩

theorem tell_retold {schema : Schema}
    (retold : m.world.channel.connected = true →
      ∀ answer ∈ m.world.channel.answers (update schema).1 (update schema).2,
        ∀ kind ∈ m.world.channel.handlersOf answer.1,
          kind = .schemaUpdated ∧ readable answer.2 = true) :
    (tell schema m).2 = none ∧ Aside m (tell schema m).1 := by
  unfold tell
  split
  case isFalse => exact ⟨rfl, .refl m⟩
  change (channelHost.emit (update schema) m).2 = none ∧ Aside m (channelHost.emit (update schema) m).1
  rw [emit_eq]
  split
  case isFalse => exact ⟨rfl, (Draws.refl m).note⟩
  rename_i up
  have sent : Aside m (sending (update schema) m) :=
    ((Draws.refl m).channel (c := { m.world.channel with
      sent := m.world.channel.sent ++ [update schema] }) rfl).witness rfl
  -- the handlers do not touch the channel, so every answer finds those that were there at first
  let I (k : Coordinator) : Prop :=
    Aside m k ∧ k.world.channel.handlers = m.world.channel.handlers
  have delivered : ∀ answer ∈ m.world.channel.answers (update schema).1 (update schema).2,
      ∀ k, I k → (channelHost.deliver answer k).2 = none ∧ I (channelHost.deliver answer k).1 := by
    intro answer ha k hk
    refine callAll_heard (fun kind hkind n hn => ?_) hk
    have listens : kind ∈ m.world.channel.handlersOf answer.1 := by
      unfold Channel.handlersOf at hkind ⊢
      rw [← hk.2]
      exact hkind
    obtain ⟨rfl, read⟩ := retold up answer ha kind listens
    refine ⟨handleSchemaUpdated_heard read n, hn.1.aside (handleSchemaUpdated_aside answer.2 n), ?_⟩
    have silent := handle_silent .schemaUpdated answer.2 n
    exact (congrArg (·.handlers) silent.channel).trans hn.2
  have all := callAll_heard delivered (m := sending (update schema) m) ⟨sent, rfl⟩
  exact ⟨all.1, all.2.1⟩

variable {e : Edit}

theorem committed_edit : committed m (.edit e) =
    ((session m).attempt m.world.settings.grid e).2.schema? := rfl

theorem settle_silent (e : Edit) (m : Coordinator) : Silent m (editHost.settle e m) := by
  cases e <;> exact ⟨rfl, rfl, rfl, rfl, rfl, rfl⟩

theorem logAll_silent (lines : List LogLine) (m : Coordinator) :
    Silent m (editHost.logAll lines m) := by
  induction lines generalizing m with
  | nil => exact .refl m
  | cons l rest ih => exact (Silent.refl m).note.trans (ih _)

theorem edit_unpassed (none : committed m (.edit e) = none) :
    Silent m (edit e m).1 ∧ Aside m (edit e m).1 := by
  refine ⟨?_, ?_⟩
  · have put (s : Session) (v : Verdict) :
        Silent m (editHost.putVerdict v (editHost.putSession s m)) := ⟨rfl, rfl, rfl, rfl, rfl, rfl⟩
    have noted (n : Note) (k : Coordinator) : Silent k (notify n k).1 :=
      ⟨rfl, rfl, rfl, rfl, rfl, rfl⟩
    have hs : editHost.session m = session m := rfl
    unfold edit
    rcases (session m).attempt_cases m.world.settings.grid e with
      ⟨f, ha⟩ | ⟨v, -, ha⟩ | ⟨d, id, schema, -, -, -, ha⟩
    · rw [EditHost.run_failed (hs ▸ ha)]
      exact ⟨rfl, rfl, rfl, rfl, rfl, rfl⟩
    · rw [EditHost.run_rolledBack (hs ▸ ha)]
      exact ((put (session m).saved v).trans (logAll_silent _ _)).trans (noted _ _)
    · rw [committed_edit, ha] at none
      cases none
  · have edited : Edited (fun _ => True) e m (edit e m) := edit_edited (fun _ _ _ _ _ => trivial) e
    generalize edit e m = r at edited ⊢
    cases edited with
    | unpassed _ h => exact h
    | untold f passed => cases none.symm.trans passed
    | saved answer passed => cases none.symm.trans passed

theorem edit_passed {schema : Schema} (passed : committed m (.edit e) = some schema) :
    ∃ k id, Silent m k ∧ k.loop = m.loop ∧ k.debouncer = m.debouncer ∧
      edit e m = match tell schema (superseding schema k) with
        | (n, some f) => (n, .error f)
        | (n, none) => (editHost.settle e (spawning schema n), .ok (e.accepted id)) := by
  have hs : editHost.session m = session m := rfl
  rw [committed_edit] at passed
  obtain ⟨d, id, -, -, -, ha⟩ := Session.passed_of_schema? passed
  refine ⟨editHost.commitState e ((session m).saved.withDiagram d) schema m, id,
    ⟨rfl, rfl, rfl, rfl, rfl, rfl⟩, rfl, rfl, ?_⟩
  unfold edit
  rw [EditHost.run_passed (t := (session m).saved.withDiagram d) (hs ▸ ha)]
  generalize editHost.commitState e ((session m).saved.withDiagram d) schema m = k
  rw [show editHost.commit schema k = commit schema k from rfl]
  unfold commit
  rcases tell schema (superseding schema k) with ⟨n, f⟩
  cases f <;> rfl

theorem edit_hands {schema : Schema} (passed : committed m (.edit e) = some schema) :
    Emits (announcement m schema) m (edit e m).1 ∧
      (edit e m).1.world.acceptFrom = m.world.parseSent + 1 ∧
      savesOf (edit e m).1.loop = savesOf m.loop ++ if (edit e m).2.isOk then [schema] else [] := by
  obtain ⟨k, id, silent, -, -, eq⟩ := edit_passed passed
  have super : Emits [] m (superseding schema k) :=
    ⟨silent.emits.channel, silent.connected, silent.started⟩
  have same : (superseding schema k).world.channel = m.world.channel := silent.channel
  obtain ⟨told, accepts, saves⟩ := tell_emits schema (superseding schema k)
  have sends : Emits (announcement m schema) m (tell schema (superseding schema k)).1 := by
    refine ⟨?_, told.connected.trans super.connected, told.started.trans super.started⟩
    rw [told.channel, same]
    unfold announcement
    rw [same, super.connected]
  replace accepts : _ = m.world.parseSent + 1 :=
    accepts.trans (congrArg (· + 1) silent.parseSent)
  replace saves : _ = savesOf m.loop := saves.trans silent.saves
  rw [eq]
  rcases hk : tell schema (superseding schema k) with ⟨n, f⟩
  rw [hk] at sends accepts saves
  cases f with
  | some f => exact ⟨sends, accepts, saves.trans (List.append_nil _).symm⟩
  | none =>
    have settled := settle_silent e (spawning schema n)
    have spawned : Emits (announcement m schema) m (spawning schema n) :=
      ⟨sends.channel, sends.connected, sends.started⟩
    refine ⟨spawned.silent settled, settled.acceptFrom.trans accepts, ?_⟩
    calc savesOf (editHost.settle e (spawning schema n)).loop
        = savesOf (spawning schema n).loop := settled.saves
      _ = savesOf n.loop ++ [schema] :=
        savesOf_spawnIn n.loop .spawned (.own (.save { schema := some schema } .answer))
      _ = savesOf m.loop ++ [schema] := by rw [saves]

theorem edit_emits (e : Edit) (m : Coordinator) :
    Emits ((committed m (.edit e)).toList.flatMap (announcement m)) m (edit e m).1 := by
  cases passed : committed m (.edit e) with
  | none => exact (edit_unpassed passed).1.emits
  | some schema =>
    have sends := (edit_hands passed).1
    simpa only [Option.toList_some, List.flatMap_singleton] using sends

theorem announcement_of_knows (knows : m.world.connected = m.world.channel.connected)
    (schema : Schema) :
    announcement m schema = if m.world.channel.connected then [update schema] else [] := by
  unfold announcement
  simp only [knows, and_self]

theorem handsOn (knows : m.world.connected = m.world.channel.connected) (e : Edit) :
    HandsOn m e := by
  refine ⟨fun none => ?_, fun schema passed => ?_⟩
  · obtain ⟨silent, aside⟩ := edit_unpassed none
    exact ⟨silent.channel, aside.loop, aside.debouncer, aside.schema, silent.acceptFrom⟩
  · obtain ⟨sends, rest⟩ := edit_hands passed
    rw [announcement_of_knows knows] at sends
    exact ⟨congrArg (·.sent) sends.channel, rest⟩

theorem handsOnOnce (retold : Retold m (.edit e)) : HandsOnOnce m e := by
  have once : ∀ schema, committed m (.edit e) = some schema → ∃ n id,
      n.loop = m.loop ∧ n.debouncer = m.debouncer ∧ (session n).document.schema = some schema ∧
        edit e m = (editHost.settle e (spawning schema n), .ok (e.accepted id)) := by
    intro schema passed
    obtain ⟨k, id, silent, loop, debouncer, eq⟩ := edit_passed passed
    have same : (superseding schema k).world.channel = m.world.channel := silent.channel
    obtain ⟨heard, aside⟩ := tell_retold (m := superseding schema k)
      (by rw [same]; exact retold schema passed)
    rcases hk : tell schema (superseding schema k) with ⟨n, f⟩
    rw [hk] at eq heard aside
    obtain rfl : f = none := heard
    exact ⟨n, id, aside.loop.trans loop, aside.debouncer.trans debouncer, aside.schema, eq⟩
  refine ⟨fun refused => ?_, fun schema passed => ?_⟩
  · rcases refused with declined | ⟨f, raised⟩
    · exact EditHost.uncommitted_iff.mp (.declined declined)
    · cases passed : committed m (.edit e) with
      | none => rfl
      | some schema =>
        obtain ⟨n, id, -, -, -, eq⟩ := once schema passed
        rw [eq] at raised
        cases raised
  · obtain ⟨n, id, loop, debouncer, drawn, eq⟩ := once schema passed
    have settled := settle_aside e (spawning schema n)
    rw [eq]
    refine ⟨rfl, ?_, settled.debouncer.trans debouncer, settled.schema.trans drawn,
      fun s payload built => (payload_parts rfl built).1⟩
    rw [settled.loop, ← loop]
    rfl

end Silent

end Coordinator

end SchemaDiagram.Sync
