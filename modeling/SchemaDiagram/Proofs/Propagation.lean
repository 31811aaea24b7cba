import SchemaDiagram.Proofs.Announcements

/-!
Runs of a coordinator that is started. It is told of every change of the connection, so that the remote
side is handed each schema that is committed while the channel is up, once and in order, whatever else
happens meanwhile. The latest commit is the schema of the session, unless the remote side has brought
another or a load has.
-/

set_option autoImplicit false

namespace SchemaDiagram.Sync

def Operation.mute : Operation → Bool
  | parse _ | deliver _ => false
  | spawn e | enter e => !e.loads
  | start | setConnected _ | edit _ | moveTable _ _ | postpone _ | turn | advance => true

theorem Operation.loads_of_mute {o : Operation} (mute : o.mute = true) : o.loads = false := by
  cases o with
  | spawn e | enter e =>
    change e.loads = false
    simpa only [Operation.mute, Bool.not_eq_true'] using mute
  | start | parse _ | deliver _ | setConnected _ | edit _ | moveTable _ _ | postpone _ | turn
  | advance => rfl

namespace Coordinator

def commits : Coordinator → List Operation → List Schema
  | _, [] => []
  | m, o :: rest => (committed m o).toList ++ commits (perform m o) rest

def commitsWhileUp : Coordinator → List Operation → List Schema
  | _, [] => []
  | m, o :: rest =>
    (if m.world.channel.connected then (committed m o).toList else []) ++
      commitsWhileUp (perform m o) rest

def updates (m : Coordinator) : List Message :=
  m.world.channel.sent.filter fun message => message.1 = Channel.Event.updateSchema

/-- No load is under way. -/
def Loadless (m : Coordinator) : Prop := ∀ x ∈ m.loop.tasks, x.outcome = none → isLoad x.point = false

instance (m : Coordinator) : Decidable (Loadless m) :=
  inferInstanceAs (Decidable (∀ x ∈ m.loop.tasks, _))

section Reticent

variable {m k n : Coordinator}

/-- No schema is handed to the remote side, and a coordinator that is started stays in touch. -/
structure Reticent (m k : Coordinator) : Prop where
  updates : updates k = updates m
  touch : (m.world.started = true → InTouch m) → k.world.started = true → InTouch k

namespace Reticent

theorem refl (m : Coordinator) : Reticent m m := ⟨rfl, id⟩

theorem trans (h : Reticent m k) (h' : Reticent k n) : Reticent m n :=
  ⟨h'.updates.trans h.updates, fun touch => h'.touch (h.touch touch)⟩

theorem of_watched (updates : Coordinator.updates k = Coordinator.updates m)
    (watchers : k.world.channel.watchers = m.world.channel.watchers)
    (up : k.world.channel.connected = m.world.channel.connected)
    (connected : k.world.connected = m.world.connected)
    (started : k.world.started = m.world.started) : Reticent m k :=
  ⟨updates, fun touch now =>
    ⟨watchers ▸ (touch (started ▸ now)).watches,
      by rw [connected, up, (touch (started ▸ now)).knows]⟩⟩

theorem of_world (channel : k.world.channel = m.world.channel)
    (connected : k.world.connected = m.world.connected)
    (started : k.world.started = m.world.started) : Reticent m k :=
  .of_watched (by unfold Coordinator.updates; rw [channel]) (by rw [channel]) (by rw [channel])
    connected started

theorem of_same (same : k.world = m.world) : Reticent m k :=
  .of_world (by rw [same]) (by rw [same]) (by rw [same])

end Reticent

theorem Silent.reticent (h : Silent m k) : Reticent m k := .of_world h.channel h.connected h.started

theorem sending_reticent {message : Message} (other : message.1 ≠ Channel.Event.updateSchema)
    (m : Coordinator) : Reticent m (sending message m) := by
  refine .of_watched ?_ rfl rfl rfl rfl
  change List.filter _ (m.world.channel.sent ++ [message]) = _
  have aside : [message].filter (fun message => message.1 = Channel.Event.updateSchema) = [] := by
    simp [other]
  rw [List.filter_append, aside, List.append_nil]
  rfl

theorem emit_reticent {message : Message} (other : message.1 ≠ Channel.Event.updateSchema)
    (m : Coordinator) : Reticent m (channelHost.emit message m).1 := by
  have answered := (emit_answered message m).reticent
  split at answered
  · exact (sending_reticent other m).trans answered
  · exact answered

theorem parse_reticent (text : Json) (m : Coordinator) : Reticent m (parse text m).1 := by
  unfold parse
  split
  · have requested : Reticent m (requesting text m) := .of_world rfl rfl rfl
    have other : (parseRequest text m).1 ≠ Channel.Event.updateSchema := by
      change Channel.Event.parse ≠ _
      decide
    have sent := requested.trans (emit_reticent other (requesting text m))
    rcases hk : channelHost.emit (parseRequest text m) (requesting text m) with ⟨k, f⟩
    rw [hk] at sent
    cases f <;> exact sent
  · exact .of_world rfl rfl rfl

theorem watch_world (up : Bool) (m : Coordinator) :
    (watch up m).1.world = { m.world with connected := up } := by
  unfold watch
  simp only
  split <;> rfl

theorem watchAll_world (up : Bool) (watchers : List Unit) (m : Coordinator) :
    (callAll (fun w => channelHost.watch w up) watchers m).1.world =
      { m.world with connected := if watchers = [] then m.world.connected else up } := by
  induction watchers generalizing m with
  | nil => rfl
  | cons w rest ih =>
    have told := watch_world up m
    change (callAll (fun w => channelHost.watch w up) rest (watch up m).1).1.world = _
    rw [ih, told]
    simp

theorem setConnected_reticent (up : Bool) (m : Coordinator) :
    Reticent m (channelHost.setConnected up m).1 := by
  unfold ChannelHost.setConnected
  simp only
  split
  · exact .refl m
  · generalize hk : channelHost.log _ _ = k
    have same : k.world = { m.world with channel := { m.world.channel with connected := up } } := by
      rw [← hk]
      rfl
    have told := watchAll_world up m.world.channel.watchers k
    rw [same] at told
    change Reticent m (callAll (fun w => channelHost.watch w up) m.world.channel.watchers k).1
    generalize (callAll (fun w => channelHost.watch w up) m.world.channel.watchers k).1 = n at told
    refine ⟨by unfold updates; rw [told], fun touch now => ?_⟩
    have started : m.world.started = true := (congrArg (·.started) told).symm.trans now
    have watches := (touch started).watches
    rw [if_neg watches] at told
    exact ⟨fun none => watches ((congrArg (·.channel.watchers) told).symm.trans none),
      (congrArg (·.connected) told).trans (congrArg (·.channel.connected) told).symm⟩

theorem start_reticent (m : Coordinator) : Reticent m (start m).1 := by
  unfold start
  split
  · exact .refl m
  · simp only
    generalize hc : ((m.world.channel.on Channel.Event.parsed .parsed).on
      Channel.Event.parseFailed .parseFailed).on Channel.Event.schemaUpdated .schemaUpdated = c
    have sent : c.sent = m.world.channel.sent := by
      rw [← hc]
      rfl
    have told : (channelHost.addWatcher () (m.withWorld { m.world with channel := c })).1.world =
        { m.world with
          channel := { c with watchers := c.watchers ++ [()] }, connected := c.connected } :=
      watch_world c.connected _
    rcases hk : channelHost.addWatcher () (m.withWorld { m.world with channel := c }) with ⟨k, f⟩
    rw [hk] at told
    have updated : updates k = updates m := by
      unfold updates
      rw [told, ← sent]
    have watches : k.world.channel.watchers ≠ [] := by
      rw [told]
      simp
    have knows : k.world.connected = k.world.channel.connected := by rw [told]
    cases f with
    | some f => exact ⟨updated, fun _ _ => ⟨watches, knows⟩⟩
    | none => exact ⟨updated, fun _ _ => ⟨watches, knows⟩⟩

theorem schedule_reticent (m : Coordinator) (o : Overrides) : Reticent m (m.schedule o) :=
  (schedule_silent m o).reticent

theorem moveTable_reticent (id position : Json) (m : Coordinator) :
    Reticent m (moveTable id position m).1 := by
  have moved (d : Diagram) : Reticent m (mapSession m (·.withDiagram d)) := .of_world rfl rfl rfl
  unfold moveTable
  cases (Diagram.moveTable id position).run (session m).diagram with
  | error f d => exact moved d
  | ok _ d => exact (moved d).trans (schedule_reticent _ {})

theorem postpone_reticent (members : List (String × Json)) (m : Coordinator) :
    Reticent m (postpone members m).1 := by
  unfold postpone
  cases checkOverrides members with
  | error f => exact .refl m
  | ok _ => exact schedule_reticent m _

theorem fill_reticent (id record : Json) (m : Coordinator) : Reticent m (fill id record m).1 := by
  unfold fill
  cases membersIn record with
  | error f => exact .refl m
  | ok members =>
    have titled : Reticent m (entitled id members m) := by
      unfold entitled
      split <;> exact .of_world rfl rfl rfl
    refine titled.trans ?_
    dsimp only
    unfold furnish
    split
    · cases drawnIn _ members with
      | error f => exact .refl _
      | ok r => exact .of_world rfl rfl rfl
    · split
      · have parsed := parse_reticent (textIn members) (entitled id members m)
        rcases hk : parse (textIn members) (entitled id members m) with ⟨k, r⟩
        rw [hk] at parsed
        cases r <;> exact parsed
      · exact .refl _

theorem Move.reticent {φ ψ : Phase} (h : Move φ m ψ k) : Reticent m k := by
  cases h with
  | fill t id reply => exact fill_reticent id _ m
  | load t id =>
    have same := cancel_world m
    exact .of_world (congrArg (·.channel) same) (congrArg (·.connected) same)
      (congrArg (·.started) same)
  | hear t call =>
    obtain ⟨-, -, _, _, same⟩ := hearing_same call m
    exact .of_world (by rw [same]; rfl) (by rw [same]; rfl) (by rw [same]; rfl)
  | release t =>
    have same := release_world m
    exact .of_world (by rw [same]) (by rw [same]) (by rw [same])
  | unsubscribe t =>
    unfold Coordinator.unsubscribe
    split
    · exact ⟨rfl, fun _ now => nomatch now⟩
    · exact .refl m
  | flush | cancel => exact .of_same (cancel_world m)
  | skip | leaveGroup | count | resume | dequeue | reply | note | notify | free | save | request
  | loading | fire | finish | sleep | join | gather | take | lineUp | drop | call | await
  | awaitLoad | refuse => exact .of_world rfl rfl rfl

theorem Moves.reticent {φ ψ : Phase} (h : Moves φ m ψ k) : Reticent m k := by
  induction h with
  | refl φ m => exact .refl m
  | last move => exact move.reticent
  | next move _ _ ih => exact move.reticent.trans ih

theorem perform_reticent (sound : Sound .idle m) {o : Operation} (other : ∀ e, o ≠ .edit e) :
    Reticent m (perform m o) := by
  cases o with
  | edit e => exact absurd rfl (other e)
  | start => exact start_reticent m
  | parse text => exact parse_reticent text m
  | deliver message => exact (deliver_silent message m).reticent
  | setConnected up => exact setConnected_reticent up m
  | moveTable id position => exact moveTable_reticent id position m
  | postpone members => exact postpone_reticent members m
  | spawn e => exact .of_world rfl rfl rfl
  | enter e =>
    have entered : Reticent m { m with loop := (m.loop.enter e.point).1 } := .of_world rfl rfl rfl
    exact entered.trans (enter_moves e sound.orderly.new).reticent
  | turn => exact (perform_turn sound).reticent
  | advance =>
    unfold perform
    cases m.loop.advance? with
    | none => exact .refl m
    | some l => exact .of_world rfl rfl rfl

end Reticent

section Schema

variable {m k : Coordinator} {φ ψ : Phase}

def Stance.isLoad : Stance → Bool
  | loads _ | fills _ _ => true
  | rests | begins _ | holds _ _ | calls _ => false

def NoLoad (φ : Phase) (m : Coordinator) : Prop := ∀ t s, Takes φ m t s → s.isLoad = false

theorem stanceOf_isLoad (p : Debounce.Point Point Wait) : (stanceOf p).isLoad = isLoad p := by
  cases p with
  | window _ | quiet _ | pause _ _ => rfl
  | own a => cases a <;> rfl

theorem Loadless.noLoad (calm : Loadless m) : NoLoad .idle m := by
  intro t s hs
  cases hs with
  | turn task => cases task
  | @place p _ stands stance =>
    subst stance
    rw [stanceOf_isLoad]
    unfold Loop.standing at stands
    cases found : m.loop.task? t with
    | none =>
      rw [found] at stands
      cases stands
    | some x =>
      rw [found] at stands
      obtain ⟨ended, rfl⟩ : x.outcome = none ∧ x.point = p := by simpa using stands
      exact calm x (List.mem_of_find?_eq_some found) ended

theorem NoLoad.phase {φ : Phase} (calm : NoLoad φ m) : φ.stance.isLoad = false := by
  cases task : φ.task? with
  | some t => exact calm t _ (.turn task rfl)
  | none => cases φ <;> first | rfl | cases task

theorem noLoad_kept : Kept (fun o => o.loads = false) NoLoad where
  talk := by
    intro o m k _ sound talk h t s hs
    rcases talk.takes sound hs with hs | rfl | ⟨_, _, rfl⟩
    · exact h t s hs
    · rfl
    · rfl
  spawn := by
    intro e m loadless sound h t s hs
    rcases takes_spawn sound hs with hs | rfl
    · exact h t s hs
    · cases e <;> first | rfl | cases loadless
  enter := by
    intro e m loadless sound h t s hs
    rcases takes_enter sound hs with hs | rfl
    · exact h t s hs
    · cases e <;> first | rfl | cases loadless
  advance := fun ha h t s hs => h t s (takes_advance ha hs)
  move := by
    intro φ m ψ k sound move h t s hs
    cases move.came sound hs with
    | stays hs => exact h t s hs
    | rests | fires => rfl
    | turns task turn =>
      have own := h t _ (.turn task rfl)
      generalize φ.stance = s' at turn own
      cases turn with
      | same => exact own
      | rest | flush | take | call => rfl
      | load id => cases own

theorem Move.schema (h : Move φ m ψ k) (calm : φ.stance.isLoad = false) :
    (session k).document.schema = (session m).document.schema := by
  cases h with
  | load | loading | fill | awaitLoad | refuse => cases calm
  | hear t call => exact congrArg (·.document.schema) (hearing_substance call m)
  | release t => exact congrArg (·.session.document.schema) (release_world m)
  | unsubscribe t =>
    obtain ⟨_, _, same⟩ := unsubscribe_world m
    exact congrArg (·.session.document.schema) same
  | flush | cancel => exact congrArg (·.session.document.schema) (cancel_world m)
  | skip | leaveGroup | count | resume | dequeue | reply | note | notify | free | save | request
  | fire | finish | sleep | join | gather | take | lineUp | drop | call | await => rfl

theorem Moves.schema (h : Moves φ m ψ k) (sound : Sound φ m) (calm : NoLoad φ m) :
    (session k).document.schema = (session m).document.schema := by
  induction h with
  | refl => rfl
  | last move => exact move.schema calm.phase
  | next move _ _ ih =>
    exact (ih (move.sound sound) (noLoad_kept.move sound move calm)).trans (move.schema calm.phase)

theorem perform_schema (sound : Sound .idle m) (calm : NoLoad .idle m) {o : Operation}
    (mute : o.mute = true) (other : ∀ e, o ≠ .edit e) :
    (session (perform m o)).document.schema = (session m).document.schema := by
  have scheduled (k : Coordinator) (ov : Overrides) :
      (session (k.schedule ov)).document.schema = (session k).document.schema :=
    congrArg (·.session.document.schema) (cancel_world k)
  cases o with
  | edit e => exact absurd rfl (other e)
  | parse | deliver => cases mute
  | start => exact (start_aside m).schema
  | setConnected up =>
    change (session (channelHost.setConnected up m).1).document.schema = _
    unfold ChannelHost.setConnected
    simp only
    split
    · rfl
    · exact congrArg (·.session.document.schema) (watchAll_world up m.world.channel.watchers _)
  | moveTable id position =>
    change (session (moveTable id position m).1).document.schema = _
    rcases moveTable_cases id position m with h | ⟨d, k, -, h, ends⟩
    · exact h.schema
    · rw [ends]
      exact (scheduled k {}).trans h.schema
  | postpone members =>
    change (session (postpone members m).1).document.schema = _
    unfold postpone
    cases checkOverrides members with
    | error f => rfl
    | ok _ => exact scheduled m _
  | spawn e => rfl
  | enter e =>
    exact (enter_moves e sound.orderly.new).schema (sound.enter e)
      (noLoad_kept.enter (Operation.loads_of_mute mute) sound calm)
  | turn => exact (perform_turn sound).schema sound calm
  | advance =>
    unfold perform
    cases m.loop.advance? <;> rfl

end Schema

section Runs

variable {m : Coordinator} {o : Operation} {operations : List Operation}

theorem committed_of_other (other : ∀ e, o ≠ .edit e) : committed m o = none := by
  cases o with
  | edit e => exact absurd rfl (other e)
  | start | parse _ | deliver _ | setConnected _ | moveTable _ _ | postpone _ | spawn _ | enter _
  | turn | advance => rfl

/-- A coordinator between two operations: it is in touch if it is started. -/
structure Attends (m : Coordinator) : Prop where
  sound : Sound .idle m
  touch : m.world.started = true → InTouch m

namespace Attends

theorem fresh (settings : Settings) (delay : Float) (start : Session)
    (channel : Channel Inbound Unit) (notifier : Notifier Unit) (backend : Backend) :
    Attends (fresh settings delay start channel notifier backend) :=
  ⟨sound_fresh .., fun now => nomatch now⟩

theorem perform (attends : Attends m) (o : Operation) : Attends (perform m o) := by
  refine ⟨attends.sound.perform o, ?_⟩
  by_cases edits : ∃ e, o = .edit e
  · obtain ⟨e, rfl⟩ := edits
    have emits := edit_emits e m
    exact fun now => emits.inTouch (attends.touch (emits.started ▸ now))
  · exact (perform_reticent attends.sound fun e he => edits ⟨e, he⟩).touch attends.touch

theorem performAll (attends : Attends m) (operations : List Operation) :
    Attends (performAll operations m) :=
  performAll_induction attends fun o _ _ h => h.perform o

/-- A schema that is committed while the channel is up is handed to the remote side, and no other. -/
theorem updates_perform (attends : Attends m) (started : m.world.started = true) (o : Operation) :
    updates (Coordinator.perform m o) = updates m ++
      (if m.world.channel.connected then (committed m o).toList else []).map update := by
  by_cases edits : ∃ e, o = .edit e
  · obtain ⟨e, rfl⟩ := edits
    have sent := congrArg (·.sent) (edit_emits e m).channel
    have told : ∀ schema, announcement m schema =
        if m.world.channel.connected then [update schema] else [] :=
      announcement_of_knows (attends.touch started).knows
    unfold updates
    rw [show (Coordinator.perform m (.edit e)).world.channel.sent = _ from sent, List.filter_append]
    congr 1
    cases committed m (.edit e) with
    | none => cases m.world.channel.connected <;> rfl
    | some schema =>
      rw [Option.toList_some, List.flatMap_singleton, told]
      cases m.world.channel.connected <;> rfl
  · have other : ∀ e, o ≠ .edit e := fun e he => edits ⟨e, he⟩
    rw [committed_of_other other, (perform_reticent attends.sound other).updates]
    simp

theorem updates_performAll (attends : Attends m)
    (started : Throughout (fun k _ => k.world.started = true) m operations) :
    updates (Coordinator.performAll operations m) =
      updates m ++ (commitsWhileUp m operations).map update := by
  induction operations generalizing m with
  | nil => exact (List.append_nil _).symm
  | cons o rest ih =>
    obtain ⟨now, later⟩ := throughout_cons.mp started
    calc updates (Coordinator.performAll (o :: rest) m)
        = updates (Coordinator.perform m o) ++
            (commitsWhileUp (Coordinator.perform m o) rest).map update := ih (attends.perform o) later
      _ = updates m ++ (commitsWhileUp m (o :: rest)).map update := by
        rw [attends.updates_perform now o, commitsWhileUp, List.map_append, List.append_assoc]

theorem schema_performAll (sound : Sound .idle m) (calm : NoLoad .idle m)
    (mute : ∀ o ∈ operations, o.mute = true) (retold : Throughout Retold m operations) :
    (session (Coordinator.performAll operations m)).document.schema =
      (commits m operations).getLast?.or (session m).document.schema := by
  induction operations generalizing m with
  | nil => rfl
  | cons o rest ih =>
    obtain ⟨now, later⟩ := throughout_cons.mp retold
    have own : o.mute = true := mute o List.mem_cons_self
    have step : (session (Coordinator.perform m o)).document.schema =
        (committed m o).or (session m).document.schema := by
      by_cases edits : ∃ e, o = .edit e
      · obtain ⟨e, rfl⟩ := edits
        cases passed : committed m (.edit e) with
        | none => exact (edit_unpassed passed).2.schema
        | some schema => exact ((handsOnOnce now).committed schema passed).2.2.2.1
      · have other : ∀ e, o ≠ .edit e := fun e he => edits ⟨e, he⟩
        rw [committed_of_other other]
        exact perform_schema sound calm own other
    have last : (committed m o).toList.getLast? = committed m o := by cases committed m o <;> rfl
    calc (session (Coordinator.performAll (o :: rest) m)).document.schema
        = (commits (Coordinator.perform m o) rest).getLast?.or
            (session (Coordinator.perform m o)).document.schema :=
          ih (sound.perform o) (noLoad_kept.perform (Operation.loads_of_mute own) sound calm)
            (fun p hp => mute p (List.mem_cons_of_mem o hp)) later
      _ = (commits m (o :: rest)).getLast?.or (session m).document.schema := by
        rw [step, commits, List.getLast?_append, last, Option.or_assoc]

end Attends

/-- What a started coordinator does with commits, after any history and whatever else happens in the
    run. The remote side is handed the schemas that are committed while the channel is up, each once and
    in order. An edit that does not commit hands nothing on; the schema of one that does is saved at once,
    unless the call fails over an answer. If the remote side answers with readable text, no such call fails,
    and the only task that it makes is that save. Between edits the latest schema then stays. -/
theorem commits_propagate (settings : Settings) (delay : Float) (start : Session)
    (channel : Channel Inbound Unit) (notifier : Notifier Unit) (backend : Backend)
    (earlier operations : List Operation) :
    let m := performAll earlier (fresh settings delay start channel notifier backend)
    Throughout (fun k _ => k.world.started = true) m operations →
    updates (performAll operations m) = updates m ++ (commitsWhileUp m operations).map update ∧
    Throughout (fun k o => ∀ e, o = .edit e → HandsOn k e) m operations ∧
    (Throughout Retold m operations →
      Throughout (fun k o => ∀ e, o = .edit e → HandsOnOnce k e) m operations ∧
      (Loadless m → (∀ o ∈ operations, o.mute = true) →
        (session (performAll operations m)).document.schema =
          (commits m operations).getLast?.or (session m).document.schema)) := by
  intro m started
  have attends : Attends m := (Attends.fresh settings delay start channel notifier backend).performAll earlier
  refine ⟨attends.updates_performAll started, fun passed o part e _ => ?_, fun retold => ⟨?_, ?_⟩⟩
  · exact handsOn ((attends.performAll passed).touch (started passed o part)).knows e
  · rintro passed o part e rfl
    exact handsOnOnce (retold passed _ part)
  · exact fun calm mute => Attends.schema_performAll attends.sound calm.noLoad mute retold

def answering (payload : Json) : Peer :=
  [(Channel.Event.updateSchema, [{ event := Channel.Event.schemaUpdated, payload := payload }])]

def offAndOn : List Operation :=
  [.edit (.addTable .null), .setConnected false, .edit (.addTable .null), .turn,
    .setConnected true, .edit (.renameTable (.str "table_2") (.str "new_table_1")), .turn]

def startedWith (peer : Peer) : Coordinator :=
  performAll [.start] (fresh {} 1.0 {} { peer := peer } { capacity := 50 } {})

theorem commits_propagate_off_and_on :
    let m := startedWith (answering (.obj [("dbmlText", .str "Table table_1")]))
    Throughout (fun k _ => k.world.started = true) m offAndOn ∧ Throughout Retold m offAndOn ∧
      (commits m offAndOn).length = 2 ∧ (commitsWhileUp m offAndOn).length = 1 ∧
      updates (performAll offAndOn m) = updates m ++ (commitsWhileUp m offAndOn).map update ∧
      (session (performAll offAndOn m)).document.schema =
        (commits m offAndOn).getLast?.or (session m).document.schema := by
  have propagate := commits_propagate {} 1.0 {}
    { peer := answering (.obj [("dbmlText", .str "Table table_1")]) } { capacity := 50 } {} [.start]
    offAndOn
  dsimp only at propagate ⊢
  generalize hm : startedWith (answering (.obj [("dbmlText", .str "Table table_1")])) = m
  have same : performAll [.start] (fresh {} 1.0 {}
      { peer := answering (.obj [("dbmlText", .str "Table table_1")]) } { capacity := 50 } {}) = m := hm
  rw [same] at propagate
  have started : Throughout (fun k _ => k.world.started = true) m offAndOn := by
    rw [← hm]
    decide +kernel
  have retold : Throughout Retold m offAndOn := by
    rw [← hm]
    decide +kernel
  have counts : (commits m offAndOn).length = 2 ∧ (commitsWhileUp m offAndOn).length = 1 := by
    rw [← hm]
    decide +kernel
  have calm : Loadless m := by
    rw [← hm]
    decide +kernel
  obtain ⟨told, -, rest⟩ := propagate started
  exact ⟨started, retold, counts.1, counts.2, told, (rest retold).2 calm (by decide)⟩

/-- The answer to a commit is refused, for want of a message in an error that it tells of. The call fails,
    and the schema that has been handed to the remote side is not saved. -/
theorem refused_answer_drops_save :
    let m := startedWith (answering (.obj [("errors", .arr [.obj []])]))
    let e : Edit := .addTable .null
    (committed m (.edit e)).isSome = true ∧ updates (edit e m).1 ≠ [] ∧
      (edit e m).2.isOk = false ∧ savesOf (edit e m).1.loop = [] := by
  decide +kernel

end Runs

end Coordinator

end SchemaDiagram.Sync
