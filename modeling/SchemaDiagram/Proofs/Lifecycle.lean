import SchemaDiagram.Proofs.Propagation
import SchemaDiagram.Proofs.SaveTurns

/-!
What a coordinator and its channel know of each other. Starting subscribes to each kind of message once
and watches the connection, closing takes that back, and nothing else touches the subscriptions; so they
never double and none is left behind. Parse requests are numbered as they are sent, because a
coordinator that is started asks for nothing while the channel is down.
-/

set_option autoImplicit false

namespace SchemaDiagram

namespace Channel

variable {H W : Type}

theorem handlersOf_mapHandlers (c : Channel H W) (event e : String) (f : List H → List H) :
    ({ c with handlers := mapHandlers event f c.handlers } : Channel H W).handlersOf e =
      if e = event then f (c.handlersOf event) else c.handlersOf e := by
  unfold handlersOf
  dsimp only
  induction c.handlers with
  | nil =>
    by_cases he : e = event
    · simp [mapHandlers, he]
    · simp [mapHandlers, he, Ne.symm he]
  | cons p rest ih =>
    obtain ⟨x, hs⟩ := p
    unfold mapHandlers
    by_cases hx : x = event
    · subst hx
      by_cases he : x = e
      · simp [he]
      · simp [he, Ne.symm he]
    · rw [if_neg hx, List.find?_cons, List.find?_cons]
      by_cases he : x = e
      · subst he
        simp [hx]
      · simpa [he, hx] using ih

theorem handlersOf_on (c : Channel H W) (event e : String) (h : H) :
    (c.on event h).handlersOf e =
      if e = event then c.handlersOf event ++ [h] else c.handlersOf e :=
  handlersOf_mapHandlers c event e (· ++ [h])

theorem handlersOf_off [DecidableEq H] (c : Channel H W) (event e : String) (h : H) :
    (c.off event h).handlersOf e =
      if e = event then (c.handlersOf event).erase h else c.handlersOf e :=
  handlersOf_mapHandlers c event e (·.erase h)

end Channel

namespace Sync

def Inbound.event : Inbound → String
  | parsed => Channel.Event.parsed
  | parseFailed => Channel.Event.parseFailed
  | schemaUpdated => Channel.Event.schemaUpdated

def Operation.parses : Operation → Bool
  | .parse _ => true
  | _ => false

namespace Coordinator

/-- The parse requests that have been sent. -/
def parseRequests (m : Coordinator) : List Message :=
  m.world.channel.sent.filter fun message => message.1 = Channel.Event.parse

/-- A coordinator and its channel fit together: each kind of message has the one handler and the
    connection the one watcher while the coordinator is started, and none while it is closed. -/
structure Linked (m : Coordinator) : Prop where
  handlers : ∀ kind : Inbound,
    m.world.channel.handlersOf kind.event = if m.world.started then [kind] else []
  watchers : m.world.channel.watchers = if m.world.started then [()] else []
  knows : m.world.started = true → m.world.connected = m.world.channel.connected
  numbered : (parseRequests m).map (fun message => message.2.get "version") =
    (List.range m.world.parseSent).map fun i => .int (i + 1 : Nat)
  silent : m.world.channel.peer = []

/-- What leaves the link between a coordinator and its channel as it is. -/
structure KeepsLink (m k : Coordinator) : Prop where
  handlers : k.world.channel.handlers = m.world.channel.handlers
  watchers : k.world.channel.watchers = m.world.channel.watchers
  up : k.world.channel.connected = m.world.channel.connected
  peer : k.world.channel.peer = m.world.channel.peer
  connected : k.world.connected = m.world.connected
  started : k.world.started = m.world.started
  parseSent : k.world.parseSent = m.world.parseSent
  requests : parseRequests k = parseRequests m

section Link

variable {m k n : Coordinator}

namespace KeepsLink

theorem of_world (channel : k.world.channel = m.world.channel)
    (connected : k.world.connected = m.world.connected)
    (started : k.world.started = m.world.started)
    (parseSent : k.world.parseSent = m.world.parseSent) : KeepsLink m k :=
  ⟨by rw [channel], by rw [channel], by rw [channel], by rw [channel], connected, started, parseSent,
    by rw [parseRequests, channel, parseRequests]⟩

theorem of_same (same : k.world = m.world) : KeepsLink m k :=
  .of_world (by rw [same]) (by rw [same]) (by rw [same]) (by rw [same])

theorem refl (m : Coordinator) : KeepsLink m m := .of_same rfl

theorem trans (h : KeepsLink m k) (h' : KeepsLink k n) : KeepsLink m n where
  handlers := h'.handlers.trans h.handlers
  watchers := h'.watchers.trans h.watchers
  up := h'.up.trans h.up
  peer := h'.peer.trans h.peer
  connected := h'.connected.trans h.connected
  started := h'.started.trans h.started
  parseSent := h'.parseSent.trans h.parseSent
  requests := h'.requests.trans h.requests

end KeepsLink

theorem Silent.keepsLink (h : Silent m k) : KeepsLink m k :=
  .of_world h.channel h.connected h.started h.parseSent

theorem Linked.keep (h : Linked m) (keeps : KeepsLink m k) : Linked k where
  handlers kind := by
    have same : k.world.channel.handlersOf kind.event = m.world.channel.handlersOf kind.event := by
      rw [Channel.handlersOf, keeps.handlers, Channel.handlersOf]
    rw [same, keeps.started]
    exact h.handlers kind
  watchers := by rw [keeps.watchers, keeps.started, h.watchers]
  knows started := by rw [keeps.connected, keeps.up, h.knows (keeps.started ▸ started)]
  numbered := by rw [keeps.requests, keeps.parseSent, h.numbered]
  silent := keeps.peer.trans h.silent

theorem sending_keepsLink {message : Message} (other : message.1 ≠ Channel.Event.parse)
    (m : Coordinator) : KeepsLink m (sending message m) := by
  refine ⟨rfl, rfl, rfl, rfl, rfl, rfl, rfl, ?_⟩
  change List.filter _ (m.world.channel.sent ++ [message]) = _
  rw [List.filter_append]
  simp [other, parseRequests]

theorem edit_keepsLink (e : Edit) (m : Coordinator) : KeepsLink m (edit e m).1 := by
  cases passed : committed m (.edit e) with
  | none => exact (edit_unpassed passed).1.keepsLink
  | some schema =>
    obtain ⟨k, id, silent, -, -, eq⟩ := edit_passed passed
    have superseded : KeepsLink m (superseding schema k) :=
      silent.keepsLink.trans (.of_world rfl rfl rfl rfl)
    have told : KeepsLink m (tell schema (superseding schema k)).1 := by
      refine superseded.trans ?_
      unfold tell
      split
      · have answered := (emit_answered (update schema) (superseding schema k)).keepsLink
        split at answered
        · have other : (update schema).1 ≠ Channel.Event.parse := by
            change Channel.Event.updateSchema ≠ _
            decide
          exact (sending_keepsLink other _).trans answered
        · exact answered
      · exact .refl _
    rw [eq]
    rcases hk : tell schema (superseding schema k) with ⟨n, f⟩
    rw [hk] at told
    cases f with
    | some f => exact told
    | none =>
      have spawned : KeepsLink n (spawning schema n) := .of_same rfl
      exact (told.trans spawned).trans (settle_silent e _).keepsLink

theorem schedule_keepsLink (m : Coordinator) (o : Overrides) : KeepsLink m (m.schedule o) :=
  .of_same (cancel_world m)

theorem moveTable_keepsLink (id position : Json) (m : Coordinator) :
    KeepsLink m (moveTable id position m).1 := by
  have moved (d : Diagram) : KeepsLink m (mapSession m (·.withDiagram d)) := .of_world rfl rfl rfl rfl
  unfold moveTable
  cases (Diagram.moveTable id position).run (session m).diagram with
  | error f d => exact moved d
  | ok _ d => exact (moved d).trans (schedule_keepsLink _ {})

theorem postpone_keepsLink (members : List (String × Json)) (m : Coordinator) :
    KeepsLink m (postpone members m).1 := by
  unfold postpone
  cases checkOverrides members with
  | error f => exact .refl m
  | ok _ => exact schedule_keepsLink m _

theorem start_world (m : Coordinator) (closed : m.world.started = false) :
    (start m).1.world = { m.world with
      channel := { ((m.world.channel.on Channel.Event.parsed .parsed).on
        Channel.Event.parseFailed .parseFailed).on Channel.Event.schemaUpdated .schemaUpdated with
          watchers := m.world.channel.watchers ++ [()] }
      connected := m.world.channel.connected
      started := true } := by
  unfold start
  split
  · rename_i now
    cases closed.symm.trans now
  simp only
  generalize hc : ((m.world.channel.on Channel.Event.parsed .parsed).on
    Channel.Event.parseFailed .parseFailed).on Channel.Event.schemaUpdated .schemaUpdated = c
  have told : (channelHost.addWatcher () (m.withWorld { m.world with channel := c })).1.world =
      { m.world with
        channel := { c with watchers := c.watchers ++ [()] }, connected := c.connected } :=
    watch_world c.connected _
  have heard : (channelHost.addWatcher () (m.withWorld { m.world with channel := c })).2 = none := rfl
  have kept : c.watchers = m.world.channel.watchers ∧ c.connected = m.world.channel.connected := by
    rw [← hc]
    exact ⟨rfl, rfl⟩
  rcases hk : channelHost.addWatcher () (m.withWorld { m.world with channel := c }) with ⟨k, f⟩
  rw [hk] at told heard
  cases heard
  change { k.world with started := true } = _
  rw [told, kept.1, kept.2]

theorem handlersOf_subscribed (c : Channel Inbound Unit) (kind : Inbound) :
    (((c.on Channel.Event.parsed .parsed).on Channel.Event.parseFailed .parseFailed).on
      Channel.Event.schemaUpdated .schemaUpdated).handlersOf kind.event =
        c.handlersOf kind.event ++ [kind] := by
  cases kind <;>
    simp [Channel.handlersOf_on, Inbound.event, Channel.Event.parsed, Channel.Event.parseFailed,
      Channel.Event.schemaUpdated]

theorem handlersOf_unsubscribed (c : Channel Inbound Unit) (kind : Inbound) :
    (((c.off Channel.Event.parsed .parsed).off Channel.Event.parseFailed .parseFailed).off
      Channel.Event.schemaUpdated .schemaUpdated).handlersOf kind.event =
        (c.handlersOf kind.event).erase kind := by
  cases kind <;>
    simp [Channel.handlersOf_off, Inbound.event, Channel.Event.parsed, Channel.Event.parseFailed,
      Channel.Event.schemaUpdated]

theorem Linked.relink (h : Linked m) (sent : k.world.channel.sent = m.world.channel.sent)
    (parseSent : k.world.parseSent = m.world.parseSent)
    (peer : k.world.channel.peer = m.world.channel.peer)
    (handlers : ∀ kind : Inbound,
      k.world.channel.handlersOf kind.event = if k.world.started then [kind] else [])
    (watchers : k.world.channel.watchers = if k.world.started then [()] else [])
    (knows : k.world.started = true → k.world.connected = k.world.channel.connected) : Linked k := by
  have requests : parseRequests k = parseRequests m := by
    rw [parseRequests, sent, parseRequests]
  refine ⟨handlers, watchers, knows, ?_, peer.trans h.silent⟩
  rw [requests, parseSent]
  exact h.numbered

theorem start_linked (h : Linked m) : Linked (start m).1 := by
  cases now : m.world.started with
  | true =>
    have same : (start m).1 = m := by
      unfold start
      rw [if_pos now]
    rwa [same]
  | false =>
    have world := start_world m now
    refine h.relink (by rw [world]; rfl) (by rw [world]) (by rw [world]; rfl) (fun kind => ?_) ?_
      fun _ => by rw [world]; rfl
    · rw [world]
      refine (handlersOf_subscribed m.world.channel kind).trans ?_
      rw [h.handlers kind, now]
      rfl
    · rw [world]
      change m.world.channel.watchers ++ [()] = _
      rw [h.watchers, now]
      rfl

theorem unsubscribe_eq (m : Coordinator) (started : m.world.started = true) :
    (unsubscribe m).world = { m.world with
      channel := { ((m.world.channel.off Channel.Event.parsed .parsed).off
        Channel.Event.parseFailed .parseFailed).off Channel.Event.schemaUpdated .schemaUpdated with
          watchers := m.world.channel.watchers.erase () }
      started := false } := by
  unfold unsubscribe
  rw [if_pos started]
  rfl

theorem unsubscribe_linked (h : Linked m) : Linked (unsubscribe m) := by
  cases now : m.world.started with
  | false =>
    have same : unsubscribe m = m := by
      unfold unsubscribe
      rw [if_neg (by simp [now])]
    rwa [same]
  | true =>
    have world := unsubscribe_eq m now
    refine h.relink (by rw [world]; rfl) (by rw [world]) (by rw [world]; rfl) (fun kind => ?_) ?_
      fun started => ?_
    · rw [world]
      refine (handlersOf_unsubscribed m.world.channel kind).trans ?_
      rw [h.handlers kind, now, if_pos rfl, List.erase_cons_head]
      rfl
    · rw [world]
      change m.world.channel.watchers.erase () = _
      rw [h.watchers, now]
      rfl
    · rw [world] at started
      cases started

theorem setConnected_linked (h : Linked m) (up : Bool) :
    Linked (channelHost.setConnected up m).1 := by
  unfold ChannelHost.setConnected
  simp only
  split
  · exact h
  · generalize hk : channelHost.log _ _ = k
    have same : k.world = { m.world with channel := { m.world.channel with connected := up } } := by
      rw [← hk]
      rfl
    have told := watchAll_world up m.world.channel.watchers k
    rw [same] at told
    change Linked (callAll (fun w => channelHost.watch w up) m.world.channel.watchers k).1
    generalize (callAll (fun w => channelHost.watch w up) m.world.channel.watchers k).1 = n at told
    refine h.relink (by rw [told]) (by rw [told]) (by rw [told]) (fun kind => ?_) ?_ fun started => ?_
    · rw [told]
      exact h.handlers kind
    · rw [told]
      exact h.watchers
    · rw [told] at started ⊢
      have watches : m.world.channel.watchers ≠ [] := by
        rw [h.watchers, if_pos started]
        nofun
      exact if_neg watches

theorem parse_linked_eq (h : Linked m) (started : m.world.started = true) (text : Json) :
    parse text m =
      if m.world.channel.connected then (sending (parseRequest text m) (requesting text m), .ok true)
      else (logs m .warning "Channel not connected, cannot parse schema text", .ok false) := by
  unfold parse
  rw [h.knows started]
  split
  · rename_i up
    have silent : (requesting text m).world.channel.answers (parseRequest text m).1
        (parseRequest text m).2 = [] := by
      unfold Channel.answers
      rw [show (requesting text m).world.channel.peer = [] from h.silent]
      rfl
    have emitted : channelHost.emit (parseRequest text m) (requesting text m) =
        (sending (parseRequest text m) (requesting text m), none) := by
      rw [emit_eq, if_pos (show (requesting text m).world.channel.connected = true from up), silent]
      rfl
    rw [emitted]
  · rfl

theorem parse_linked (h : Linked m) (started : m.world.started = true) (text : Json) :
    Linked (parse text m).1 := by
  rw [parse_linked_eq h started]
  split
  · refine ⟨h.handlers, h.watchers, h.knows, ?_, h.silent⟩
    have requests : parseRequests (sending (parseRequest text m) (requesting text m)) =
        parseRequests m ++ [parseRequest text m] := by
      change List.filter _ (m.world.channel.sent ++ [parseRequest text m]) = _
      rw [List.filter_append]
      rfl
    have number : (parseRequest text m).2.get "version" = .int (m.world.parseSent + 1 : Nat) := rfl
    change _ = (List.range (m.world.parseSent + 1)).map _
    rw [requests, List.map_append, h.numbered, List.range_succ, List.map_append, List.map_singleton,
      number, List.map_singleton]
  · exact h.keep (.of_world rfl rfl rfl rfl)

theorem Move.linked {φ ψ : Phase} (move : Move φ m ψ k) (calm : φ.stance.isLoad = false)
    (h : Linked m) : Linked k := by
  cases move with
  | load | loading | fill | awaitLoad | refuse => cases calm
  | hear t call =>
    obtain ⟨-, -, _, _, same⟩ := hearing_same call m
    exact h.keep (.of_world (by rw [same]; rfl) (by rw [same]; rfl) (by rw [same]; rfl)
      (by rw [same]; rfl))
  | release t =>
    have same := release_world m
    exact h.keep (.of_world (by rw [same]) (by rw [same]) (by rw [same]) (by rw [same]))
  | unsubscribe t => exact unsubscribe_linked h
  | flush | cancel => exact h.keep (.of_same (cancel_world m))
  | skip | leaveGroup | count | resume | dequeue | reply | note | notify | free | save | request
  | fire | finish | sleep | join | gather | take | lineUp | drop | call | await =>
    exact h.keep (.of_world rfl rfl rfl rfl)

theorem Moves.linked {φ ψ : Phase} (moves : Moves φ m ψ k) (sound : Sound φ m) (calm : NoLoad φ m)
    (h : Linked m) : Linked k := by
  induction moves with
  | refl => exact h
  | last move => exact move.linked calm.phase h
  | next move _ _ ih =>
    exact ih (move.sound sound) (noLoad_kept.move sound move calm) (move.linked calm.phase h)

theorem Linked.perform (h : Linked m) (sound : Sound .idle m) (calm : NoLoad .idle m) {o : Operation}
    (loadless : o.loads = false) (asks : o.parses = true → m.world.started = true) :
    Linked (perform m o) := by
  cases o with
  | start => exact start_linked h
  | parse text => exact parse_linked h (asks rfl) text
  | deliver message => exact h.keep (deliver_silent message m).keepsLink
  | setConnected up => exact setConnected_linked h up
  | edit e => exact h.keep (edit_keepsLink e m)
  | moveTable id position => exact h.keep (moveTable_keepsLink id position m)
  | postpone members => exact h.keep (postpone_keepsLink members m)
  | spawn e => exact h.keep (.of_same rfl)
  | enter e =>
    exact (enter_moves e sound.orderly.new).linked (sound.enter e)
      (noLoad_kept.enter loadless sound calm) (h.keep (.of_same rfl))
  | turn => exact (perform_turn sound).linked sound calm h
  | advance =>
    unfold Coordinator.perform
    cases m.loop.advance? with
    | none => exact h
    | some l => exact h.keep (.of_same rfl)

/-- Texts are given to be parsed only while the coordinator is started. -/
def AsksStarted (m : Coordinator) (operations : List Operation) : Prop :=
  Throughout (fun n o => o.parses = true → n.world.started = true) m operations

instance (m : Coordinator) (operations : List Operation) : Decidable (AsksStarted m operations) :=
  decideThroughout operations m

theorem Linked.performAll {operations : List Operation} (h : Linked m) (sound : Sound .idle m)
    (calm : NoLoad .idle m) (loadless : ∀ o ∈ operations, o.loads = false)
    (asks : AsksStarted m operations) : Linked (performAll operations m) := by
  induction operations using List.reverseRecOn with
  | nil => exact h
  | append_singleton passed o ih =>
    have before : ∀ o ∈ passed, o.loads = false := fun o ho => loadless o (List.mem_append_left _ ho)
    rw [performAll_append]
    exact (ih before (asks.earlier (List.prefix_append _ _))).perform (sound.performAll passed)
      (noLoad_kept.performAll before sound calm) (loadless o (by simp)) asks.last

theorem linked_fresh (settings : Settings) (delay : Float) (start : Session) (up : Bool)
    (notifier : Notifier Unit) (backend : Backend) :
    Linked (fresh settings delay start { connected := up } notifier backend) :=
  ⟨fun _ => rfl, rfl, nofun, rfl, rfl⟩

theorem Linked.deliver (h : Linked m) (kind : Inbound) (payload : Json) :
    channelHost.deliver (kind.event, payload) m =
      if m.world.started then handle kind payload m else (m, none) := by
  change callAll (fun kind => handle kind payload) (m.world.channel.handlersOf kind.event) m = _
  rw [h.handlers kind]
  cases m.world.started with
  | false => rfl
  | true =>
    change callAll (fun kind => handle kind payload) [kind] m = handle kind payload m
    unfold callAll
    rcases handle kind payload m with ⟨k, f⟩
    cases f <;> rfl

/-- A text is taken just when one request for it has been sent, and else nothing has happened. -/
theorem Linked.parse (h : Linked m) (started : m.world.started = true) (text : Json) :
    ((parse text m).2 = .ok true ↔ ∃ request : Json, request.get "dbmlText" = text ∧
        (parse text m).1.world.channel.sent =
          m.world.channel.sent ++ [(Channel.Event.parse, request)]) ∧
      ((parse text m).2 ≠ .ok true → (parse text m).2 = .ok false ∧
        (parse text m).1 = logs m .warning "Channel not connected, cannot parse schema text") := by
  rw [parse_linked_eq h started]
  cases m.world.channel.connected with
  | true =>
    exact ⟨⟨fun _ => ⟨(parseRequest text m).2, rfl, rfl⟩, fun _ => rfl⟩, fun other => absurd rfl other⟩
  | false =>
    refine ⟨⟨nofun, fun ⟨request, _, sent⟩ => ?_⟩, fun _ => ⟨rfl, rfl⟩⟩
    have longer := congrArg List.length sent
    rw [List.length_append] at longer
    exact absurd longer (Nat.ne_of_lt (Nat.lt_succ_self _))

theorem started_start (m : Coordinator) : (start m).1.world.started = true := by
  cases now : m.world.started with
  | true =>
    unfold start
    rw [if_pos now, now]
  | false => rw [start_world m now]

theorem started_close (m : Coordinator) : (perform m (.enter .close)).world.started = false := by
  let n : Coordinator := { m with loop := (m.loop.enter Errand.close.point).1 }
  have world : (perform m (.enter .close)).world = (unsubscribe n).world :=
    (awaitQuiet_rests .close (unsubscribe n).cancel).world.trans (cancel_world _)
  rw [world]
  cases now : n.world.started with
  | true => rw [unsubscribe_eq n now]
  | false =>
    unfold unsubscribe
    rw [if_neg (by simp [now]), now]

end Link

/-- A coordinator is started by its start and closed by its close. In every run without loads in which
    texts are given to be parsed only while it is started, a message of each kind is handled once while
    it is started and not at all while it is closed; while it is started it knows whether the channel is
    up, and takes a text to be parsed just when one request for it is sent; and requests are numbered in
    the order in which they are sent. -/
theorem lifecycle_mirrored (settings : Settings) (delay : Float) (session : Session) (up : Bool)
    (notifier : Notifier Unit) (backend : Backend) (operations : List Operation) :
    let m₀ := fresh settings delay session { connected := up } notifier backend
    let m := performAll operations m₀
    (∀ o ∈ operations, o.loads = false) → AsksStarted m₀ operations →
    (perform m .start).world.started = true ∧ (perform m (.enter .close)).world.started = false ∧
      (∀ kind payload, channelHost.deliver (Inbound.event kind, payload) m =
        if m.world.started then handle kind payload m else (m, none)) ∧
      (m.world.started = true → m.world.connected = m.world.channel.connected ∧ ∀ text,
        ((parse text m).2 = .ok true ↔ ∃ request : Json, request.get "dbmlText" = text ∧
          (parse text m).1.world.channel.sent =
            m.world.channel.sent ++ [(Channel.Event.parse, request)]) ∧
        ((parse text m).2 ≠ .ok true → (parse text m).2 = .ok false ∧
          (parse text m).1 = logs m .warning "Channel not connected, cannot parse schema text")) ∧
      (parseRequests m).map (fun message => message.2.get "version") =
        (List.range (parseRequests m).length).map fun i => .int (i + 1 : Nat) := by
  intro m₀ m loadless asks
  have linked : Linked m :=
    (linked_fresh settings delay session up notifier backend).performAll (sound_fresh ..)
      (fun _ _ hs => (not_takes_fresh hs).elim) loadless asks
  have count : (parseRequests m).length = m.world.parseSent := by
    simpa using congrArg List.length linked.numbered
  refine ⟨started_start m, started_close m, linked.deliver, fun started =>
    ⟨linked.knows started, linked.parse started⟩, ?_⟩
  rw [count]
  exact linked.numbered

def onAndOff : List Operation :=
  [.start, .start, .parse (.str "a"), .setConnected false, .parse (.str "b"), .enter .close,
    .deliver (Channel.Event.parseFailed, .null), .setConnected true, .start, .parse (.str "c")]

theorem lifecycle_mirrored_on_and_off :
    let m₀ := fresh {} 1.0 {} { connected := true } { capacity := 50 } {}
    let m := performAll onAndOff m₀
    (∀ o ∈ onAndOff, o.loads = false) ∧ AsksStarted m₀ onAndOff ∧
      m.world.started = true ∧ m.world.connected = m.world.channel.connected ∧
      (∀ payload, channelHost.deliver (Channel.Event.parseFailed, payload) m =
        handle .parseFailed payload m) ∧
      (parseRequests m).map (fun message => message.2.get "version") = [.int 1, .int 2] := by
  have calm : ∀ o ∈ onAndOff, o.loads = false := by decide
  have asks : AsksStarted (fresh {} 1.0 {} { connected := true } { capacity := 50 } {}) onAndOff := by
    decide +kernel
  have mirrored := lifecycle_mirrored {} 1.0 {} true { capacity := 50 } {} onAndOff calm asks
  dsimp only at mirrored ⊢
  obtain ⟨-, -, once, known, numbered⟩ := mirrored
  have started : (performAll onAndOff
      (fresh {} 1.0 {} { connected := true } { capacity := 50 } {})).world.started = true := by
    decide +kernel
  have two : (parseRequests (performAll onAndOff
      (fresh {} 1.0 {} { connected := true } { capacity := 50 } {}))).length = 2 := by
    decide +kernel
  rw [two] at numbered
  refine ⟨calm, asks, started, (known started).1, fun payload => ?_, numbered⟩
  exact (once .parseFailed payload).trans (if_pos started)

end Coordinator

end Sync

end SchemaDiagram
