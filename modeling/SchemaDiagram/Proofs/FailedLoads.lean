import SchemaDiagram.Proofs.Loads

/-!
What a load leaves when it fails. From its start to its reply the session is blank, and it stays so when
the backend refuses or when the reply is no record. But a record fills the session part by part: its
text and its id are taken over before its schema has been read, and stay when that cannot be drawn.
-/

set_option autoImplicit false

namespace SchemaDiagram.Sync.Coordinator

/-- Nobody but one task is at work: whoever else is there times a window. -/
def Alone (m : Coordinator) (t : TaskId) : Prop :=
  ∀ u p, u ≠ t → m.loop.standing u = some p → ∃ begun, p = .window begun

def titled (id : Json) (members : List (String × Json)) : Session :=
  if id.truthy then
    (Session.withText {} (textIn members)).withDiagramId ((member members "_id").orElse id)
  else Session.withText {} (textIn members)

/-- The coordinator that takes the reply to a load in an operation. -/
def taker? (m : Coordinator) (o : Operation) : Option Coordinator :=
  match resumed? m o with
  | some (.own (.load id), n) => if (loadReply n).delay = none then some (blanking id n) else none
  | some (.own (.loading _ _), n) => some n
  | _ => none

/-- The sessions that loads leave when they fail, by the answer of the backend and by the coordinator that
    takes the reply. -/
inductive FailsWith (grid : Grid) (peer : Peer) (id : Json) (n : Coordinator) :
    Result Json → Session → Prop where
  | refused (f : Fault) : FailsWith grid peer id n (.error f) {}
  /-- The reply is no record. -/
  | shapeless {record : Json} {f : Fault} (shape : membersIn record = .error f) :
      FailsWith grid peer id n (.ok record) {}
  /-- The record has a schema, but that cannot be drawn. -/
  | undrawn {record : Json} {members : List (String × Json)} {f : Fault}
      (shape : membersIn record = .ok members) (given : (member members "ast").truthy = true)
      (fails : drawnIn grid members = .error f) :
      FailsWith grid peer id n (.ok record) (titled id members)
  /-- The record has a text only, which is taken over and sent to be parsed, and the peer's answer to that
      request is refused. -/
  | unparsed {record : Json} {members : List (String × Json)} {f : Fault}
      (shape : membersIn record = .ok members) (plain : (member members "ast").truthy = false)
      (answers : peer ≠ []) (blank : session (entitled id members n) = titled id members)
      (fails : (parse (textIn members) (entitled id members n)).2 = .error f) :
      FailsWith grid peer id n (.ok record)
        (session (parse (textIn members) (entitled id members n)).1)

/-- A load is about to take a reply into a blank session. -/
structure AtReply (grid : Grid) (peer : Peer) (id : Json) (reply : Reply) (answer : Result Json)
    (m : Coordinator) : Prop where
  blank : session m = {}
  grid : m.world.settings.grid = grid
  peer : m.world.channel.peer = peer
  answer : loaded id reply m = answer

structure WaitsAlone (grid : Grid) (peer : Peer) (t : TaskId) (id : Json) (reply : Reply)
    (answer : Result Json) (m : Coordinator) : Prop extends AtReply grid peer id reply answer m where
  sound : Sound .idle m
  stands : m.loop.standing t = some (.own (.loading id reply))
  alone : Alone m t
  unpending : m.debouncer.pending = none

/-- A load has just taken its reply. -/
inductive Replied (grid : Grid) (peer : Peer) (t : TaskId) (id : Json) (reply : Reply)
    (answer : Result Json) (taker : Option Coordinator) (k : Coordinator) : Prop where
  | of_reply {φ : Phase} {n : Coordinator} {p : Debounce.Point Point Wait} (takes : taker = some n)
      (atReply : AtReply grid peer id reply answer n) (sound : Sound φ n)
      (stands : n.loop.standing t = some p) (received : k = receiveLoad t id reply n)

section Fill

variable {grid : Grid} {peer : Peer} {id : Json} {reply : Reply} {answer : Result Json}
  {m n k : Coordinator} {t u : TaskId}

theorem AtReply.of_world (h : AtReply grid peer id reply answer m) (same : k.world = m.world) :
    AtReply grid peer id reply answer k where
  blank := (congrArg (·.session) same).trans h.blank
  grid := (congrArg (·.settings.grid) same).trans h.grid
  peer := (congrArg (·.channel.peer) same).trans h.peer
  answer := by
    have kept : loaded id reply k = loaded id reply m := by rw [loaded, loaded, same]
    exact kept.trans h.answer

theorem session_entitled (blank : session m = {}) (members : List (String × Json)) :
    session (entitled id members m) = titled id members := by
  unfold entitled titled
  split
  · change ((session m).withText _).withDiagramId _ = _
    rw [blank]
  · change (session m).withText _ = _
    rw [blank]

theorem peer_entitled (id : Json) (members : List (String × Json)) (m : Coordinator) :
    (entitled id members m).world.channel.peer = m.world.channel.peer := by
  unfold entitled
  split <;> rfl

theorem grid_entitled (id : Json) (members : List (String × Json)) (m : Coordinator) :
    (entitled id members m).world.settings.grid = m.world.settings.grid := by
  unfold entitled
  split <;> rfl

theorem parse_unanswered (text : Json) (silent : m.world.channel.peer = []) :
    ∃ sent, (parse text m).2 = .ok sent := by
  unfold parse
  split
  · have heard := (emit_silent (m := requesting text m) (parseRequest text m) silent).1
    rcases hk : channelHost.emit (parseRequest text m) (requesting text m) with ⟨k, f⟩
    rw [hk] at heard
    obtain rfl : f = none := heard
    exact ⟨true, rfl⟩
  · exact ⟨false, rfl⟩

theorem furnish_failed {record : Json} {members : List (String × Json)} {f : Fault}
    (shape : membersIn record = .ok members)
    (blank : session (entitled id members n) = titled id members)
    (draws : (entitled id members n).world.settings.grid = grid)
    (hears : (entitled id members n).world.channel.peer = peer)
    (failed : (furnish members (entitled id members n)).2 = some f) :
    FailsWith grid peer id n (.ok record) (session (furnish members (entitled id members n)).1) := by
  unfold furnish at failed ⊢
  rw [draws] at failed ⊢
  split
  · rename_i given
    rw [if_pos given] at failed
    cases drawn : drawnIn grid members with
    | error g =>
      rw [blank]
      exact .undrawn shape given drawn
    | ok r =>
      rw [drawn] at failed
      cases failed
  · rename_i plain
    rw [if_neg plain] at failed
    split
    · rename_i text
      rw [if_pos text] at failed
      -- without a peer nobody answers the request, and it cannot fail
      have parsed (g : Fault) (fails : (parse (textIn members) (entitled id members n)).2 = .error g) :
          FailsWith grid peer id n (.ok record)
            (session (parse (textIn members) (entitled id members n)).1) := by
        refine .unparsed shape (Bool.eq_false_iff.mpr plain) ?_ blank fails
        rintro rfl
        obtain ⟨sent, heard⟩ := parse_unanswered (textIn members) hears
        cases heard.symm.trans fails
      rcases answered : parse (textIn members) (entitled id members n) with ⟨k, r⟩
      rw [answered] at failed parsed
      cases r with
      | ok sent => cases failed
      | error g => exact parsed g rfl
    · rename_i text
      rw [if_neg text] at failed
      cases failed

theorem fill_failed (atReply : AtReply grid peer id reply answer n) {record : Json} {f : Fault}
    (failed : (fill id record n).2 = some f) :
    FailsWith grid peer id n (.ok record) (session (fill id record n).1) := by
  unfold fill at failed ⊢
  cases shape : membersIn record with
  | error f =>
    change FailsWith grid peer id n _ (session n)
    rw [atReply.blank]
    exact .shapeless shape
  | ok members =>
    rw [shape] at failed
    exact furnish_failed shape (session_entitled atReply.blank members)
      ((grid_entitled id members n).trans atReply.grid)
      ((peer_entitled id members n).trans atReply.peer) failed

theorem receiveLoad_ended (atReply : AtReply grid peer id reply answer n) {φ : Phase}
    (sound : Sound φ n) {p : Debounce.Point Point Wait} (stands : n.loop.standing t = some p)
    {name : String} (named : loadedName id = .ok name) :
    ∃ outcome, (receiveLoad t id reply n).loop.outcome? t = some outcome ∧
      (outcome ≠ .returned (.bool true) →
        FailsWith grid peer id n answer (session (receiveLoad t id reply n))) := by
  have ends {k : Coordinator} (outcome : Outcome) (stands : k.loop.standing t = some p) :
      (k.finish t outcome).loop.outcome? t = some outcome := Loop.outcome?_finish stands outcome
  unfold receiveLoad
  rw [atReply.answer]
  cases answer with
  | error f =>
    have blank : FailsWith grid peer id n (.error f) (session n) := by
      rw [atReply.blank]
      exact .refused f
    dsimp only
    split
    · exact ⟨_, ends _ stands, fun _ => blank⟩
    · exact ⟨_, ends _ stands, fun _ => blank⟩
    · contradiction
  | ok record =>
    have keeps : (fill id record n).1.loop.standing t = some p := by
      rcases fill_placed sound id record t with same | ⟨gone, -⟩
      · exact same.trans stands
      · cases gone.symm.trans stands
    have failed := @fill_failed grid peer id reply (.ok record) n atReply record
    dsimp only
    rcases filled : fill id record n with ⟨k, f⟩
    simp only [filled] at keeps failed
    cases f with
    | some f => exact ⟨_, ends _ keeps, fun _ => failed rfl⟩
    | none =>
      rw [named]
      exact ⟨_, ends _ keeps, fun other => absurd rfl other⟩

theorem FailsWith.blank {f : Fault} {s : Session} (h : FailsWith grid peer id n (.error f) s) :
    s = {} := by
  cases h
  rfl

theorem window_turn (unpending : m.debouncer.pending = none) (begun : Bool) (signal : Signal) :
    let k := host.resume u (.window begun) signal m
    k.world = m.world ∧ k.debouncer.pending = none ∧
      (∀ v, v ≠ u → k.loop.standing v = m.loop.standing v) ∧
      ∀ p, k.loop.standing u = some p → ∃ begun, p = .window begun := by
  have ends (outcome : Outcome) : (m.finish u outcome).world = m.world ∧
      (m.finish u outcome).debouncer.pending = none ∧
      (∀ v, v ≠ u → (m.finish u outcome).loop.standing v = m.loop.standing v) ∧
      ∀ p, (m.finish u outcome).loop.standing u = some p → ∃ begun, p = .window begun := by
    refine ⟨rfl, unpending, fun v hv => ?_, fun p hp => ?_⟩
    · exact (Loop.standing_finish m.loop u v outcome).trans (if_neg hv)
    · cases ((Loop.standing_finish m.loop u u outcome).trans (if_pos rfl)).symm.trans hp
  cases signal with
  | failed f => exact ends (.failed f)
  | cancelled => exact ends .cancelled
  | go =>
    cases begun with
    | false =>
      have slept v := Loop.standing_sleep m.loop u v m.debouncer.delay (.window true)
      refine ⟨rfl, unpending, fun v hv => (slept v).trans (if_neg hv), fun p hp => ?_⟩
      obtain ⟨_, -, rfl⟩ := Option.map_eq_some_iff.mp (((slept u).trans (if_pos rfl)).symm.trans hp)
      exact ⟨true, rfl⟩
    | true =>
      intro k
      have idle : k = { m with debouncer := { m.debouncer with window := none, pending := none }
                               loop := m.loop.finish u (.returned .null) } := by
        change m.fire use u = _
        rw [fire_eq, fired, unpending]
        rfl
      obtain ⟨-, -, others, own⟩ := ends (.returned .null)
      rw [idle]
      exact ⟨rfl, rfl, others, own⟩

theorem WaitsAlone.still (h : WaitsAlone grid peer t id reply answer m) (sound : Sound .idle k)
    (world : k.world = m.world) (debouncer : k.debouncer = m.debouncer)
    (standing : ∀ u, k.loop.standing u = m.loop.standing u) :
    WaitsAlone grid peer t id reply answer k where
  toAtReply := h.toAtReply.of_world world
  sound := sound
  stands := (standing t).trans h.stands
  alone u p hu hp := h.alone u p hu ((standing u).symm.trans hp)
  unpending := debouncer ▸ h.unpending

theorem WaitsAlone.beside {p : Debounce.Point Point Wait} (h : WaitsAlone grid peer t id reply answer m)
    (other : u ≠ t) (stands : m.loop.standing u = some p) (resumes : Resumes m .turn u p n) :
    WaitsAlone grid peer t id reply answer (perform m .turn) := by
  obtain ⟨signal, -, resume⟩ := resumes.resume h.sound
  obtain ⟨begun, rfl⟩ := h.alone u p other stands
  have idle : n.debouncer.pending = none := by rw [resumes.debouncer, h.unpending]
  obtain ⟨world, unpending, others, own⟩ := window_turn (u := u) idle begun signal
  rw [← resume] at world unpending others own
  have standing v (hv : v ≠ u) : (perform m .turn).loop.standing v = m.loop.standing v :=
    (others v hv).trans (resumes.standing h.sound hv)
  refine ⟨h.toAtReply.of_world (world.trans resumes.world), h.sound.perform .turn,
    (standing t (Ne.symm other)).trans h.stands, fun v q hv hq => ?_, unpending⟩
  by_cases same : v = u
  · exact own q (same ▸ hq)
  · exact h.alone v q hv ((standing v same).symm.trans hq)

theorem WaitsAlone.perform {o : Operation} (h : WaitsAlone grid peer t id reply answer m)
    (patient : o = .turn ∨ o = .advance) :
    WaitsAlone grid peer t id reply answer (perform m o) ∨
      Replied grid peer t id reply answer (taker? m o) (Coordinator.perform m o) := by
  have sound := h.sound.perform o
  rcases patient with rfl | rfl
  · rcases resumes_or_nobody m with ⟨u, p, n, stands, resumes⟩ | ⟨world, debouncer, standing⟩
    · by_cases hu : u = t
      · subst hu
        obtain rfl := Option.some.inj (h.stands.symm.trans stands)
        obtain ⟨signal, heard, resume⟩ := resumes.resume h.sound
        cases heard rfl
        have takes : taker? m .turn = some n := by
          unfold taker?
          rw [resumes.resumed]
        exact .inr ⟨takes, h.toAtReply.of_world resumes.world, resumes.sound h.sound rfl,
          resumes.stands h.sound, resume⟩
      · exact .inl (h.beside hu stands resumes)
    · exact .inl (h.still sound world debouncer standing)
  · have moved : (Coordinator.perform m .advance).world = m.world ∧
        (Coordinator.perform m .advance).debouncer = m.debouncer ∧
        ∀ u, (Coordinator.perform m .advance).loop.standing u = m.loop.standing u := by
      unfold Coordinator.perform
      cases ha : m.loop.advance? with
      | none => exact ⟨rfl, rfl, fun _ => rfl⟩
      | some l => exact ⟨rfl, rfl, fun u => Loop.standing_advance? ha u⟩
    exact .inl (h.still sound moved.1 moved.2.1 moved.2.2)

theorem beginLoad_alone (sound : Sound (.resumes t (.own (.load id))) m) (alone : Alone m t) :
    let answer := loaded id (loadReply m) m
    WaitsAlone m.world.settings.grid m.world.channel.peer t id (loadReply m) answer (beginLoad t id m) ∨
      Replied m.world.settings.grid m.world.channel.peer t id (loadReply m) answer
        (if (loadReply m).delay = none then some (blanking id m) else none) (beginLoad t id m) := by
  intro answer
  have same := cancel_world m
  have atReply : AtReply m.world.settings.grid m.world.channel.peer id (loadReply m) answer
      (blanking id m) :=
    ⟨rfl, congrArg (·.settings.grid) same, congrArg (·.channel.peer) same, loaded_blanking id _ m⟩
  have sound' := (Move.load t id m).sound sound
  have standing u : (blanking id m).loop.standing u = m.loop.standing u := standing_cancel m u
  unfold beginLoad
  cases delay : (loadReply m).delay with
  | none =>
    exact .inr ⟨if_pos rfl, atReply, sound', (standing t).trans sound.stands.1, rfl⟩
  | some seconds =>
    have slept u := Loop.standing_sleep (blanking id m).loop t u seconds
      (.own (.loading id (loadReply m)))
    refine .inl ⟨atReply.of_world rfl, ?_, ?_, fun u p hu hp => ?_, rfl⟩
    · exact (Move.awaitLoad t id (loadReply m) seconds (blanking id m)).sound sound'
    · rw [slept, if_pos rfl, standing, sound.stands.1]
      rfl
    · exact alone u p hu (((slept u).trans (if_neg hu)).trans (standing u) ▸ hp)

theorem Starts.alone {o : Operation} (starts : Starts m o t id) (sound : Sound .idle m)
    (alone : Alone m t) :
    let answer := loaded id (loadReply m) m
    WaitsAlone m.world.settings.grid m.world.channel.peer t id (loadReply m) answer (perform m o) ∨
      Replied m.world.settings.grid m.world.channel.peer t id (loadReply m) answer (taker? m o)
        (Coordinator.perform m o) := by
  obtain ⟨n, resumes⟩ := starts.resumes
  obtain ⟨signal, heard, resume⟩ := resumes.resume sound
  cases heard rfl
  have begun := beginLoad_alone (resumes.sound sound rfl) fun u p hu hp =>
    alone u p hu ((resumes.standing sound hu).symm.trans hp)
  have takes : taker? m o = if (loadReply n).delay = none then some (blanking id n) else none := by
    unfold taker?
    rw [resumes.resumed]
  have world := resumes.world
  unfold loaded loadReply at begun takes ⊢
  rw [world] at begun takes
  rw [takes, resume]
  exact begun

theorem Starts.alone_performAll {o : Operation} (starts : Starts m o t id) (sound : Sound .idle m)
    (alone : Alone m t) {name : String} (named : loadedName id = .ok name) {waiting : List Operation}
    (patient : ∀ w ∈ waiting, w = .turn ∨ w = .advance)
    (unended : Throughout (fun n _ => n.loop.outcome? t = none) m (o :: waiting)) :
    let answer := loaded id (loadReply m) m
    WaitsAlone m.world.settings.grid m.world.channel.peer t id (loadReply m) answer
        (performAll (o :: waiting) m) ∨
      ∃ earlier w, o :: waiting = earlier ++ [w] ∧
        Replied m.world.settings.grid m.world.channel.peer t id (loadReply m) answer
          (taker? (performAll earlier m) w) (performAll (o :: waiting) m) := by
  intro answer
  induction waiting using List.reverseRecOn with
  | nil => exact (starts.alone sound alone).imp_right fun replied => ⟨[], o, rfl, replied⟩
  | append_singleton passed w ih =>
    rw [← List.cons_append] at unended ⊢
    rw [performAll_append]
    rcases ih (fun w hw => patient w (List.mem_append_left _ hw))
        (unended.earlier (List.prefix_append _ _)) with waits | ⟨_, _, -, -, atReply, sound, stands, same⟩
    · exact (waits.perform (patient w (by simp))).imp_right fun replied => ⟨_, w, rfl, replied⟩
    · obtain ⟨outcome, ended, -⟩ := receiveLoad_ended atReply sound stands named
      cases (same ▸ unended.last).symm.trans ended

end Fill

/-- What a load leaves that fails with nothing else at work, by the coordinator that takes its reply in the
    last operation. The session is blank if the backend refuses or gives no record; but a record whose
    schema cannot be drawn has left its text and its id there, as one whose text is parsed has when the
    peer's answer to that is refused. -/
theorem failed_load_leaves (settings : Settings) (delay : Float) (start : Session)
    (channel : Channel Inbound Unit) (notifier : Notifier Unit) (backend : Backend)
    (before : List Operation) (o : Operation) (waiting : List Operation) (t : TaskId)
    (wanted : Option String) (outcome : Outcome) :
    let m := performAll before (fresh settings delay start channel notifier backend)
    let k := performAll (o :: waiting) m
    let id := Json.ofText? wanted
    Starts m o t id → Alone m t → (∀ w ∈ waiting, w = .turn ∨ w = .advance) →
    Throughout (fun n _ => n.loop.outcome? t = none) m (o :: waiting) →
    k.loop.outcome? t = some outcome → outcome ≠ .returned (.bool true) →
    ∃ earlier w taker, o :: waiting = earlier ++ [w] ∧ taker? (performAll earlier m) w = some taker ∧
      FailsWith m.world.settings.grid m.world.channel.peer id taker (loaded id (loadReply m) m)
        (session k) := by
  intro m k id starts alone patient unended ended fails
  have sound : Sound .idle m := (sound_fresh ..).performAll before
  obtain ⟨name, named⟩ : ∃ name, loadedName id = .ok name := by
    cases wanted <;> exact ⟨_, rfl⟩
  rcases starts.alone_performAll sound alone named patient unended with
    waits | ⟨earlier, w, split, takes, atReply, sound, stands, received⟩
  · have waiting : k.loop.outcome? t = none := Loop.outcome?_of_stands waits.stands
    cases waiting.symm.trans ended
  · obtain ⟨outcome', ended', left⟩ := receiveLoad_ended atReply sound stands named
    rw [← received] at ended' left
    obtain rfl := Option.some.inj (ended.symm.trans ended')
    exact ⟨earlier, w, _, split, takes, left fails⟩

def unreliable (loads : List Reply) : Backend where
  loads := loads
  records := [(.str "d", .obj [("_id", .str "d"), ("dbmlText", .str "Table t"),
    ("ast", .obj [("tables", .arr [.obj [("name", .str "t")]])])])]

/-- A load is refused while a payload waits: the payload is dropped, and the session is blank. -/
theorem failed_load_leaves_refused :
    let m := performAll [.postpone [], .turn]
      (fresh {} 1.0 (Session.withText {} (.str "Table old")) {} { capacity := 50 }
        (unreliable [{ delay := some 2.0, refusal := some (.str "down", .int 503) }]))
    let k := performAll [.enter (.load (.str "d")), .turn, .advance, .turn] m
    Alone m 1 ∧ k.loop.outcome? 1 = some (.returned (.bool false)) ∧ session k = {} := by
  have leaves := failed_load_leaves {} 1.0 (Session.withText {} (.str "Table old")) {}
    { capacity := 50 } (unreliable [{ delay := some 2.0, refusal := some (.str "down", .int 503) }])
    [.postpone [], .turn] (.enter (.load (.str "d"))) [.turn, .advance, .turn] 1 (some "d")
    (.returned (.bool false))
  intro m k
  extract_lets at leaves
  have sound : Sound .idle m := (sound_fresh ..).performAll _
  have starts : Starts m (.enter (.load (.str "d"))) 1 (.str "d") := .inl ⟨rfl, by decide +kernel⟩
  have window : ∀ u < m.loop.fresh, u ≠ 1 → (m.loop.standing u).all fun p =>
      match p with
      | .window _ => true
      | _ => false := by decide +kernel
  have alone : Alone m 1 := by
    intro u p hu stands
    have own := window u (sound.orderly.standing_below stands) hu
    rw [stands, Option.all_some] at own
    split at own
    · exact ⟨_, rfl⟩
    · cases own
  have unended : Throughout (fun n _ => n.loop.outcome? 1 = none) m
      [.enter (.load (.str "d")), .turn, .advance, .turn] := by decide +kernel
  have ended : k.loop.outcome? 1 = some (.returned (.bool false)) := by decide +kernel
  have refused : loaded (.str "d") (loadReply m) m = .error (.persistence (.str "down") (.int 503)) := by
    decide +kernel
  obtain ⟨earlier, w, taker, -, -, left⟩ := leaves starts alone (by decide) unended ended (by decide)
  exact ⟨alone, ended, FailsWith.blank (refused ▸ left)⟩

/-- A load of a diagram whose schema cannot be read raises, but the session has its id and its text by
    then: the next save writes an empty diagram over the one that is stored. -/
theorem unread_load_keeps_id :
    let m := perform (fresh {} 1.0 {} {} { capacity := 50 } (unreliable [])) (.enter (.load (.str "d")))
    let k := perform m (.enter (.save []))
    m.loop.outcome? 0 = some (.failed (.invalid ⟨Record.name Schema,
        [⟨[.key "tables", .index 0, .key "id"], .missing⟩]⟩)) ∧
      (session m).canvas.diagramId = .str "d" ∧ (session m).document.text = .str "Table t" ∧
      Event.save 0.0 (.str "d") .saving
        { text := some "Table t", nodes := some [], edges := some [], errors := some [] } ∈
        k.world.trace := by
  decide +kernel

end SchemaDiagram.Sync.Coordinator
