import SchemaDiagram.Proofs.Loads

/-!
What is saved in a session that a load has made. As long as the session lasts, every call of the
backend passes its id, and sends the session as it stands then with what an operation since the load
has asked to save. The work of tasks changes nothing of the session.
-/

set_option autoImplicit false

namespace SchemaDiagram.Sync

namespace Backend

theorem nextSave_saves (b : Backend) :
    (∀ reply ∈ b.nextSave.1.saves, reply ∈ b.saves) ∧
      (b.nextSave.2 ∈ b.saves ∨ b.nextSave.2 = {}) := by
  unfold nextSave
  cases scripted : b.saves with
  | nil => exact ⟨fun reply left => scripted ▸ left, .inr rfl⟩
  | cons next rest => exact ⟨fun reply left => List.mem_cons_of_mem _ left, .inl List.mem_cons_self⟩

theorem nextLoad_saves (b : Backend) : b.nextLoad.1.saves = b.saves := by
  unfold nextLoad
  split <;> rfl

theorem answerSave_saves (b : Backend) (reply : Reply) (id payload : Json) :
    (b.answerSave reply id payload).1.saves = b.saves := by
  unfold answerSave
  split
  · rfl
  · split
    · rfl
    · simp only
      split <;> rfl

end Backend

namespace Coordinator

/-- A reply to a save that names no other diagram. -/
def KeepsId (id : Json) (reply : Reply) : Prop :=
  ∀ record, reply.record = some record → (record.get "_id").truthy = true → record.get "_id" = id

/-- What the operations of a run ask to save. -/
def AskedSince (m : Coordinator) (operations : List Operation) (ov : Overrides) : Prop :=
  ∃ earlier o, earlier ++ [o] <+: operations ∧ asked (performAll earlier m) o ov

/-- Between two moments nothing is saved but the session, under its id, with what is asked for. -/
def SavesOnly (asks : Overrides → Prop) (m k : Coordinator) : Prop :=
  ∃ events, k.world.trace = m.world.trace ++ events ∧
    ∀ time id status payload, Event.save time id status payload ∈ events →
      id = (session m).canvas.diagramId ∧ ∃ ov, asks ov ∧ payloadOf ov (session m) = .ok payload

/-- Whatever is at work in the session of an epoch, or waits, serves the diagram of the session. -/
structure Serves (id : Json) (epoch : Nat) (asks : Overrides → Prop) (φ : Phase) (m : Coordinator) :
    Prop where
  current : m.world.epoch = epoch
  named : (session m).canvas.diagramId = id
  replies : ∀ reply ∈ m.world.backend.saves, KeepsId id reply
  pending : ∀ ov, m.debouncer.pending = some ov → asks ov
  stances : ∀ t s, Takes φ m t s → s.Fits asks (fun call => call.id = id ∧ KeepsId id call.reply) epoch

theorem Stance.Fits.mono {asks asks' : Overrides → Prop} {made made' : SaveCall → Prop} {epoch : Nat}
    {s : Stance} (h : s.Fits asks made epoch) (more : ∀ ov, asks ov → asks' ov)
    (most : ∀ call, made call → made' call) : s.Fits asks' made' epoch := by
  cases s with
  | begins ov => exact more ov h
  | holds ov e => exact fun now => more ov (h now)
  | calls call => exact fun now => most call (h now)
  | rests | loads _ | fills _ _ => exact h

theorem AskedSince.earlier {m : Coordinator} {operations : List Operation} {o : Operation}
    {ov : Overrides} (h : AskedSince m operations ov) : AskedSince m (operations ++ [o]) ov := by
  obtain ⟨passed, p, early, asked⟩ := h
  exact ⟨passed, p, early.trans (List.prefix_append _ _), asked⟩

theorem AskedSince.last {m : Coordinator} {operations : List Operation} {o : Operation}
    {ov : Overrides} (asked : asked (performAll operations m) o ov) :
    AskedSince m (operations ++ [o]) ov :=
  ⟨operations, o, List.prefix_rfl, asked⟩

section SavesOnly

variable {asks : Overrides → Prop} {m k n : Coordinator}

theorem payloadOf_content (ov : Overrides) (s : Session) :
    payloadOf ov s.content = payloadOf ov s := rfl

theorem payloadOf_of_content {ov : Overrides} {s s' : Session} (same : s'.content = s.content) :
    payloadOf ov s' = payloadOf ov s := by
  rw [← payloadOf_content ov s', same, payloadOf_content]

theorem SavesOnly.refl (m : Coordinator) : SavesOnly asks m m :=
  ⟨[], (List.append_nil _).symm, fun _ _ _ _ he => nomatch he⟩

theorem SavesOnly.of_notices (h : ∃ notices, k.world.trace = m.world.trace ++ notices ∧
    ∀ e ∈ notices, e.isNotice = true) : SavesOnly asks m k := by
  obtain ⟨notices, trace, quiet⟩ := h
  exact ⟨notices, trace, fun _ _ _ _ he => nomatch quiet _ he⟩

theorem SavesOnly.trans (h : SavesOnly asks m k) (h' : SavesOnly asks k n)
    (same : (session k).content = (session m).content) : SavesOnly asks m n := by
  obtain ⟨events, trace, own⟩ := h
  obtain ⟨events', trace', own'⟩ := h'
  refine ⟨events ++ events', ?_, fun time id status payload he => ?_⟩
  · rw [trace', trace, List.append_assoc]
  · rcases List.mem_append.mp he with he | he
    · exact own time id status payload he
    · obtain ⟨named, ov, asked, built⟩ := own' time id status payload he
      exact ⟨named.trans (congrArg (·.canvas.diagramId) same), ov, asked,
        (payloadOf_of_content same).symm.trans built⟩

end SavesOnly

section Moves

variable {asks : Overrides → Prop} {id : Json} {epoch : Nat} {φ ψ : Phase} {m k : Coordinator}

/-- A call of the backend is made by a task that holds the lock since the session has begun. -/
theorem Move.savesOnly (h : Move φ m ψ k)
    (asked : ∀ t ov, φ = .holds t ov m.world.epoch → asks ov) : SavesOnly asks m k := by
  have quiet (h : k.world.trace = m.world.trace) : SavesOnly asks m k :=
    .of_notices ⟨[], h.trans (List.append_nil _).symm, fun _ he => nomatch he⟩
  cases h with
  | @call m t ov e payload current built =>
    subst current
    refine ⟨[_], rfl, fun time id status payload' he => ?_⟩
    obtain ⟨-, rfl, -, rfl⟩ := Event.save.inj (List.mem_singleton.mp he)
    exact ⟨rfl, ov, asked t ov rfl, built⟩
  | hear t call =>
    obtain ⟨-, -, _, _, same⟩ := hearing_same call m
    refine ⟨[.answered m.loop.now (answerTo call m).2.toOption], ?_, fun _ _ _ _ he => ?_⟩
    · rw [same]
      rfl
    · cases List.mem_singleton.mp he
  | load t id =>
    refine ⟨[if id.truthy then .load m.cancel.loop.now id else .loadStarter m.cancel.loop.now], ?_,
      fun _ _ _ _ he => ?_⟩
    · exact congrArg (·.trace ++ _) (cancel_world m)
    · have := List.mem_singleton.mp he
      split at this <;> cases this
  | fill t id reply found => exact .of_notices (fill_keeps id _ m).2.2
  | notify φ m n => exact .of_notices ⟨[.note n], rfl, fun _ he => List.mem_singleton.mp he ▸ rfl⟩
  | release t => exact quiet (by rw [release_world])
  | unsubscribe t =>
    obtain ⟨_, _, same⟩ := unsubscribe_world m
    exact quiet (by rw [same])
  | flush | cancel => exact quiet (congrArg (·.trace) (cancel_world m))
  | skip | leaveGroup | count | resume | dequeue | reply | note | free | save | request
  | loading | fire | finish | sleep | join | gather | take | lineUp | drop | await | awaitLoad
  | refuse => exact quiet rfl

theorem Move.replies (h : Move φ m ψ k) {reply : Reply} (left : reply ∈ k.world.backend.saves) :
    reply ∈ m.world.backend.saves := by
  cases h with
  | call t current built => exact m.world.backend.nextSave_saves.1 reply left
  | hear t call =>
    obtain ⟨-, -, _, _, same⟩ := hearing_same call m
    rw [same] at left
    exact m.world.backend.answerSave_saves .. ▸ left
  | load t id =>
    have loads : (blanking id m).world.backend.saves = m.cancel.world.backend.nextLoad.1.saves := rfl
    rw [loads, Backend.nextLoad_saves, cancel_world] at left
    exact left
  | fill t id reply found => exact (fill_keeps id _ m).2.1 ▸ left
  | release t => rwa [release_world] at left
  | unsubscribe t =>
    obtain ⟨_, _, same⟩ := unsubscribe_world m
    rwa [same] at left
  | flush | cancel => rwa [cancel_world] at left
  | skip | leaveGroup | count | resume | dequeue | reply | note | notify | free | save | request
  | loading | fire | finish | sleep | join | gather | take | lineUp | drop | await | awaitLoad
  | refuse => exact left

theorem hearing_own {call : SaveCall} (named : (session m).canvas.diagramId = call.id)
    (truthy : call.id.truthy = true) (keeps : KeepsId call.id call.reply) :
    (session (hearing call m)).content = (session m).content := by
  have kept {record : Json} (own : (record.get "_id").truthy = true → record.get "_id" = call.id) :
      (session (recordSaved record call.epoch (answered call m))).content = (session m).content := by
    unfold recordSaved
    split
    · rfl
    · simp only
      split
      · rename_i differs
        rw [own (Bool.and_eq_true_iff.mp differs).1, ← named]
        rfl
      · rfl
  unfold hearing
  cases answer : (answerTo call m).2 with
  | error f => rfl
  | ok record =>
    refine kept fun given => ?_
    unfold answerTo Backend.answerSave at answer
    split at answer
    · cases answer
    · split at answer
      · rename_i record' scripted
        cases answer
        exact keeps record scripted given
      · have same : call.id.orElse Backend.firstId = call.id := by
          unfold Json.orElse
          rw [if_pos truthy]
        rw [same] at answer
        simp only at answer
        split at answer
        · cases answer
        · cases answer
          rfl

end Moves

namespace Serves

variable {asks : Overrides → Prop} {id : Json} {epoch : Nat} {φ ψ : Phase} {m k : Coordinator}

theorem mono {asks' : Overrides → Prop} (h : Serves id epoch asks φ m)
    (more : ∀ ov, asks ov → asks' ov) : Serves id epoch asks' φ m :=
  ⟨h.current, h.named, h.replies, fun ov waits => more ov (h.pending ov waits), fun t s hs =>
    (h.stances t s hs).mono more fun _ h => h⟩

theorem move (h : Serves id epoch asks φ m) (truthy : id.truthy = true) (sound : Sound φ m)
    (move : Move φ m ψ k) (lasts : k.world.epoch = epoch) :
    Serves id epoch asks ψ k ∧ (session k).content = (session m).content ∧ SavesOnly asks m k := by
  obtain ⟨rfl, rfl, replies, pending, stances⟩ := h
  have refused (t : TaskId) (id : Json) (reply : Reply) (phase : φ = .fills t id reply) :
      ∃ f, Backend.failure? reply = some f := by
    subst phase
    exact stances t _ (.turn rfl rfl)
  have content : (session k).content = (session m).content := by
    refine (move.content lasts refused fun t call phase => ?_).1
    subst phase
    have own := stances t _ (.turn rfl rfl)
    -- a call of an earlier session may still be answered, and for any diagram
    by_cases now : call.epoch = m.world.epoch
    · obtain ⟨named, keeps⟩ := own now
      exact hearing_own named.symm (named ▸ truthy) (named ▸ keeps)
    · exact hearing_past now
  have made (ov : Overrides) (payload : Payload) (_ : asks ov)
      (_ : payloadOf ov (session m) = .ok payload) :
      (callOf payload m.world.epoch m).id = (session m).canvas.diagramId ∧
        KeepsId (session m).canvas.diagramId (callOf payload m.world.epoch m).reply := by
    refine ⟨rfl, ?_⟩
    rcases m.world.backend.nextSave_saves.2 with scripted | plain
    · exact replies _ scripted
    · intro record hr
      cases (congrArg (·.record) plain).symm.trans hr
  refine ⟨⟨lasts, congrArg (·.canvas.diagramId) content, fun r hr => replies r (move.replies hr),
    fun ov waits => ?_, fun t s hs => ?_⟩, content, ?_⟩
  · exact pending ov (move.pending (fun t id reply phase => .inr (refused t id reply phase)) waits)
  · exact move.fits sound lasts pending made hs fun s => stances t s
  · refine move.savesOnly fun t ov phase => ?_
    subst phase
    exact stances t _ (.turn rfl rfl) rfl

theorem moves (h : Serves id epoch asks φ m) (truthy : id.truthy = true) (sound : Sound φ m)
    (moves : Moves φ m ψ k) (lasts : k.world.epoch = epoch) :
    Serves id epoch asks ψ k ∧ (session k).content = (session m).content ∧ SavesOnly asks m k := by
  induction moves with
  | refl => exact ⟨h, rfl, .refl _⟩
  | last move => exact h.move truthy sound move lasts
  | @next _ _ _ _ mid _ move _ rest ih =>
    have still : mid.world.epoch = epoch :=
      Nat.le_antisymm (lasts ▸ (epoch_kept _).moves rest (move.sound sound) (Nat.le_refl _))
        (h.current ▸ move.epoch_le)
    obtain ⟨served, same, saves⟩ := h.move truthy sound move still
    obtain ⟨served', same', saves'⟩ := ih served (move.sound sound) lasts
    exact ⟨served', same'.trans same, saves.trans saves' same⟩

theorem talk (h : Serves id epoch asks .idle m) (sound : Sound .idle m) (talk : Talk asks m k) :
    Serves id epoch asks .idle k := by
  refine ⟨talk.keeps.epoch.trans h.current, talk.keeps.diagramId.trans h.named,
    talk.keeps.backend ▸ h.replies, fun ov waits => ?_, fun t s hs => ?_⟩
  · exact (talk.pending waits).elim (h.pending ov) fun asked => asked
  · rcases talk.takes sound hs with hs | rfl | ⟨ov, asked, rfl⟩
    · exact h.stances t s hs
    · trivial
    · exact asked

theorem spawn (h : Serves id epoch asks .idle m) (sound : Sound .idle m) {e : Errand}
    (given : ∀ members, e = .save members → asks { members := members }) :
    Serves id epoch asks .idle { m with loop := (m.loop.spawn e.point).1 } := by
  refine ⟨h.current, h.named, h.replies, h.pending, fun t s hs => ?_⟩
  rcases takes_spawn sound hs with hs | rfl
  · exact h.stances t s hs
  · cases e with
    | save members => exact given members rfl
    | flush | drain | close | load _ | pause _ => trivial

theorem enter (h : Serves id epoch asks .idle m) (sound : Sound .idle m) {e : Errand}
    (given : ∀ members, e = .save members → asks { members := members }) :
    Serves id epoch asks (.resumes m.loop.fresh e.point)
      { m with loop := (m.loop.enter e.point).1 } := by
  refine ⟨h.current, h.named, h.replies, h.pending, fun t s hs => ?_⟩
  rcases takes_enter sound hs with hs | rfl
  · exact h.stances t s hs
  · cases e with
    | save members => exact given members rfl
    | flush | drain | close | load _ | pause _ => trivial

theorem perform (h : Serves id epoch asks .idle m) (truthy : id.truthy = true)
    (sound : Sound .idle m) {o : Operation} (lasts : (perform m o).world.epoch = epoch)
    (asks_all : ∀ ov, asked m o ov → asks ov) :
    Serves id epoch asks .idle (perform m o) ∧ SavesOnly asks m (perform m o) ∧
      (o.works = true → (session (perform m o)).content = (session m).content) := by
  have happens := perform_happens sound o
  generalize Coordinator.perform m o = k at happens lasts ⊢
  cases happens with
  | exchange talks exchange =>
    have told : Talk asks m k := exchange.talk.mono asks_all
    exact ⟨h.talk sound told, .of_notices told.keeps.trace, fun works => nomatch talks.symm.trans works⟩
  | spawn e =>
    exact ⟨h.spawn sound fun members he => asks_all _ (he ▸ rfl), .refl m, fun _ => rfl⟩
  | @enter e _ turns =>
    have entered := h.enter sound (e := e) fun members he => asks_all _ (he ▸ rfl)
    obtain ⟨served, same, saves⟩ := entered.moves truthy (sound.enter _) turns lasts
    exact ⟨served, saves, fun _ => same⟩
  | turn turns =>
    obtain ⟨served, same, saves⟩ := h.moves truthy sound turns lasts
    exact ⟨served, saves, fun _ => same⟩
  | advance ha =>
    refine ⟨⟨h.current, h.named, h.replies, h.pending, fun t s hs => ?_⟩, .refl m, fun _ => rfl⟩
    exact h.stances t s (takes_advance ha hs)
  | still => exact ⟨h, .refl m, fun _ => rfl⟩

theorem performAll (h : Serves id epoch (fun _ => False) .idle m) (truthy : id.truthy = true)
    (sound : Sound .idle m) {operations : List Operation}
    (lasts : (performAll operations m).world.epoch = epoch) :
    Serves id epoch (AskedSince m operations) .idle (performAll operations m) := by
  induction operations using List.reverseRecOn with
  | nil => exact h.mono fun _ => False.elim
  | append_singleton passed o ih =>
    rw [performAll_append] at lasts ⊢
    obtain rfl := h.current
    have earlier := (ih (epoch_of_lasting sound lasts)).mono fun _ => AskedSince.earlier (o := o)
    exact (earlier.perform truthy (sound.performAll passed) lasts fun _ => AskedSince.last).1

end Serves

/-- When a load that was not overtaken has ended and the session has the id of a record, then the
    session is that record's, provided that nothing older was left that would save or fill it. From then
    on until another load begins, and if the backend answers a save of the diagram with the diagram's id,
    the session keeps its id, the work of tasks leaves it as it is, and every save is sent under its id
    and sends the session as it stands, but for what an operation since the load has asked to save. -/
theorem saves_of_loaded (settings : Settings) (delay : Float) (start : Session)
    (channel : Channel Inbound Unit) (notifier : Notifier Unit) (backend : Backend)
    (before : List Operation) (o : Operation) (waiting : List Operation) (t : TaskId) (d : Json) :
    let m := performAll before (fresh settings delay start channel notifier backend)
    let k := performAll (o :: waiting) m
    let id := (session k).canvas.diagramId
    Starts m o t d → Settled m t → m.world.channel.peer = [] →
    (∀ w ∈ waiting, w = .turn ∨ w = .advance) → k.world.epoch = m.world.epoch + 1 →
    k.loop.standing t = none → id.truthy = true →
    (∀ reply ∈ k.world.backend.saves, KeepsId id reply) →
    (∃ earlier p, earlier ++ [p] <+: o :: waiting ∧ (session k).content =
      opened m.world.settings.grid d (loaded d (loadReply m) (performAll earlier m))) ∧
    ∀ after u, (performAll (after ++ [u]) k).world.epoch = k.world.epoch →
      let n := performAll after k
      (session (perform n u)).canvas.diagramId = id ∧
      (u.works = true → (session (perform n u)).content = (session n).content) ∧
      ∃ events, (perform n u).world.trace = n.world.trace ++ events ∧
        ∀ time id' status payload, .save time id' status payload ∈ events →
          id' = id ∧ ∃ ov, AskedSince k (after ++ [u]) ov ∧ payloadOf ov (session n) = .ok payload := by
  intro m k id starts settled silent patient alone ended truthy replies
  have sound : Sound .idle m := (sound_fresh ..).performAll before
  have dated := dated_performAll settings delay start channel notifier backend before
  obtain ⟨earlier, p, early, stage⟩ := starts.stage_performAll sound dated settled silent patient
  obtain ⟨fenced, answered⟩ := stage.answered alone ended
  refine ⟨⟨earlier, p, early, answered.content⟩, fun after u lasts => ?_⟩
  have sound' : Sound .idle k := sound.performAll (o :: waiting)
  -- at the end of the load nothing has been asked to be saved in its session yet
  have serves : Serves id k.world.epoch (fun _ => False) .idle k := by
    refine ⟨rfl, rfl, replies, fun ov waits => ?_, fun u s hs => ?_⟩
    · cases fenced.pending.symm.trans waits
    · by_cases hu : u = t
      · rw [answered.stance s (hu ▸ hs)]
        trivial
      · exact alone ▸ (fenced.others u s hu hs).mono (fun _ => False.elim) fun _ => False.elim
  intro n
  have passed : Sound .idle n := sound'.performAll after
  rw [performAll_append] at lasts
  have until_now := serves.performAll truthy sound' (epoch_of_lasting sound' lasts)
  have later := until_now.mono fun _ => AskedSince.earlier (o := u)
  obtain ⟨served, ⟨events, trace, own⟩, same⟩ :=
    later.perform truthy passed lasts fun _ => AskedSince.last
  refine ⟨served.named, same, events, trace, fun time id' status payload he => ?_⟩
  obtain ⟨named, asked⟩ := own time id' status payload he
  exact ⟨named.trans later.named, asked⟩

def stored : Backend where
  saves := [{ delay := some 5.0 }]
  records :=
    [(.str "d", .obj [("_id", .str "d"), ("dbmlText", .str ""),
      ("ast", .obj [
        ("tables", .arr [.obj [("id", .str "t"), ("name", .str "t"),
          ("columns", .arr [.obj [("name", .str "id"), ("type", .str "int")]])]]),
        ("relationships", .arr [])])])]

def schemaSent : Event → Option (Json × Option Schema)
  | .save _ id _ payload => some (id, payload.schema)
  | _ => none

/-- A diagram is loaded while a save is under way, and a table of it is renamed. The save under way
    creates another diagram, of which the session learns nothing; the rename is saved after it. -/
theorem saves_of_loaded_during_save :
    let m := performAll [.enter (.save [])] (fresh {} 1.0 {} {} { capacity := 50 } stored)
    let k := performAll [.enter (.load (.str "d"))] m
    let after : List Operation := [.edit (.renameTable (.str "t") (.str "u")), .turn, .advance, .turn]
    let n := performAll after k
    Settled m 1 ∧ (∀ reply ∈ k.world.backend.saves, KeepsId (.str "d") reply) ∧
      ∃ time status payload,
        .save time (.str "d") status payload ∈ (perform n .turn).world.trace.drop n.world.trace.length ∧
        ∃ ov, AskedSince k (after ++ [.turn]) ov ∧ payloadOf ov (session n) = .ok payload := by
  have serves := saves_of_loaded {} 1.0 {} {} { capacity := 50 } stored [.enter (.save [])]
    (.enter (.load (.str "d"))) [] 1 (.str "d")
  intro m k after n
  extract_lets id at serves
  have settled : Settled m 1 :=
    settled_of_spent ((sound_fresh ..).performAll _) (by decide +kernel)
  have starts : Starts m (.enter (.load (.str "d"))) 1 (.str "d") := .inl ⟨rfl, by decide +kernel⟩
  have silent : m.world.channel.peer = [] := List.isEmpty_iff.mp (by decide +kernel)
  have alone : k.world.epoch = m.world.epoch + 1 := by decide +kernel
  have ended : k.loop.standing 1 = none := Option.isNone_iff_eq_none.mp (by decide +kernel)
  have named : id = .str "d" := by decide +kernel
  have scripted : k.world.backend.saves = [] := by decide +kernel
  have replies : ∀ reply ∈ k.world.backend.saves, KeepsId id reply := fun _ left =>
    nomatch scripted ▸ left
  have called : ((perform n .turn).world.trace.drop n.world.trace.length).any Event.isCall = true := by
    decide +kernel
  obtain ⟨-, later⟩ := serves starts settled silent (by simp) alone ended (named ▸ rfl) replies
  have serving := later after .turn (by decide +kernel)
  extract_lets at serving
  obtain ⟨-, -, events, trace, own⟩ := serving
  obtain ⟨e, he, call⟩ := List.any_eq_true.mp called
  cases e with
  | save time id' status payload =>
    have new : Event.save time id' status payload ∈ events := by
      rwa [trace, List.drop_left] at he
    obtain ⟨same, asked⟩ := own time id' status payload new
    rw [same.trans named] at he
    exact ⟨settled, named ▸ replies, time, status, payload, he, asked⟩
  | sent _ | answered _ _ | load _ _ | loadStarter _ | note _ => cases call

/-- A save that an edit has asked for before a load may begin after it: it sends the schema of the
    session before under the id of the diagram that was loaded. -/
theorem save_asked_before_load_crosses :
    let m := performAll [.edit (.addTable .null)] (fresh {} 1.0 {} {} { capacity := 50 } stored)
    let k := performAll [.enter (.load (.str "d"))] m
    k.loop.standing 1 = none ∧ (session k).document.schema ≠ (session m).document.schema ∧
      ((perform k .turn).world.trace.drop k.world.trace.length).filterMap schemaSent =
        [(.str "d", (session m).document.schema)] := by
  intro m k
  exact ⟨Option.isNone_iff_eq_none.mp (by decide +kernel), by decide +kernel⟩

end Coordinator

end SchemaDiagram.Sync
