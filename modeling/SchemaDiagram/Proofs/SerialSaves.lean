import SchemaDiagram.Proofs.Places

/-!
Saves are serialized, and a diagram is created at most once. In every run without a load each call
of the backend is answered before the next is made, and each call passes the id that the latest
record with an id has given, so that a call without an id follows no such record.
-/

set_option autoImplicit false

namespace SchemaDiagram

/-- Values that are the same or worth the same. -/
def Json.Equals (v w : Json) : Prop := v = w ∨ v.agrees w = true

theorem Json.eq_null_of_equals {v : Json} (h : v.Equals .null) : v = .null := by
  rcases h with h | h
  · exact h
  · cases v <;> simp [Json.agrees, Json.agreesBy, Json.atomsAgree, Json.asNumber] at h ⊢

theorem Json.eq_of_equals_str {s : String} {w : Json} (h : (Json.str s).Equals w) : w = .str s := by
  rcases h with rfl | h
  · rfl
  · cases w <;> simp_all [Json.agrees, Json.agreesBy, Json.atomsAgree, Json.asNumber]

namespace Sync

def Event.isAnswer : Event → Bool
  | .answered _ _ => true
  | _ => false

def calls (trace : List Event) : Nat := trace.countP Event.isCall

def answers (trace : List Event) : Nat := trace.countP Event.isAnswer

def Event.identify (id : Json) : Event → Json
  | .answered _ (some record) => (record.get "_id").orElse id
  | _ => id

/-- The id that the latest record with an id has given, if there is one. -/
def latestId (initial : Json) (trace : List Event) : Json := trace.foldl Event.identify initial

/-- Whether a save was answered with a record that has an id. -/
def Identified (trace : List Event) : Prop :=
  ∃ time record, Event.answered time (some record) ∈ trace ∧ (record.get "_id").truthy = true

theorem latestId_append (initial : Json) (trace rest : List Event) :
    latestId initial (trace ++ rest) = latestId (latestId initial trace) rest :=
  List.foldl_append

theorem truthy_orElse {v w : Json} (h : v.truthy = true ∨ w.truthy = true) :
    (v.orElse w).truthy = true := by
  unfold Json.orElse
  split
  · assumption
  · exact h.resolve_left ‹_›

theorem truthy_latestId (initial : Json) {trace : List Event}
    (h : initial.truthy = true ∨ Identified trace) : (latestId initial trace).truthy = true := by
  induction trace generalizing initial with
  | nil =>
    rcases h with h | ⟨_, _, he, _⟩
    · exact h
    · cases he
  | cons e rest ih =>
    refine ih _ ?_
    rcases h with h | ⟨time, record, he, ht⟩
    · left
      unfold Event.identify
      split
      · exact truthy_orElse (.inr h)
      · exact h
    · rcases List.mem_cons.mp he with rfl | he
      · exact .inl (truthy_orElse (.inl ht))
      · exact .inr ⟨time, record, he, ht⟩

/-- A trace in which calls and answers alternate, each call under the latest id. The truth value says
    whether a call is still to be answered. -/
inductive Serial (initial : Json) : Bool → List Event → Prop where
  | nil : Serial initial false []
  | call {trace : List Event} (h : Serial initial false trace) (time : Float) {id : Json}
      (status : Status) (payload : Payload) (latest : (latestId initial trace).Equals id) :
      Serial initial true (trace ++ [.save time id status payload])
  | answer {trace : List Event} (h : Serial initial true trace) (time : Float)
      (record : Option Json) : Serial initial false (trace ++ [.answered time record])
  | other {waits : Bool} {trace : List Event} (h : Serial initial waits trace) {e : Event}
      (call : e.isCall = false) (answer : e.isAnswer = false) :
      Serial initial waits (trace ++ [e])

namespace Serial

variable {initial : Json} {waits : Bool} {trace : List Event}

theorem counts (h : Serial initial waits trace) :
    calls trace = answers trace + if waits = true then 1 else 0 := by
  induction h with
  | nil => rfl
  | call h time status payload latest ih =>
    simp_all [calls, answers, Event.isCall, Event.isAnswer]
  | answer h time record ih => simp_all [calls, answers, Event.isCall, Event.isAnswer]
  | other h call answer ih => simp_all [calls, answers]

theorem of_prefix (h : Serial initial waits trace) {before : List Event}
    (early : before <+: trace) : ∃ waits, Serial initial waits before := by
  induction h with
  | nil => exact ⟨false, List.prefix_nil.mp early ▸ .nil⟩
  | call h time status payload latest ih =>
    rcases List.prefix_concat_iff.mp early with rfl | early
    · exact ⟨true, .call h time status payload latest⟩
    · exact ih early
  | answer h time record ih =>
    rcases List.prefix_concat_iff.mp early with rfl | early
    · exact ⟨false, .answer h time record⟩
    · exact ih early
  | other h call answer ih =>
    rcases List.prefix_concat_iff.mp early with rfl | early
    · exact ⟨_, .other h call answer⟩
    · exact ih early

theorem of_call {before : List Event} {time : Float} {id : Json} {status : Status}
    {payload : Payload} (h : Serial initial waits (before ++ [.save time id status payload])) :
    Serial initial false before ∧ (latestId initial before).Equals id := by
  generalize last : before ++ [.save time id status payload] = trace at h
  cases h with
  | nil => simp at last
  | call h _ _ _ latest =>
    obtain ⟨rfl, he⟩ := List.append_inj' last rfl
    cases he
    exact ⟨h, latest⟩
  | answer =>
    obtain ⟨rfl, he⟩ := List.append_inj' last rfl
    cases he
  | other _ call _ =>
    obtain ⟨rfl, he⟩ := List.append_inj' last rfl
    cases he
    cases call

theorem notices (h : Serial initial waits trace) {notices : List Event}
    (all : ∀ e ∈ notices, e.isNotice = true) :
    Serial initial waits (trace ++ notices) := by
  induction notices generalizing trace with
  | nil => rwa [List.append_nil]
  | cons e rest ih =>
    rw [List.append_cons]
    refine ih (h.other ?_ ?_) fun e he => all e (List.mem_cons_of_mem _ he)
    · have he := all e List.mem_cons_self
      cases e <;> first | rfl | cases he
    · have he := all e List.mem_cons_self
      cases e <;> first | rfl | cases he

end Serial

theorem latestId_notices (initial : Json) (trace : List Event) {notices : List Event}
    (all : ∀ e ∈ notices, e.isNotice = true) :
    latestId initial (trace ++ notices) = latestId initial trace := by
  induction notices generalizing trace with
  | nil => rw [List.append_nil]
  | cons e rest ih =>
    rw [List.append_cons, ih _ fun e he => all e (List.mem_cons_of_mem _ he), latestId_append]
    have he := all e List.mem_cons_self
    cases e <;> first | rfl | cases he

namespace Coordinator

def Stance.Calm (epoch : Nat) : Stance → Prop
  | calls call => call.epoch = epoch
  | loads _ | fills _ _ => False
  | rests | begins _ | holds _ _ => True

def InCall (φ : Phase) (m : Coordinator) : Prop := ∃ t call, Takes φ m t (.calls call)

structure Serialized (initial : Json) (φ : Phase) (m : Coordinator) : Prop where
  serial : ∃ waits, Serial initial waits m.world.trace ∧ (waits = true ↔ InCall φ m)
  id : (latestId initial m.world.trace).Equals (session m).canvas.diagramId
  calm : ∀ t s, Takes φ m t s → s.Calm m.world.epoch

section Serialized

variable {initial : Json} {φ ψ : Phase} {m k : Coordinator}

theorem Move.calm (h : Move φ m ψ k) (sound : Sound φ m)
    (calm : ∀ t s, Takes φ m t s → s.Calm m.world.epoch) :
    ∀ t s, Takes ψ k t s → s.Calm m.world.epoch := by
  intro t s hs
  cases h.came sound hs with
  | stays h => exact calm t s h
  | rests | fires => trivial
  | turns task h =>
    have own := calm t _ (.turn task rfl)
    generalize φ.stance = s' at h own
    cases h with
    | same => exact own
    | rest | flush | take => trivial
    | call current built => exact current
    | load id => exact own.elim

theorem Move.inCall_iff (h : Move φ m ψ k) (sound : Sound φ m)
    (begun : ∀ call, ψ.stance = .calls call → φ.stance = .calls call ∨ φ = .idle)
    (lasts : ∀ t call, φ.task? = some t → φ.stance = .calls call → Takes ψ k t (.calls call)) :
    InCall ψ k ↔ InCall φ m := by
  constructor
  · rintro ⟨t, call, hs⟩
    refine ⟨t, call, ?_⟩
    cases hs with
    | turn task stance =>
      cases h.came sound (.turn task stance) with
      | stays h => exact h
      | turns task' _ =>
        rcases begun call stance with own | rfl
        · exact .turn task' own
        · cases task'
    | place other hp stance =>
      cases h.placed sound t with
      | keeps same turn => exact .place (fun task => other (turn task)) (same.symm.trans hp) stance
      | changes _ comes =>
        cases comes _ hp with
        | rests rests => cases (stanceOf_of_rests rests).symm.trans stance
        | awaits _ phase =>
          subst phase
          exact .turn rfl stance
        | fires | linesUp | loads => cases stance
  · rintro ⟨t, call, hs⟩
    refine ⟨t, call, ?_⟩
    by_cases task : φ.task? = some t
    · cases hs with
      | place other => exact absurd task other
      | turn _ stance => exact lasts t call task stance
    · exact h.remains sound hs task

theorem Serialized.pass (h : Serialized initial φ m) (sound : Sound φ m) (move : Move φ m ψ k)
    (epoch : k.world.epoch = m.world.epoch)
    (id : (session k).canvas.diagramId = (session m).canvas.diagramId)
    (trace : ∃ notices, k.world.trace = m.world.trace ++ notices ∧ ∀ e ∈ notices, e.isNotice = true)
    (begun : ∀ call, ψ.stance = .calls call → φ.stance = .calls call ∨ φ = .idle)
    (lasts : ∀ t call, φ.task? = some t → φ.stance = .calls call → Takes ψ k t (.calls call)) :
    Serialized initial ψ k := by
  obtain ⟨notices, ht, hn⟩ := trace
  obtain ⟨waits, hs, hw⟩ := h.serial
  refine ⟨⟨waits, ht ▸ hs.notices hn, hw.trans (move.inCall_iff sound begun lasts).symm⟩, ?_,
    epoch ▸ move.calm sound h.calm⟩
  rw [ht, latestId_notices initial _ hn, id]
  exact h.id

theorem sending_of_calls {p : Debounce.Point Point Wait} {call : SaveCall}
    (stance : stanceOf p = .calls call) : ∃ after, p = .own (.sending call after) := by
  cases p with
  | window _ | quiet _ | pause _ _ => cases stance
  | own a =>
    cases a with
    | sending call' after =>
      cases stance
      exact ⟨after, rfl⟩
    | request _ | save _ _ | queued _ _ _ | flush | drain | close | spawned _ | load _
    | loading _ _ => cases stance

/-- Nobody calls but the task that has the lock. -/
theorem not_inCall (sound : Sound φ m) (locks : φ.locks = true)
    (own : ∀ call, φ.stance ≠ .calls call) : ¬ InCall φ m := by
  rintro ⟨t, call, hs⟩
  cases hs with
  | turn _ stance => exact own call stance
  | place other hp stance =>
    obtain ⟨after, rfl⟩ := sending_of_calls stance
    cases locks.symm.trans (sound.sends t ⟨call, after, hp⟩ other).2

theorem Serialized.call {t : TaskId} {o : Overrides} {epoch : Nat} {payload : Payload}
    (h : Serialized initial (.holds t o epoch) m) (sound : Sound (.holds t o epoch) m)
    (current : epoch = m.world.epoch) (built : payloadOf o (session m) = .ok payload) :
    Serialized initial (.calls t (callOf payload epoch m)) (calling payload m) := by
  obtain ⟨waits, hs, hw⟩ := h.serial
  have silent : ¬ InCall (.holds t o epoch) m := not_inCall sound rfl fun _ h => nomatch h
  obtain rfl : waits = false := by simpa [silent] using hw
  refine ⟨⟨true, hs.call m.loop.now _ payload h.id, ?_⟩, ?_,
    (Move.call t current built).calm sound h.calm⟩
  · exact ⟨fun _ => ⟨t, _, .turn rfl rfl⟩, fun _ => rfl⟩
  · change (latestId initial (m.world.trace ++ [_])).Equals _
    rw [latestId_append]
    exact h.id

theorem hearing_id {call : SaveCall} {m : Coordinator} {latest : Json}
    (current : call.epoch = m.world.epoch) (h : latest.Equals (session m).canvas.diagramId) :
    (Event.identify latest (.answered m.loop.now (answerTo call m).2.toOption)).Equals
      (session (hearing call m)).canvas.diagramId := by
  unfold hearing
  split
  · rename_i record hr
    have lasts : ¬ call.epoch ≠ (answered call m).world.epoch := fun hn => hn current
    rw [hr]
    unfold recordSaved
    rw [if_neg lasts]
    change ((record.get "_id").orElse latest).Equals _
    unfold Json.orElse
    simp only
    cases ht : (record.get "_id").truthy with
    | false => exact h
    | true =>
      rw [if_pos rfl]
      cases ha : (record.get "_id").agrees (session (answered call m)).canvas.diagramId with
      | true => exact .inr ha
      | false => exact .inl rfl
  · rename_i f hr
    rw [hr]
    exact h

theorem Serialized.hear {t : TaskId} {call : SaveCall} (h : Serialized initial (.calls t call) m)
    (sound : Sound (.calls t call) m) : Serialized initial (.leaves t) (hearing call m) := by
  obtain ⟨waits, hs, hw⟩ := h.serial
  obtain ⟨-, -, _, _, same⟩ := hearing_same call m
  have trace : (hearing call m).world.trace =
      m.world.trace ++ [.answered m.loop.now (answerTo call m).2.toOption] := by rw [same]; rfl
  have epoch : (hearing call m).world.epoch = m.world.epoch := by rw [same]; rfl
  obtain rfl : waits = true := hw.mpr ⟨t, call, .turn rfl rfl⟩
  have current : call.epoch = m.world.epoch := h.calm t _ (.turn rfl rfl)
  refine ⟨⟨false, trace ▸ hs.answer _ _, (fun hf => nomatch hf), fun inCall => ?_⟩, ?_,
    epoch ▸ (Move.hear t call m).calm sound h.calm⟩
  · exact absurd inCall (not_inCall ((Move.hear t call m).sound sound) rfl fun _ h => nomatch h)
  · rw [trace, latestId_append]
    exact hearing_id current h.id

theorem Serialized.joined (h : Serialized initial .idle m) (keeps : m.world.Keeps k.world)
    (entered : ∀ t s, Takes ψ k t s → Takes .idle m t s ∨ s = .rests ∨ ∃ o, s = .begins o)
    (lasts : ∀ t s, Takes .idle m t s → Takes ψ k t s) : Serialized initial ψ k := by
  obtain ⟨notices, ht, hn⟩ := keeps.trace
  obtain ⟨waits, hs, hw⟩ := h.serial
  have inCall : InCall ψ k ↔ InCall .idle m := by
    refine ⟨fun ⟨t, call, hs⟩ => ⟨t, call, ?_⟩, fun ⟨t, call, hs⟩ => ⟨t, call, lasts t _ hs⟩⟩
    rcases entered t _ hs with h | h | ⟨_, h⟩
    · exact h
    · cases h
    · cases h
  refine ⟨⟨waits, ht ▸ hs.notices hn, hw.trans inCall.symm⟩, ?_, fun t s hs => ?_⟩
  · rw [ht, latestId_notices initial _ hn]
    exact keeps.diagramId ▸ h.id
  · rw [keeps.epoch]
    rcases entered t s hs with h' | rfl | ⟨_, rfl⟩
    · exact h.calm t s h'
    · trivial
    · trivial

end Serialized

theorem begins_of_loadless (e : Errand) (h : e.loads = false) :
    stanceOf e.point = .rests ∨ ∃ o, stanceOf e.point = .begins o := by
  cases e with
  | load _ => cases h
  | save members => exact .inr ⟨_, rfl⟩
  | flush | drain | close | pause _ => exact .inl rfl

theorem serialized_kept (initial : Json) :
    Kept (fun o => o.loads = false) (Serialized initial) where
  talk := by
    intro o m k _ sound talk h
    refine h.joined talk.keeps (fun t s hs => ?_) fun t s hs => talk.remains sound hs
    rcases talk.takes sound hs with h | h | ⟨o, _, h⟩
    · exact .inl h
    · exact .inr (.inl h)
    · exact .inr (.inr ⟨o, h⟩)
  spawn := by
    intro e m allowed sound h
    refine h.joined (.refl _) (fun t s hs => ?_) fun t s hs => remains_spawn sound hs
    rcases takes_spawn sound hs with h | rfl
    · exact .inl h
    · exact .inr (begins_of_loadless e allowed)
  enter := by
    intro e m allowed sound h
    refine h.joined (.refl _) (fun t s hs => ?_) fun t s hs => remains_enter sound hs
    rcases takes_enter sound hs with h | rfl
    · exact .inl h
    · exact .inr (begins_of_loadless e allowed)
  advance := by
    intro m l ha h
    refine h.joined (.refl _) (fun t s hs => .inl (takes_advance ha hs)) fun t s hs => ?_
    exact hs.of_standing (Loop.standing_advance? ha t).symm
  move := by
    intro φ m ψ k sound move h
    have quiet : ∃ notices, m.world.trace = m.world.trace ++ notices ∧
        ∀ e ∈ notices, e.isNotice = true :=
      ⟨[], (List.append_nil _).symm, fun _ he => nomatch he⟩
    have made := move
    cases move with
    | call t current built => exact h.call sound current built
    | hear t call => exact h.hear sound
    | skip | leaveGroup | count | resume | dequeue | reply =>
      exact h.pass sound made rfl rfl quiet (fun _ _ => .inr rfl) fun _ _ ht => nomatch ht
    | flush | fire | cancel | finish | sleep | join | gather | take | lineUp | drop =>
      exact h.pass sound made rfl rfl quiet (fun _ h => nomatch h) fun _ _ _ h => nomatch h
    | save | request =>
      exact h.pass sound made rfl rfl quiet (fun _ h => nomatch h) fun _ _ _ h => nomatch h
    | free t apart =>
      refine h.pass sound made rfl rfl quiet (fun _ h => nomatch h) fun _ _ _ hc => ?_
      rcases stanceOf_of_apart apart with rests | ⟨_, begins⟩
      · cases rests.symm.trans hc
      · cases begins.symm.trans hc
    | note =>
      exact h.pass sound made rfl rfl quiet (fun _ => .inl) fun _ _ ht hc => .turn ht hc
    | notify φ _ n =>
      exact h.pass sound made rfl rfl
        ⟨[.note n], rfl, fun _ he => List.mem_singleton.mp he ▸ rfl⟩ (fun _ => .inl)
        fun _ _ ht hc => .turn ht hc
    | await t call after seconds =>
      refine h.pass sound made rfl rfl quiet (fun _ h => nomatch h) fun u call' hu hc => ?_
      obtain rfl := Option.some.inj hu
      obtain ⟨p, hp, -⟩ := sound.stands
      refine .place nofun (p := .own (.sending call after)) ?_ hc
      rw [Loop.standing_sleep, if_pos rfl, hp]
      rfl
    | unsubscribe t =>
      obtain ⟨channel, started, same⟩ := unsubscribe_world m
      exact h.pass sound made (by rw [same]) (congrArg (·.session.canvas.diagramId) same)
        (by rw [same]; exact quiet) (fun _ h => nomatch h) fun _ _ _ h => nomatch h
    | release t =>
      have same := release_world m
      exact h.pass sound made (by rw [same]) (congrArg (·.session.canvas.diagramId) same)
        (by rw [same]; exact quiet) (fun _ h => nomatch h) fun _ _ _ h => nomatch h
    | load t id | loading t id reply | awaitLoad t id reply | refuse t id reply | fill t id reply =>
      exact (h.calm t _ (.turn rfl rfl)).elim

theorem serialized_fresh (settings : Settings) (delay : Float) (start : Session)
    (channel : Channel Inbound Unit) (notifier : Notifier Unit) (backend : Backend) :
    Serialized start.canvas.diagramId .idle
      (fresh settings delay start channel notifier backend) where
  serial := ⟨false, .nil, (fun h => nomatch h), fun ⟨_, _, h⟩ => (not_takes_fresh h).elim⟩
  id := .inl rfl
  calm _ _ h := (not_takes_fresh h).elim

/-- In a run without loads no call of the backend is made before the last has been answered, and each
    passes the id of the latest record that had one, or else the one that the session began with; a
    text is passed as it is. So once a record has had an id, no call passes none. -/
theorem saves_serialized (settings : Settings) (delay : Float) (start : Session)
    (channel : Channel Inbound Unit) (notifier : Notifier Unit) (backend : Backend)
    (operations : List Operation) (loadless : ∀ o ∈ operations, o.loads = false) :
    let m := fresh settings delay start channel notifier backend
    let trace := (performAll operations m).world.trace
    (∀ before, before <+: trace →
      answers before ≤ calls before ∧ calls before ≤ answers before + 1) ∧
    ∀ before time id status payload, before ++ [.save time id status payload] <+: trace →
      calls before = answers before ∧
      (latestId start.canvas.diagramId before).Equals id ∧
      (∀ s, latestId start.canvas.diagramId before = .str s → id = .str s) ∧
      (Identified before → id ≠ .null) := by
  intro m trace
  have sound : Sound .idle m := sound_fresh settings delay start channel notifier backend
  have final := (serialized_kept start.canvas.diagramId).performAll loadless sound
    (serialized_fresh settings delay start channel notifier backend)
  obtain ⟨waits, serial, -⟩ := final.serial
  refine ⟨fun before early => ?_, fun before time id status payload early => ?_⟩
  · obtain ⟨waits, hb⟩ := serial.of_prefix early
    have counts := hb.counts
    split at counts <;> omega
  · obtain ⟨waits, hb⟩ := serial.of_prefix early
    obtain ⟨settled, latest⟩ := hb.of_call
    refine ⟨settled.counts, latest, fun s hs => Json.eq_of_equals_str (hs ▸ latest),
      fun identified hn => ?_⟩
    have none := Json.eq_null_of_equals (hn ▸ latest)
    have given := truthy_latestId start.canvas.diagramId (.inr identified)
    rw [none] at given
    cases given

def slowSave : Backend := { saves := [{ delay := some 5.0 }] }

def dragDuringSave : List Operation :=
  [.enter (.save []), .postpone [], .turn, .advance, .turn, .turn, .turn, .advance, .turn, .turn,
   .turn]

/-- The second call waits for the answer to the first, which creates the diagram, and passes its id. -/
theorem saves_serialized_during_drag :
    let trace := (performAll dragDuringSave
      (fresh {} 1.0 {} {} { capacity := 50 } slowSave)).world.trace
    (∀ o ∈ dragDuringSave, o.loads = false) ∧ Identified (trace.take 2) ∧
      ∃ payload, trace.take 2 ++ [.save 5.0 (.str "diagram-1") .saving payload] <+: trace ∧
        calls (trace.take 2) = 1 ∧ answers (trace.take 2) = 1 ∧ Json.str "diagram-1" ≠ .null := by
  intro trace
  have loadless : ∀ o ∈ dragDuringSave, o.loads = false := by decide
  have called : trace.take 2 ++ [.save 5.0 (.str "diagram-1") .saving
      { text := some "", nodes := some [], edges := some [], errors := some [] }] <+: trace := by
    decide +kernel
  have identified : Identified (trace.take 2) :=
    ⟨5.0, .obj [("_id", .str "diagram-1")], by decide +kernel, by decide⟩
  obtain ⟨settled, -, -, named⟩ := (saves_serialized {} 1.0 {} {} { capacity := 50 } slowSave
    dragDuringSave loadless).2 _ _ _ _ _ called
  have once : answers (trace.take 2) = 1 := by decide +kernel
  exact ⟨loadless, identified, _, called, settled.trans once, once, named identified⟩

end Coordinator

end Sync

end SchemaDiagram
