import SchemaDiagram.Proofs.Drawing
import SchemaDiagram.Proofs.FreshSaves

/-!
Runs without loads and without overrides. One session lasts throughout, and all that a save may be
given is the schema of a committed edit. The work of tasks changes nothing that a save sends, so
every save sends the session as an operation has found it.
-/

set_option autoImplicit false

namespace SchemaDiagram

/-- A session but for its status and its id. -/
def Session.substance (s : Session) : Session := s.content.withDiagramId .null

namespace Sync

def Event.payload? : Event → Option Payload
  | save _ _ _ payload => some payload
  | load _ _ | loadStarter _ | sent _ | answered _ _ | note _ => none

theorem Event.mem_payloads {payload : Payload} {trace : List Event} :
    payload ∈ trace.filterMap payload? ↔ ∃ time id status, save time id status payload ∈ trace := by
  rw [List.mem_filterMap]
  constructor
  · rintro ⟨e, he, own⟩
    cases e with
    | save time id status _ =>
      cases own
      exact ⟨time, id, status, he⟩
    | sent _ | answered _ _ | load _ _ | loadStarter _ | note _ => cases own
  · rintro ⟨time, id, status, he⟩
    exact ⟨_, he, rfl⟩

open Decode (text nullable)

def Errand.plain : Errand → Bool
  | save members => members.isEmpty
  | flush | drain | pause _ => true
  | close | load _ => false

def Operation.plain : Operation → Bool
  | spawn e | enter e => e.plain
  | postpone members => members.isEmpty
  | start | parse _ | deliver _ | setConnected _ | edit _ | moveTable _ _ | turn | advance => true

namespace Coordinator

def Stance.Plain (asks : Overrides → Prop) (epoch : Nat) : Stance → Prop
  | begins o => asks o
  | holds o e => asks o ∧ e = epoch
  | loads _ | fills _ _ => False
  | rests | calls _ => True

structure Plain (asks : Overrides → Prop) (φ : Phase) (m : Coordinator) : Prop where
  pending : ∀ o, m.debouncer.pending = some o → asks o
  stances : ∀ t s, Takes φ m t s → s.Plain asks m.world.epoch

structure Untouched (m k : Coordinator) : Prop where
  substance : (session k).substance = (session m).substance
  epoch : k.world.epoch = m.world.epoch
  peer : k.world.channel.peer = m.world.channel.peer
  settings : k.world.settings = m.world.settings

/-- Between two moments nothing is saved but the session, with what is asked for. -/
def Saves (asks : Overrides → Prop) (m k : Coordinator) : Prop :=
  ∃ events, k.world.trace = m.world.trace ++ events ∧
    ∀ time id status payload, Event.save time id status payload ∈ events →
      ∃ ov, asks ov ∧ payloadOf ov (session m) = .ok payload

section Untouched

variable {asks : Overrides → Prop} {φ ψ : Phase} {m k n : Coordinator}

theorem payloadOf_of_substance {ov : Overrides} {s s' : Session}
    (same : s'.substance = s.substance) : payloadOf ov s' = payloadOf ov s := by
  have blind (s : Session) : payloadOf ov s.substance = payloadOf ov s := rfl
  rw [← blind s', same, blind]

theorem payloadOf_plain {ov : Overrides} (s : Session) (members : ov.members = []) :
    payloadOf ov s =
      (fun t => Payload.mk t (ov.schema.or s.document.schema) (some s.diagram.nodes)
        (some s.diagram.edges) (some s.document.errors) none) <$>
        (nullable text s.document.text).within (.key "dbml_text") := by
  unfold payloadOf part
  simp only [members]
  change _ <*> _ <*> _ <*> _ <*> _ <*> _ = _
  cases (nullable text s.document.text).within (.key "dbml_text") <;> rfl

theorem payload_parts {ov : Overrides} {s : Session} {payload : Payload}
    (members : ov.members = []) (built : payloadOf ov s = .ok payload) :
    payload.schema = ov.schema.or s.document.schema ∧ payload.nodes = some s.diagram.nodes ∧
      payload.edges = some s.diagram.edges := by
  rw [payloadOf_plain s members] at built
  cases read : (nullable text s.document.text).within (.key "dbml_text") with
  | rejected ds =>
    rw [read] at built
    cases built
  | ok t =>
    rw [read] at built
    cases built
    exact ⟨rfl, rfl, rfl⟩

theorem text_of_built {ov : Overrides} {s : Session} {payload : Payload}
    (bare : ov.members = []) (built : payloadOf ov s = .ok payload) :
    Json.ofText? payload.text = s.document.text := by
  rw [payloadOf_plain s bare] at built
  cases given : s.document.text with
  | null | str _ =>
    rw [given] at built
    cases built
    rfl
  | bool _ | int _ | float _ | arr _ | obj _ =>
    rw [given] at built
    cases built

namespace Untouched

theorem refl (m : Coordinator) : Untouched m m := ⟨rfl, rfl, rfl, rfl⟩

theorem trans (h : Untouched m k) (h' : Untouched k n) : Untouched m n :=
  ⟨h'.substance.trans h.substance, h'.epoch.trans h.epoch, h'.peer.trans h.peer,
    h'.settings.trans h.settings⟩

theorem schema (h : Untouched m k) :
    (session k).document.schema = (session m).document.schema :=
  congrArg (fun s => s.document.schema) h.substance

theorem diagram (h : Untouched m k) : (session k).diagram = (session m).diagram :=
  congrArg (fun s => s.canvas.diagram) h.substance

theorem text (h : Untouched m k) : (session k).document.text = (session m).document.text :=
  congrArg (fun s => s.document.text) h.substance

end Untouched

theorem hearing_substance (call : SaveCall) (m : Coordinator) :
    (session (hearing call m)).substance = (session m).substance := by
  unfold hearing
  split
  · unfold recordSaved
    split
    · rfl
    · simp only
      split <;> rfl
  · rfl

theorem Move.untouched (h : Move φ m ψ k) {epoch : Nat} (plain : φ.stance.Plain asks epoch) :
    Untouched m k := by
  cases h with
  | load | fill => exact plain.elim
  | hear t call =>
    obtain ⟨-, -, _, _, same⟩ := hearing_same call m
    exact ⟨hearing_substance call m, by rw [same]; rfl, by rw [same]; rfl, by rw [same]; rfl⟩
  | release t =>
    have same := release_world m
    exact ⟨congrArg (·.session.substance) same, by rw [same], by rw [same], by rw [same]⟩
  | unsubscribe t =>
    unfold Coordinator.unsubscribe
    split <;> exact ⟨rfl, rfl, rfl, rfl⟩
  | flush | cancel =>
    have same := cancel_world m
    exact ⟨congrArg (·.session.substance) same, by rw [same], by rw [same], by rw [same]⟩
  | skip | leaveGroup | count | resume | dequeue | reply | note | notify | free | save | request
  | loading | fire | finish | sleep | join | gather | take | lineUp | drop | call | await
  | awaitLoad | refuse => exact ⟨rfl, rfl, rfl, rfl⟩

theorem Saves.refl (m : Coordinator) : Saves asks m m :=
  ⟨[], (List.append_nil _).symm, fun _ _ _ _ he => nomatch he⟩

theorem Saves.trans (h : Saves asks m k) (h' : Saves asks k n) (same : Untouched m k) :
    Saves asks m n := by
  obtain ⟨events, trace, own⟩ := h
  obtain ⟨events', trace', own'⟩ := h'
  refine ⟨events ++ events', ?_, fun time id status payload he => ?_⟩
  · rw [trace', trace, List.append_assoc]
  · rcases List.mem_append.mp he with he | he
    · exact own time id status payload he
    · obtain ⟨ov, asked, built⟩ := own' time id status payload he
      exact ⟨ov, asked, (payloadOf_of_substance same.substance).symm.trans built⟩

theorem perform_silent (sound : Sound .idle m) {o : Operation} (talks : o.works = false) :
    ∀ time id status payload, Event.save time id status payload ∈ (perform m o).world.trace →
      Event.save time id status payload ∈ m.world.trace := by
  intro time id status payload he
  have happens := perform_happens sound o
  generalize perform m o = k at happens he
  cases happens with
  | exchange _ exchange =>
    obtain ⟨notices, trace, quiet⟩ := exchange.talk.keeps.trace
    rw [trace] at he
    exact (List.mem_append.mp he).resolve_right fun he => nomatch quiet _ he
  | spawn | enter | turn | advance => cases talks
  | still => exact he

theorem SavesOnly.saves (h : SavesOnly asks m k) : Saves asks m k := by
  obtain ⟨events, trace, own⟩ := h
  exact ⟨events, trace, fun time id status payload he => (own time id status payload he).2⟩

end Untouched

namespace Stance.Plain

variable {asks asks' : Overrides → Prop} {epoch : Nat} {s : Stance}

theorem mono (h : s.Plain asks epoch) (more : ∀ ov, asks ov → asks' ov) : s.Plain asks' epoch := by
  cases s with
  | begins ov => exact more ov h
  | holds ov e => exact ⟨more ov h.1, h.2⟩
  | rests | calls _ => trivial
  | loads _ | fills _ _ => exact h.elim

theorem of_point {e : Errand} (plain : e.plain = true)
    (given : ∀ members, e = .save members → asks { members := members }) :
    (stanceOf e.point).Plain asks epoch := by
  cases e with
  | save members => exact given members rfl
  | flush | drain | pause _ => trivial
  | close | load _ => cases plain

end Stance.Plain

namespace Plain

variable {asks asks' : Overrides → Prop} {φ ψ : Phase} {m k : Coordinator} {e : Errand}

theorem mono (h : Plain asks φ m) (more : ∀ ov, asks ov → asks' ov) : Plain asks' φ m :=
  ⟨fun ov waits => more ov (h.pending ov waits), fun t s hs => (h.stances t s hs).mono more⟩

theorem phase (h : Plain asks φ m) : φ.stance.Plain asks m.world.epoch := by
  cases task : φ.task? with
  | some t => exact h.stances t _ (.turn task rfl)
  | none =>
    cases φ with
    | idle => trivial
    | resumes | free | begins | holds | calls | leaves | fills => cases task

theorem move (h : Plain asks φ m) (sound : Sound φ m) (move : Move φ m ψ k) : Plain asks ψ k := by
  have same := move.untouched h.phase
  refine ⟨fun ov waits => h.pending ov (move.pending (fun t id reply hφ => ?_) waits),
    fun t s hs => ?_⟩
  · subst hφ
    exact (h.stances t _ (.turn rfl rfl)).elim
  · rw [same.epoch]
    cases move.came sound hs with
    | stays hs => exact h.stances t s hs
    | rests => trivial
    | fires waits => exact h.pending _ waits
    | turns task turn =>
      have own := h.stances t _ (.turn task rfl)
      generalize φ.stance = s' at turn own
      cases turn with
      | same => exact own
      | rest | call => trivial
      | flush waits => exact h.pending _ waits
      | take o => exact ⟨own, rfl⟩
      | load id => exact own.elim

theorem moves (h : Plain asks φ m) (sound : Sound φ m) (moves : Moves φ m ψ k) :
    Plain asks ψ k ∧ Untouched m k ∧ Saves asks m k := by
  have each {φ ψ : Phase} {m k : Coordinator} (h : Plain asks φ m) (sound : Sound φ m)
      (move : Move φ m ψ k) : Plain asks ψ k ∧ Untouched m k ∧ Saves asks m k := by
    refine ⟨h.move sound move, move.untouched h.phase, SavesOnly.saves (move.savesOnly ?_)⟩
    rintro t ov rfl
    exact (h.stances t _ (.turn rfl rfl)).1
  induction moves with
  | refl => exact ⟨h, .refl _, .refl _⟩
  | last move => exact each h sound move
  | next move _ _ ih =>
    obtain ⟨plain, same, saves⟩ := each h sound move
    obtain ⟨plain', same', saves'⟩ := ih plain (move.sound sound)
    exact ⟨plain', same.trans same', saves.trans saves' same⟩

theorem talk (h : Plain asks .idle m) (sound : Sound .idle m) (talk : Talk asks m k) :
    Plain asks .idle k := by
  refine ⟨fun ov waits => (talk.pending waits).elim (h.pending ov) id, fun t s hs => ?_⟩
  rw [talk.keeps.epoch]
  rcases talk.takes sound hs with hs | rfl | ⟨ov, asked, rfl⟩
  · exact h.stances t s hs
  · trivial
  · exact asked

theorem spawn (h : Plain asks .idle m) (sound : Sound .idle m) (plain : e.plain = true)
    (asks_all : ∀ ov, asked m (.spawn e) ov → asks ov) :
    Plain asks .idle { m with loop := (m.loop.spawn e.point).1 } := by
  refine ⟨h.pending, fun t s hs => ?_⟩
  rcases takes_spawn sound hs with hs | rfl
  · exact h.stances t s hs
  · exact .of_point plain fun members he => asks_all _ (he ▸ rfl)

theorem enter (h : Plain asks .idle m) (sound : Sound .idle m) (plain : e.plain = true)
    (asks_all : ∀ ov, asked m (.enter e) ov → asks ov) :
    Plain asks (.resumes m.loop.fresh e.point) { m with loop := (m.loop.enter e.point).1 } := by
  refine ⟨h.pending, fun t s hs => ?_⟩
  rcases takes_enter sound hs with hs | rfl
  · exact h.stances t s hs
  · exact .of_point plain fun members he => asks_all _ (he ▸ rfl)

/-- What is at work in a plain run saves the session as it was found by the operation. -/
theorem perform (h : Plain asks .idle m) (sound : Sound .idle m) {o : Operation}
    (plain : o.plain = true) (asks_all : ∀ ov, asked m o ov → asks ov) :
    Plain asks .idle (perform m o) ∧ Saves asks m (perform m o) ∧
      (o.works = true → Untouched m (perform m o)) := by
  have happens := perform_happens sound o
  generalize Coordinator.perform m o = k at happens ⊢
  cases happens with
  | exchange talks exchange =>
    have told : Talk asks m k := exchange.talk.mono asks_all
    exact ⟨h.talk sound told, SavesOnly.saves (.of_notices told.keeps.trace),
      fun works => nomatch talks.symm.trans works⟩
  | spawn e =>
    exact ⟨h.spawn sound plain asks_all, .refl m,
      fun _ => ⟨rfl, rfl, rfl, rfl⟩⟩
  | @enter e _ turns =>
    obtain ⟨plain, same, saves⟩ := (h.enter sound plain asks_all).moves (sound.enter _) turns
    exact ⟨plain, saves, fun _ => ⟨same.substance, same.epoch, same.peer, same.settings⟩⟩
  | turn turns =>
    obtain ⟨plain, same, saves⟩ := h.moves sound turns
    exact ⟨plain, saves, fun _ => same⟩
  | advance ha =>
    exact ⟨⟨h.pending, fun t s hs => h.stances t s (takes_advance ha hs)⟩, .refl m,
      fun _ => ⟨rfl, rfl, rfl, rfl⟩⟩
  | still => exact ⟨h, .refl m, fun _ => .refl m⟩

theorem performAll (h : Plain (fun _ => False) .idle m) (sound : Sound .idle m)
    {operations : List Operation} (plain : ∀ o ∈ operations, o.plain = true) :
    Plain (AskedSince m operations) .idle (performAll operations m) := by
  induction operations using List.reverseRecOn with
  | nil => exact h.mono fun _ => False.elim
  | append_singleton passed o ih =>
    rw [performAll_append]
    have earlier := (ih fun o ho => plain o (List.mem_append_left _ ho)).mono
      fun _ => AskedSince.earlier (o := o)
    exact (earlier.perform (sound.performAll passed) (plain o (by simp)) fun _ => AskedSince.last).1

theorem fresh (settings : Settings) (delay : Float) (start : Session)
    (channel : Channel Inbound Unit) (notifier : Notifier Unit) (backend : Backend) :
    Plain (fun _ => False) .idle (fresh settings delay start channel notifier backend) :=
  ⟨nofun, fun _ _ h => (not_takes_fresh h).elim⟩

end Plain

/-- What is asked to be saved in a plain run is the session as it will be, or with the schema of an
    edit that has passed. -/
theorem AskedSince.plain {m : Coordinator} {operations : List Operation} {ov : Overrides}
    (plain : ∀ o ∈ operations, o.plain = true) (h : AskedSince m operations ov) :
    ov.members = [] ∧ (ov.schema = none ∨ ∃ earlier e schema, earlier ++ [.edit e] <+: operations ∧
      ((session (Coordinator.performAll earlier m)).attempt
        (Coordinator.performAll earlier m).world.settings.grid e).2.schema? = some schema ∧
      ov.schema = some schema) := by
  obtain ⟨earlier, o, early, asked⟩ := h
  have own : o.plain = true := plain o (early.subset (by simp))
  cases o with
  | edit e =>
    rcases asked with rfl | ⟨schema, passed, rfl⟩
    · exact ⟨rfl, .inl rfl⟩
    · exact ⟨rfl, .inr ⟨earlier, e, schema, early, passed, rfl⟩⟩
  | parse _ | deliver _ | moveTable _ _ =>
    cases asked
    exact ⟨rfl, .inl rfl⟩
  | postpone members =>
    cases asked
    exact ⟨List.isEmpty_iff.mp own, .inl rfl⟩
  | spawn e | enter e =>
    cases e with
    | save members =>
      cases asked
      exact ⟨List.isEmpty_iff.mp own, .inl rfl⟩
    | flush | drain | close | load _ | pause _ => exact asked.elim
  | start | setConnected _ | turn | advance => exact asked.elim

end Coordinator

end Sync

end SchemaDiagram
