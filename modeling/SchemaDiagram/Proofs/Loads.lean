import Mathlib.Data.List.Induction
import SchemaDiagram.Proofs.SaveTurns

/-!
What a load makes of the session. From its start to its reply the session is blank, and then it is the
record's and nothing else, provided that nothing older than the load has still a part in the session: no
save that has not begun, and no load that waits for a record.
-/

set_option autoImplicit false

namespace SchemaDiagram

def Session.content (s : Session) : Session := s.withStatus .idle

namespace Sync.Coordinator

def opened (grid : Grid) (id : Json) : Result Json → Session
  | .error _ => {}
  | .ok record =>
    match membersIn record with
    | .error _ => {}
    | .ok members =>
      let titled : Session := Session.withText {} (textIn members)
      let s := if id.truthy then titled.withDiagramId ((member members "_id").orElse id) else titled
      if (member members "ast").truthy then
        match drawnIn grid members with
        | .error _ => s
        | .ok (schema, d) => (s.withSchema (some schema)).withDiagram d
      else s

def Starts (m : Coordinator) (o : Operation) (t : TaskId) (id : Json) : Prop :=
  o = .enter (.load id) ∧ t = m.loop.fresh ∨
    o = .turn ∧ m.loop.standing t = some (.own (.load id)) ∧
      ∃ signal rest, m.loop.ready = .step t signal :: rest

/-- No other task has still to begin a save, and none waits for a record. -/
def Settled (m : Coordinator) (t : TaskId) : Prop :=
  ∀ u s, u ≠ t → Takes .idle m u s → (∀ o, s ≠ .begins o) ∧
    ∀ id reply, s = .fills id reply → ∃ f, Backend.failure? reply = some f

def spent (p : Debounce.Point Point Wait) : Bool :=
  match stanceOf p with
  | .begins _ => false
  | .fills _ reply => (Backend.failure? reply).isSome
  | .rests | .holds _ _ | .calls _ | .loads _ => true

theorem settled_of_spent {m : Coordinator} {t : TaskId} (sound : Sound .idle m)
    (all : ∀ u < m.loop.fresh, u ≠ t → (m.loop.standing u).all spent = true) : Settled m t := by
  intro u s hu hs
  cases hs with
  | turn task => cases task
  | place _ stands stance =>
    subst stance
    have done := all u (sound.orderly.standing_below stands) hu
    rw [stands, Option.all_some] at done
    unfold spent at done
    refine ⟨fun o begins => ?_, fun id reply fills => ?_⟩
    · simp [begins] at done
    · rw [fills] at done
      exact Option.isSome_iff_exists.mp done

section Fill

variable {m : Coordinator}

theorem emit_silent (message : Message) (silent : m.world.channel.peer = []) :
    (channelHost.emit message m).2 = none ∧
      session (channelHost.emit message m).1 = session m ∧
      (channelHost.emit message m).1.debouncer = m.debouncer := by
  have answers : (channelHost.channel m).answers message.1 message.2 = [] := by
    unfold Channel.answers
    rw [show (channelHost.channel m).peer = [] from silent]
    rfl
  unfold ChannelHost.emit
  simp only [answers]
  split <;> exact ⟨rfl, rfl, rfl⟩

theorem parse_silent (silent : m.world.channel.peer = []) :
    (session (parse (session m).document.text m).1).content = (session m).content ∧
      (parse (session m).document.text m).1.debouncer = m.debouncer := by
  unfold parse
  split
  · obtain ⟨heard, same, debouncer⟩ := emit_silent
      (m := requesting (session m).document.text m) (parseRequest (session m).document.text m) silent
    rcases hk : channelHost.emit (parseRequest (session m).document.text m)
      (requesting (session m).document.text m) with ⟨k, f⟩
    rw [hk] at heard same debouncer
    obtain rfl : f = none := heard
    refine ⟨?_, debouncer⟩
    change (session k).content = _
    rw [show session k = _ from same]
    rfl
  · exact ⟨rfl, rfl⟩

theorem furnish_silent {members : List (String × Json)} (silent : m.world.channel.peer = [])
    (titled : (session m).document.text = textIn members) :
    (session (furnish members m).1).content =
        (if (member members "ast").truthy then
          match drawnIn m.world.settings.grid members with
          | .error _ => (session m).content
          | .ok (schema, d) => ((session m).content.withSchema (some schema)).withDiagram d
        else (session m).content) ∧
      (furnish members m).1.debouncer = m.debouncer := by
  unfold furnish
  split
  · cases drawnIn m.world.settings.grid members with
    | error f => exact ⟨rfl, rfl⟩
    | ok r => exact ⟨rfl, rfl⟩
  · split
    · rw [← titled]
      have parsed := parse_silent silent
      rcases hk : parse (session m).document.text m with ⟨k, r⟩
      rw [hk] at parsed
      cases r <;> exact parsed
    · exact ⟨rfl, rfl⟩

theorem fill_silent (id record : Json) (silent : m.world.channel.peer = []) :
    ((session m).content = {} →
      (session (fill id record m).1).content = opened m.world.settings.grid id (.ok record)) ∧
      (fill id record m).1.debouncer = m.debouncer := by
  unfold fill
  unfold opened
  simp only
  cases membersIn record with
  | error f => exact ⟨fun blank => blank, rfl⟩
  | ok members =>
    have kept : (entitled id members m).world.channel = m.world.channel ∧
        (entitled id members m).world.settings = m.world.settings ∧
        (entitled id members m).debouncer = m.debouncer ∧
        (session (entitled id members m)).document.text = textIn members := by
      unfold entitled
      split <;> exact ⟨rfl, rfl, rfl, rfl⟩
    obtain ⟨channel, settings, debouncer, titled⟩ := kept
    obtain ⟨content, same⟩ := furnish_silent (by rw [channel]; exact silent) titled
    refine ⟨fun blank => ?_, same.trans debouncer⟩
    have entitled_content : (session (entitled id members m)).content =
        if id.truthy then (Session.withText {} (textIn members)).withDiagramId
          ((member members "_id").orElse id) else Session.withText {} (textIn members) := by
      have from_blank : session m = Session.withStatus {} (session m).document.status := by
        rw [← blank]
        rfl
      unfold entitled
      split
      · change (((session m).withText _).withDiagramId _).content = _
        rw [from_blank]
        rfl
      · change ((session m).withText _).content = _
        rw [from_blank]
        rfl
    rw [settings, entitled_content] at content
    exact content

theorem fill_keeps (id record : Json) (m : Coordinator) :
    (fill id record m).1.world.epoch = m.world.epoch ∧
      (fill id record m).1.world.backend = m.world.backend ∧
      ∃ notices, (fill id record m).1.world.trace = m.world.trace ++ notices ∧
        ∀ e ∈ notices, e.isNotice = true := by
  unfold fill
  cases membersIn record with
  | error f => exact ⟨rfl, rfl, [], (List.append_nil _).symm, fun _ he => nomatch he⟩
  | ok members =>
    have kept : (entitled id members m).world.epoch = m.world.epoch ∧
        (entitled id members m).world.backend = m.world.backend ∧
        (entitled id members m).world.trace = m.world.trace := by
      unfold entitled
      split <;> exact ⟨rfl, rfl, rfl⟩
    obtain ⟨epoch, backend, trace⟩ := kept
    have keeps := (@furnish_exchange (fun _ => True) trivial members
      (entitled id members m)).talk.keeps
    exact ⟨keeps.epoch.trans epoch, keeps.backend.trans backend, trace ▸ keeps.trace⟩

theorem loaded_of_failure {id : Json} {reply : Reply} {f : Fault}
    (h : Backend.failure? reply = some f) : loaded id reply m = .error f := by
  unfold loaded Backend.answerLoad
  rw [h]

end Fill

def Stance.Fits (asks : Overrides → Prop) (made : SaveCall → Prop) (epoch : Nat) : Stance → Prop
  | begins o => asks o
  | holds o e => e = epoch → asks o
  | calls call => call.epoch = epoch → made call
  | fills _ reply => ∃ f, Backend.failure? reply = some f
  | rests | loads _ => True

abbrev Stance.Past (epoch : Nat) : Stance → Prop := Stance.Fits (fun _ => False) (fun _ => False) epoch

def Stance.Dated (now : Nat) : Stance → Prop
  | holds _ e => e ≤ now
  | calls call => call.epoch ≤ now
  | rests | begins _ | loads _ | fills _ _ => True

theorem Stance.Dated.mono {now later : Nat} {s : Stance} (h : s.Dated now) (le : now ≤ later) :
    s.Dated later := by
  cases s with
  | holds _ _ | calls _ => exact Nat.le_trans h le
  | rests | begins _ | loads _ | fills _ _ => trivial

theorem Stance.Dated.past {now : Nat} {s : Stance} (h : s.Dated now)
    (settled : (∀ o, s ≠ .begins o) ∧
      ∀ id reply, s = .fills id reply → ∃ f, Backend.failure? reply = some f) :
    s.Past (now + 1) := by
  cases s with
  | rests | loads _ => trivial
  | begins o => exact absurd rfl (settled.1 o)
  | fills id reply => exact settled.2 id reply rfl
  | holds _ _ | calls _ =>
    exact fun next => absurd (Nat.le_trans (Nat.le_of_eq next.symm) h) (Nat.not_succ_le_self _)

section Moves

variable {φ ψ : Phase} {m k : Coordinator} {t : TaskId} {s : Stance}

theorem Move.epoch_le (h : Move φ m ψ k) : m.world.epoch ≤ k.world.epoch := by
  cases h with
  | load t id => exact Nat.le_succ _
  | fill t id reply found => exact Nat.le_of_eq (fill_keeps id _ m).1.symm
  | hear t call =>
    obtain ⟨-, -, _, _, same⟩ := hearing_same call m
    exact Nat.le_of_eq (by rw [same]; rfl)
  | release t => exact Nat.le_of_eq (by rw [release_world])
  | unsubscribe t =>
    obtain ⟨_, _, same⟩ := unsubscribe_world m
    exact Nat.le_of_eq (by rw [same])
  | skip | leaveGroup | count | resume | dequeue | reply | note | notify | free | save | request
  | flush | loading | fire | cancel | finish | sleep | join | gather | take | lineUp | drop | call
  | await | awaitLoad | refuse => exact Nat.le_refl _

theorem epoch_kept (now : Nat) : Kept (fun _ => True) fun _ m => now ≤ m.world.epoch where
  talk := fun _ _ talk h => talk.keeps.epoch ▸ h
  spawn := fun _ _ h => h
  enter := fun _ _ h => h
  advance := fun _ h => h
  move := fun _ move h => Nat.le_trans h move.epoch_le

theorem epoch_of_lasting {operations : List Operation} {o : Operation} {m : Coordinator}
    (sound : Sound .idle m)
    (lasts : (perform (performAll operations m) o).world.epoch = m.world.epoch) :
    (performAll operations m).world.epoch = m.world.epoch := by
  refine Nat.le_antisymm (lasts ▸ ?_) ?_
  · exact (epoch_kept _).perform trivial (sound.performAll operations) (Nat.le_refl _)
  · exact (epoch_kept _).performAll (fun _ _ => trivial) sound (Nat.le_refl _)

theorem dated_kept : Kept (fun _ => True)
    fun φ m => ∀ t s, Takes φ m t s → s.Dated m.world.epoch where
  talk := by
    intro o m k _ sound talk h t s hs
    rw [talk.keeps.epoch]
    rcases talk.takes sound hs with hs | rfl | ⟨_, _, rfl⟩
    · exact h t s hs
    · trivial
    · trivial
  spawn := by
    intro e m _ sound h t s hs
    rcases takes_spawn sound hs with hs | rfl
    · exact h t s hs
    · cases e <;> trivial
  enter := by
    intro e m _ sound h t s hs
    rcases takes_enter sound hs with hs | rfl
    · exact h t s hs
    · cases e <;> trivial
  advance := fun ha h t s hs => h t s (takes_advance ha hs)
  move := by
    intro φ m ψ k sound move h t s hs
    suffices dated : s.Dated m.world.epoch from dated.mono move.epoch_le
    cases move.came sound hs with
    | stays hs => exact h t s hs
    | rests | fires => trivial
    | turns task turn =>
      have own := h t _ (.turn task rfl)
      generalize φ.stance = s' at turn own
      cases turn with
      | same => exact own
      | rest | flush | load => trivial
      | take => exact Nat.le_refl _
      | call current built => exact Nat.le_of_eq current

theorem dated_performAll (settings : Settings) (delay : Float) (start : Session)
    (channel : Channel Inbound Unit) (notifier : Notifier Unit) (backend : Backend)
    (operations : List Operation) :
    let m := performAll operations (fresh settings delay start channel notifier backend)
    ∀ t s, Takes .idle m t s → s.Dated m.world.epoch :=
  dated_kept.performAll (fun _ _ => trivial) (sound_fresh ..) fun _ _ h => (not_takes_fresh h).elim

theorem Move.of_loads (h : Move φ m ψ k) {id : Json} (own : φ.stance = .loads id) :
    ψ = φ ∨ m.world.epoch < k.world.epoch := by
  cases h with
  | note | notify => exact .inl rfl
  | load t id => exact .inr (Nat.lt_succ_self _)
  | free t apart =>
    rcases stanceOf_of_apart apart with rests | ⟨_, begins⟩
    · cases rests.symm.trans own
    · cases begins.symm.trans own
  | skip | leaveGroup | count | resume | dequeue | reply | save | request | flush | loading | fire
  | unsubscribe | cancel | finish | sleep | join | gather | take | lineUp | drop | call | await | hear
  | release | awaitLoad | refuse | fill => cases own

theorem Move.fits {asks : Overrides → Prop} {made : SaveCall → Prop} (h : Move φ m ψ k)
    (sound : Sound φ m) (lasts : k.world.epoch = m.world.epoch)
    (pending : ∀ o, m.debouncer.pending = some o → asks o)
    (makes : ∀ o payload, asks o → payloadOf o (session m) = .ok payload →
      made (callOf payload m.world.epoch m))
    (hs : Takes ψ k t s) (own : ∀ s, Takes φ m t s → s.Fits asks made m.world.epoch) :
    s.Fits asks made m.world.epoch := by
  cases h.came sound hs with
  | stays h => exact own s h
  | rests => trivial
  | fires waits => exact pending _ waits
  | turns task turn =>
    have mine := own _ (.turn task rfl)
    generalize stance : φ.stance = s' at turn mine
    cases turn with
    | same => exact mine
    | rest => trivial
    | flush waits => exact pending _ waits
    | take o => exact fun _ => mine
    | call current built =>
      subst current
      exact fun _ => makes _ _ (mine rfl) built
    | load id =>
      -- the move that begins a load ends the session, so it is none of those considered here
      rcases h.of_loads stance with rfl | new
      · cases hs with
        | turn _ hs => cases stance.symm.trans hs
        | place other => exact absurd task other
      · omega

theorem hearing_past {call : SaveCall} (past : call.epoch ≠ m.world.epoch) :
    (session (hearing call m)).content = (session m).content := by
  unfold hearing
  split
  · unfold recordSaved
    rw [if_pos (show call.epoch ≠ (answered call m).world.epoch from past)]
    rfl
  · rfl

/-- Only calls of the session that lasts and loads that are not refused change what a session holds. -/
theorem Move.content (h : Move φ m ψ k) (lasts : k.world.epoch = m.world.epoch)
    (refused : ∀ t id reply, φ = .fills t id reply → ∃ f, Backend.failure? reply = some f)
    (heard : ∀ t call, φ = .calls t call →
      (session (hearing call m)).content = (session m).content) :
    (session k).content = (session m).content ∧ k.world.channel.peer = m.world.channel.peer ∧
      k.world.settings = m.world.settings := by
  cases h with
  | load t id => exact absurd lasts (Nat.succ_ne_self _)
  | fill t id reply found =>
    obtain ⟨f, failed⟩ := refused t id reply rfl
    cases (loaded_of_failure failed).symm.trans found
  | hear t call =>
    obtain ⟨-, -, _, _, same⟩ := hearing_same call m
    exact ⟨heard t call rfl, by rw [same]; rfl, by rw [same]; rfl⟩
  | release t =>
    have same := release_world m
    exact ⟨congrArg (·.session.content) same, by rw [same], by rw [same]⟩
  | unsubscribe t =>
    unfold Coordinator.unsubscribe
    split <;> exact ⟨rfl, rfl, rfl⟩
  | skip | leaveGroup | count | resume | dequeue | reply | note | notify | free | save | request
  | flush | loading | fire | cancel | finish | sleep | join | gather | take | lineUp | drop | call
  | await | awaitLoad | refuse => exact ⟨rfl, rfl, rfl⟩

theorem Move.pending (h : Move φ m ψ k)
    (quiet : ∀ t id reply, φ = .fills t id reply →
      m.world.channel.peer = [] ∨ ∃ f, Backend.failure? reply = some f)
    {o : Overrides} (waits : k.debouncer.pending = some o) : m.debouncer.pending = some o := by
  cases h with
  | fire t | flush t | load t id | cancel t => cases waits
  | fill t id reply found =>
    rcases quiet t id reply rfl with silent | ⟨f, failed⟩
    · rwa [(fill_silent id _ silent).2] at waits
    · cases (loaded_of_failure failed).symm.trans found
  | hear t call => rwa [(hearing_same call m).2.1] at waits
  | release t =>
    unfold Coordinator.release at waits
    simp only at waits
    split at waits <;> exact waits
  | unsubscribe t =>
    unfold Coordinator.unsubscribe at waits
    split at waits <;> exact waits
  | skip | leaveGroup | count | resume | dequeue | reply | note | notify | free | save | request
  | loading | finish | sleep | join | gather | take | lineUp | drop | call | await | awaitLoad
  | refuse => exact waits

end Moves

/-- Whoever else is at work has no part in the session. -/
structure Fenced (t : TaskId) (epoch : Nat) (φ : Phase) (m : Coordinator) : Prop where
  current : m.world.epoch = epoch
  others : ∀ u s, u ≠ t → Takes φ m u s → s.Past epoch
  pending : m.debouncer.pending = none

/-- A load has still to get its reply. When it is its turn, the answer is the one that the backend
    gave at the beginning of the turn. -/
structure Awaits (t : TaskId) (id : Json) (reply : Reply) (grid : Grid) (answer : Result Json)
    (φ : Phase) (m : Coordinator) : Prop where
  stance : ∀ s, Takes φ m t s → s = .fills id reply
  waits : ∃ s, Takes φ m t s
  blank : (session m).content = {}
  silent : m.world.channel.peer = []
  settings : m.world.settings.grid = grid
  answer : φ.task? = some t → loaded id reply m = answer

structure Answered (t : TaskId) (s : Session) (φ : Phase) (m : Coordinator) : Prop where
  stance : ∀ s, Takes φ m t s → s = .rests
  content : (session m).content = s

section Turns

variable {φ ψ : Phase} {m k : Coordinator} {t : TaskId} {id : Json} {reply : Reply} {grid : Grid}
  {answer : Result Json} {epoch : Nat}

theorem Fenced.move (h : Fenced t epoch φ m) (sound : Sound φ m) (move : Move φ m ψ k)
    (lasts : k.world.epoch = epoch)
    (quiet : ∀ id reply, φ = .fills t id reply → m.world.channel.peer = []) :
    Fenced t epoch ψ k := by
  obtain ⟨rfl, others, pending⟩ := h
  refine ⟨lasts, fun u s hu hs => ?_, ?_⟩
  · refine move.fits sound lasts (fun o ho => ?_) (fun _ _ h => h.elim) hs fun s => others u s hu
    cases pending.symm.trans ho
  · refine Option.eq_none_iff_forall_ne_some.mpr fun o waits => ?_
    have before := move.pending (fun u id reply hφ => ?_) waits
    · cases pending.symm.trans before
    · by_cases hu : u = t
      · exact .inl (quiet id reply (hu ▸ hφ))
      · exact .inr (others u (.fills id reply) hu (by subst hφ; exact .turn rfl rfl))

theorem Fenced.content (h : Fenced t epoch φ m) (move : Move φ m ψ k) (lasts : k.world.epoch = epoch)
    (other : φ.task? ≠ some t ∨ φ.stance = .rests) :
    (session k).content = (session m).content ∧ k.world.channel.peer = m.world.channel.peer ∧
      k.world.settings = m.world.settings := by
  obtain ⟨rfl, others, -⟩ := h
  have past {u : TaskId} (task : φ.task? = some u) : φ.stance.Past m.world.epoch := by
    rcases other with other | rests
    · exact others u _ (fun hu => other (hu ▸ task)) (.turn task rfl)
    · rw [rests]
      trivial
  refine move.content lasts (fun u id reply hφ => ?_) fun u call hφ => ?_
  · subst hφ
    exact past rfl
  · subst hφ
    exact hearing_past (past rfl)

theorem Answered.move {c : Session} (h : Answered t c φ m) (fenced : Fenced t epoch φ m)
    (sound : Sound φ m) (move : Move φ m ψ k) (lasts : k.world.epoch = epoch) :
    Fenced t epoch ψ k ∧ Answered t c ψ k := by
  have own (task : φ.task? = some t) : φ.stance = .rests := h.stance _ (.turn task rfl)
  refine ⟨fenced.move sound move lasts fun id reply hφ => ?_, fun s hs => ?_, ?_⟩
  · subst hφ
    cases own rfl
  · cases move.came sound hs with
    | stays hs => exact h.stance s hs
    | rests => rfl
    | fires waits => cases fenced.pending.symm.trans waits
    | turns task turn =>
      rw [own task] at turn
      cases turn with
      | same | rest => rfl
      | flush waits => cases fenced.pending.symm.trans waits
  · rw [(fenced.content move lasts ?_).1]
    · exact h.content
    · by_cases task : φ.task? = some t
      · exact .inr (own task)
      · exact .inl task

theorem Awaits.other (h : Awaits t id reply grid answer φ m) (fenced : Fenced t epoch φ m)
    (sound : Sound φ m) (move : Move φ m ψ k) (lasts : k.world.epoch = epoch)
    (other : φ.task? ≠ some t) (start : φ = .idle → loaded id reply m = answer) :
    Awaits t id reply grid answer ψ k := by
  obtain ⟨content, peer, settings⟩ := fenced.content move lasts (.inl other)
  obtain ⟨s, hs⟩ := h.waits
  refine ⟨fun s hs => ?_, ⟨s, move.remains sound hs other⟩, content.trans h.blank,
    peer.trans h.silent, by rw [settings, h.settings], fun task => ?_⟩
  · cases move.came sound hs with
    | stays hs => exact h.stance s hs
    | turns task => exact absurd task other
    | fires waits => cases fenced.pending.symm.trans waits
    | rests new =>
      cases h.waits.choose_spec with
      | turn task => exact absurd task other
      | place _ hp => cases new.symm.trans hp
  · obtain ⟨rfl, -⟩ := (move.arrives task).resolve_left other
    rw [← start rfl]
    cases move with
    | resume | dequeue | reply => rfl
    | skip | leaveGroup | count | note | notify => cases task

theorem Awaits.own (h : Awaits t id reply grid answer φ m) (sound : Sound φ m) (move : Move φ m ψ k)
    (task : φ.task? = some t) :
    Awaits t id reply grid answer ψ k ∨ Answered t (opened grid id answer) ψ k := by
  have own : φ.stance = .fills id reply := h.stance _ (.turn task rfl)
  have found := h.answer task
  cases move with
  | note | notify =>
    exact .inl ⟨fun s hs => (hs.own task).trans own, ⟨_, .turn task rfl⟩, h.blank, h.silent, h.settings,
      fun _ => found⟩
  | loading u id' reply' =>
    cases own
    cases task
    exact .inl ⟨fun s hs => hs.own rfl, ⟨_, .turn rfl rfl⟩, h.blank, h.silent, h.settings,
      fun _ => found⟩
  | awaitLoad u id' reply' seconds =>
    cases own
    cases task
    obtain ⟨p, hp, -⟩ := sound.stands
    have stands : (m.loop.sleep t seconds (.own (.loading id reply))).standing t =
        some (.own (.loading id reply)) := by
      rw [Loop.standing_sleep, if_pos rfl, hp]
      rfl
    refine .inl ⟨fun s hs => ?_, ⟨_, .place nofun stands rfl⟩, h.blank, h.silent, h.settings, nofun⟩
    cases hs with
    | turn task => cases task
    | place _ hq stance =>
      obtain rfl := Option.some.inj (stands.symm.trans hq)
      exact stance.symm
  | refuse u id' reply' failed =>
    cases own
    cases task
    obtain rfl := failed.symm.trans found
    exact .inr ⟨fun s hs => hs.own rfl, h.blank⟩
  | fill u id' reply' filled =>
    cases own
    cases task
    obtain rfl := filled.symm.trans found
    refine .inr ⟨fun s hs => hs.own rfl, ?_⟩
    rw [(fill_silent id _ h.silent).1 h.blank, h.settings]
  | free u apart =>
    rcases stanceOf_of_apart apart with rests | ⟨_, begins⟩
    · cases rests.symm.trans own
    · cases begins.symm.trans own
  | save | request | flush | load | fire | unsubscribe | cancel | finish | sleep | join | gather | take
  | lineUp | drop | call | await | hear | release => cases own
  | skip | leaveGroup | count | resume | dequeue | reply => cases task

/-- A load in the session of an epoch, before its reply or after it, as long as the session lasts. -/
def Stage (t : TaskId) (id : Json) (reply : Reply) (grid : Grid) (epoch : Nat) (answer : Result Json)
    (φ : Phase) (m : Coordinator) : Prop :=
  epoch < m.world.epoch ∨ Fenced t epoch φ m ∧
    (Awaits t id reply grid answer φ m ∨ Answered t (opened grid id answer) φ m)

theorem Stage.move (h : Stage t id reply grid epoch answer φ m) (sound : Sound φ m)
    (move : Move φ m ψ k)
    (start : φ = .idle → Awaits t id reply grid answer φ m → loaded id reply m = answer) :
    Stage t id reply grid epoch answer ψ k := by
  rcases h with passed | ⟨fenced, stage⟩
  · exact .inl (Nat.lt_of_lt_of_le passed move.epoch_le)
  by_cases lasts : k.world.epoch = epoch
  · refine .inr ?_
    rcases stage with awaits | answered
    · refine ⟨fenced.move sound move lasts fun _ _ _ => awaits.silent, ?_⟩
      by_cases task : φ.task? = some t
      · exact awaits.own sound move task
      · exact .inl (awaits.other fenced sound move lasts task fun idle => start idle awaits)
    · obtain ⟨fenced, answered⟩ := answered.move fenced sound move lasts
      exact ⟨fenced, .inr answered⟩
  · exact .inl (Nat.lt_of_le_of_ne (fenced.current ▸ move.epoch_le) (Ne.symm lasts))

theorem Stage.moves {χ : Phase} {n : Coordinator} (h : Stage t id reply grid epoch answer φ m)
    (sound : Sound φ m) (moves : Moves φ m χ n)
    (start : φ = .idle → Awaits t id reply grid answer φ m → loaded id reply m = answer) :
    Stage t id reply grid epoch answer χ n := by
  have busily {φ : Phase} {m : Coordinator} (moves : Moves φ m χ n) (sound : Sound φ m)
      (busy : φ.task?.isSome = true) (h : Stage t id reply grid epoch answer φ m) :
      Stage t id reply grid epoch answer χ n :=
    moves.busy_induction sound busy h fun busy sound move h =>
      h.move sound move fun idle => nomatch idle ▸ busy
  cases moves with
  | refl => exact h
  | last move => exact h.move sound move start
  | next move busy rest => exact busily rest (move.sound sound) busy (h.move sound move start)

theorem Stage.advance (h : Stage t id reply grid epoch answer .idle m) {l : TaskLoop}
    (ha : m.loop.advance? = some l) :
    Stage t id reply grid epoch answer .idle { m with loop := l } := by
  rcases h with passed | ⟨⟨current, others, pending⟩, stage⟩
  · exact .inl passed
  refine .inr ⟨⟨current, fun u s hu hs => others u s hu (takes_advance ha hs), pending⟩, ?_⟩
  rcases stage with ⟨stance, ⟨s, hs⟩, blank, silent, settings, -⟩ | ⟨stance, content⟩
  · exact .inl ⟨fun s hs => stance s (takes_advance ha hs),
      ⟨s, hs.of_standing (Loop.standing_advance? ha t).symm⟩, blank, silent, settings, nofun⟩
  · exact .inr ⟨fun s hs => stance s (takes_advance ha hs), content⟩

theorem Stage.answered (h : Stage t id reply grid epoch answer .idle m) (lasts : m.world.epoch = epoch)
    (ended : m.loop.standing t = none) :
    Fenced t epoch .idle m ∧ Answered t (opened grid id answer) .idle m := by
  rcases h with passed | ⟨fenced, awaits | answered⟩
  · exact absurd (lasts ▸ passed) (Nat.lt_irrefl _)
  · obtain ⟨s, task | ⟨-, stands, -⟩⟩ := awaits.waits
    · cases task
    · cases ended.symm.trans stands
  · exact ⟨fenced, answered⟩

/-- The clock and the turns of tasks bring a load to its reply. Which answer that is stays open as
    long as it has not come. -/
theorem Stage.perform (h : Stage t id reply grid epoch answer .idle m) (sound : Sound .idle m)
    {w : Operation} (patient : w = .turn ∨ w = .advance) :
    Stage t id reply grid epoch answer .idle (perform m w) ∨
      Stage t id reply grid epoch (loaded id reply m) .idle (perform m w) := by
  have passes {a : Result Json} (h : Stage t id reply grid epoch a .idle m)
      (start : Awaits t id reply grid a .idle m → loaded id reply m = a) :
      Stage t id reply grid epoch a .idle (Coordinator.perform m w) := by
    rcases patient with rfl | rfl
    · exact h.moves sound (perform_turn sound) fun _ => start
    · unfold Coordinator.perform
      cases ha : m.loop.advance? with
      | none => exact h
      | some l => exact h.advance ha
  -- as long as the load waits, its answer may be taken to be the one that the backend would give now
  by_cases awaits : Awaits t id reply grid answer .idle m
  · refine .inr (passes (h.imp_right fun ⟨fenced, _⟩ => ⟨fenced, .inl ?_⟩) fun _ => rfl)
    exact ⟨awaits.stance, awaits.waits, awaits.blank, awaits.silent, awaits.settings, nofun⟩
  · exact .inl (passes h fun h => absurd h awaits)

theorem loaded_blanking (id : Json) (reply : Reply) (m : Coordinator) :
    loaded id reply (blanking id m) = loaded id reply m := by
  have records : (blanking id m).world.backend = m.world.backend.nextLoad.1 :=
    congrArg (·.backend.nextLoad.1) (cancel_world m)
  unfold loaded
  rw [records]
  unfold Backend.nextLoad
  split <;> rfl

theorem stage_of_beginLoad (sound : Sound (.resumes t (.own (.load id))) m)
    (past : ∀ u s, u ≠ t → Takes (.resumes t (.own (.load id))) m u s → s.Past (m.world.epoch + 1))
    (silent : m.world.channel.peer = []) :
    Stage t id (loadReply m) m.world.settings.grid (m.world.epoch + 1) (loaded id (loadReply m) m)
      .idle (beginLoad t id m) := by
  have same := cancel_world m
  refine Stage.moves (.inr ⟨⟨?_, fun u s hu hs => ?_, rfl⟩, .inl ?_⟩) ((Move.load t id m).sound sound)
    (beginLoad_filling id m) fun idle => nomatch idle
  · exact congrArg (·.epoch + 1) same
  · cases hs with
    | turn task => exact absurd (Option.some.inj task).symm hu
    | place other stands stance =>
      exact past u s hu (.place other ((standing_cancel m u).symm.trans stands) stance)
  · exact ⟨fun s hs => hs.own rfl, ⟨_, .turn rfl rfl⟩, rfl,
      (congrArg (·.channel.peer) same).trans silent, congrArg (·.settings.grid) same,
      fun _ => loaded_blanking id _ m⟩

theorem Starts.resumes {o : Operation} (starts : Starts m o t id) :
    ∃ n, Resumes m o t (.own (.load id)) n := by
  rcases starts with ⟨rfl, rfl⟩ | ⟨rfl, stands, signal, rest, ready⟩
  · exact ⟨_, .enter (.load id)⟩
  · exact ⟨_, .turn ready rfl stands⟩

theorem Starts.stage {o : Operation} (starts : Starts m o t id) (sound : Sound .idle m)
    (dated : ∀ u s, Takes .idle m u s → s.Dated m.world.epoch) (settled : Settled m t)
    (silent : m.world.channel.peer = []) :
    Stage t id (loadReply m) m.world.settings.grid (m.world.epoch + 1) (loaded id (loadReply m) m)
      .idle (perform m o) := by
  have past (u : TaskId) (s : Stance) (hu : u ≠ t) (hs : Takes .idle m u s) :
      s.Past (m.world.epoch + 1) :=
    (dated u s hs).past (settled u s hu hs)
  rcases starts with ⟨rfl, rfl⟩ | ⟨rfl, stands, signal, rest, ready⟩
  · refine stage_of_beginLoad (m := { m with loop := (m.loop.enter (.own (.load id))).1 })
      (sound.enter (.load id)) (fun u s hu hs => ?_) silent
    rcases takes_enter (e := .load id) sound hs with hs | rfl
    · exact past u s hu hs
    · trivial
  · -- a task that is to load is active, so its own turn takes it up with no failure to hear of
    rw [turn_of_ready ready, step_of_active sound.orderly ready stands rfl]
    refine stage_of_beginLoad (m := takeUp rest m) ((Move.resume ready rfl stands rfl).sound sound)
      (fun u s hu hs => ?_) silent
    cases hs with
    | turn task => exact absurd (Option.some.inj task).symm hu
    | place _ stands stance => exact past u s hu (.place nofun stands stance)

theorem Starts.stage_performAll {o : Operation} (starts : Starts m o t id) (sound : Sound .idle m)
    (dated : ∀ u s, Takes .idle m u s → s.Dated m.world.epoch) (settled : Settled m t)
    (silent : m.world.channel.peer = []) {waiting : List Operation}
    (patient : ∀ w ∈ waiting, w = .turn ∨ w = .advance) :
    ∃ earlier p, earlier ++ [p] <+: o :: waiting ∧
      Stage t id (loadReply m) m.world.settings.grid (m.world.epoch + 1)
        (loaded id (loadReply m) (performAll earlier m)) .idle (performAll (o :: waiting) m) := by
  induction waiting using List.reverseRecOn with
  | nil => exact ⟨[], o, List.prefix_rfl, starts.stage sound dated settled silent⟩
  | append_singleton passed w ih =>
    obtain ⟨earlier, p, early, stage⟩ := ih fun w hw => patient w (List.mem_append_left _ hw)
    rw [← List.cons_append, performAll_append]
    rcases stage.perform (sound.performAll _) (patient w (by simp)) with same | new
    · exact ⟨earlier, p, early.trans ⟨[w], by simp⟩, same⟩
    · exact ⟨o :: passed, w, List.prefix_rfl, new⟩

end Turns

/-- A load that is not overtaken by another makes the session: when nothing older is left that would
    save, and whatever load still waits will be refused, the session is blank until the reply has come,
    and then it is all made from the one record that was asked for, or blank if there is none. -/
theorem load_opens (settings : Settings) (delay : Float) (start : Session)
    (channel : Channel Inbound Unit) (notifier : Notifier Unit) (backend : Backend)
    (before : List Operation) (o : Operation) (waiting : List Operation) (t : TaskId) (id : Json) :
    let m := performAll before (fresh settings delay start channel notifier backend)
    let k := performAll (o :: waiting) m
    Starts m o t id → Settled m t → m.world.channel.peer = [] →
    (∀ w ∈ waiting, w = .turn ∨ w = .advance) → k.world.epoch = m.world.epoch + 1 →
    (k.loop.standing t = some (.own (.loading id (loadReply m))) → (session k).content = {}) ∧
      (k.loop.standing t = none → ∃ earlier p, earlier ++ [p] <+: o :: waiting ∧
        (session k).content =
          opened m.world.settings.grid id (loaded id (loadReply m) (performAll earlier m))) := by
  intro m k starts settled silent patient alone
  have sound : Sound .idle m := (sound_fresh ..).performAll before
  have dated := dated_performAll settings delay start channel notifier backend before
  obtain ⟨earlier, p, early, stage⟩ := starts.stage_performAll sound dated settled silent patient
  refine ⟨fun stands => ?_, fun ended => ⟨earlier, p, early, (stage.answered alone ended).2.content⟩⟩
  rcases stage with passed | ⟨-, awaits | answered⟩
  · exact absurd (alone ▸ passed) (Nat.lt_irrefl _)
  · exact awaits.blank
  · cases answered.stance _ (.place nofun stands rfl)

def overtaking (refusal : Option (Json × Json)) : Backend where
  loads := [{ delay := some 2.0, refusal := refusal }, { delay := some 1.0 }]
  records :=
    [(.str "a", .obj [("_id", .str "a"), ("dbmlText", .str "Table t")]),
     (.str "b", .obj [("_id", .str "b"), ("dbmlText", .str ""),
       ("ast", .obj [
         ("tables", .arr [.obj [("id", .str "t"), ("name", .str "t"), ("columns", .arr [])]]),
         ("relationships", .arr [])])])]

def bothReplies : List Operation := [.advance, .turn, .advance, .turn]

/-- The load that was begun last makes the session, since the other is refused. -/
theorem load_opens_beside_refusal :
    let m := performAll [.enter (.load (.str "a"))]
      (fresh {} 1.0 {} {} { capacity := 50 } (overtaking (some (.str "Gone", .int 410))))
    let k := performAll (.enter (.load (.str "b")) :: bothReplies) m
    Settled m 1 ∧ k.world.epoch = m.world.epoch + 1 ∧ k.loop.standing 1 = none ∧
      ∃ earlier p, earlier ++ [p] <+: .enter (.load (.str "b")) :: bothReplies ∧
        (session k).content = opened m.world.settings.grid (.str "b")
          (loaded (.str "b") (loadReply m) (performAll earlier m)) := by
  have opens := load_opens {} 1.0 {} {} { capacity := 50 } (overtaking (some (.str "Gone", .int 410)))
    [.enter (.load (.str "a"))] (.enter (.load (.str "b"))) bothReplies 1 (.str "b")
  intro m k
  extract_lets at opens
  have settled : Settled m 1 :=
    settled_of_spent ((sound_fresh ..).performAll _) (by decide +kernel)
  have starts : Starts m (.enter (.load (.str "b"))) 1 (.str "b") := .inl ⟨rfl, by decide +kernel⟩
  have silent : m.world.channel.peer = [] := List.isEmpty_iff.mp (by decide +kernel)
  have alone : k.world.epoch = m.world.epoch + 1 := by decide +kernel
  have ended : k.loop.standing 1 = none := Option.isNone_iff_eq_none.mp (by decide +kernel)
  exact ⟨settled, alone, ended, (opens starts settled silent (by decide) alone).2 ended⟩

/-- Of two loads whose replies cross, the first fills the session of the second: it ends with the id and
    the text of the one record and the schema and the nodes of the other. -/
theorem crossing_loads_mix :
    let k := performAll (.enter (.load (.str "a")) :: .enter (.load (.str "b")) :: bothReplies)
      (fresh {} 1.0 {} {} { capacity := 50 } (overtaking none))
    (∀ t, k.loop.standing t = none) ∧
      (session k).canvas.diagramId = .str "a" ∧ (session k).document.text = .str "Table t" ∧
      (session k).document.schema.map (·.tables.map (·.name)) = some ["t"] ∧
      (session k).diagram.nodes.map (·.id) = ["t"] := by
  intro k
  have sound : Sound .idle k := (sound_fresh ..).performAll _
  have ended : ∀ t < k.loop.fresh, (k.loop.standing t).isNone := by decide +kernel
  refine ⟨fun t => ?_, by decide +kernel⟩
  cases stands : k.loop.standing t with
  | none => rfl
  | some p =>
    have := ended t (sound.orderly.standing_below stands)
    rw [stands] at this
    cases this

end Sync.Coordinator

end SchemaDiagram
