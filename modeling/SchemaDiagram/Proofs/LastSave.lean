import SchemaDiagram.Proofs.Outstanding
import SchemaDiagram.Proofs.Snapshots
import SchemaDiagram.Proofs.Windows

/-!
The last save sent carries the newest state. What was asked to be saved last is up to date: it names
no schema, or the one of the session. This stays so until it is sent, unless a flush lets it
overtake the save of an edit whose schema the session has no more.
-/

set_option autoImplicit false

namespace SchemaDiagram.Sync.Coordinator

open Decode (text nullable)

def Agrees (s : Session) (o : Overrides) : Prop :=
  o.schema = none ∨ o.schema = s.document.schema

instance (s : Session) (o : Overrides) : Decidable (Agrees s o) :=
  inferInstanceAs (Decidable (_ ∨ _))

def Latest (m : Coordinator) : Prop :=
  ∃ payload ∈ (payloads m).getLast?,
    payload.schema = (session m).document.schema ∧
      payload.nodes = some (session m).diagram.nodes ∧
      payload.edges = some (session m).diagram.edges

instance (m : Coordinator) : Decidable (Latest m) :=
  inferInstanceAs (Decidable (∃ payload ∈ (payloads m).getLast?, _))

def Owes (φ : Phase) (m : Coordinator) : Prop :=
  match (outstanding φ m).getLast? with
  | some o => Agrees (session m) o
  | none => Latest m

/-- Whether the task of a flush has its turn in an operation for the first time. -/
def flushes (m : Coordinator) : Operation → Bool
  | .enter .flush => true
  | .turn =>
    match m.loop.ready with
    | .step t _ :: _ =>
      match m.loop.standing t with
      | some (.own .flush) => true
      | _ => false
    | _ => false
  | _ => false

def Overtakes (m : Coordinator) (o : Operation) : Prop :=
  flushes m o = true ∧ m.debouncer.pending.isSome = true ∧
    ∃ ov ∈ (upcoming m.loop).getLast?, ¬ Agrees (session m) ov

instance (m : Coordinator) (o : Operation) : Decidable (Overtakes m o) :=
  inferInstanceAs (Decidable (_ ∧ _ ∧ _))

/-- An operation has the drawing saved: it is an edit that passes, or it puts a save off, as a moved
    table and an accepted answer do. -/
def Redraws (m : Coordinator) (o : Operation) : Prop :=
  (∃ e, o = .edit e ∧ ((session m).attempt m.world.settings.grid e).2.schema?.isSome = true) ∨
    o.works = false ∧ Postponed m (perform m o)

def Tells (m : Coordinator) (e : Edit) : Prop :=
  ∀ f, (edit e m).2 = .error f → ((session m).attempt m.world.settings.grid e).2.schema? = none

/-- An operation loads nothing and overrides nothing, what the session has can be sent, an edit that
    passes is told of, and no flush overtakes. -/
structure Smooth (m : Coordinator) (o : Operation) : Prop where
  plain : o.plain = true
  sendable : Sendable m
  told : ∀ e, o = .edit e → Tells m e
  overtakes : ¬ Overtakes m o

def Smoothly (m : Coordinator) (operations : List Operation) : Prop :=
  ∀ earlier o, earlier ++ [o] <+: operations → Smooth (performAll earlier m) o

theorem smooth_iff {m : Coordinator} {o : Operation} : Smooth m o ↔
    o.plain = true ∧ Sendable m ∧ (∀ e, o = .edit e → Tells m e) ∧ ¬ Overtakes m o :=
  ⟨fun ⟨plain, sendable, told, overtakes⟩ => ⟨plain, sendable, told, overtakes⟩,
    fun ⟨plain, sendable, told, overtakes⟩ => ⟨plain, sendable, told, overtakes⟩⟩

theorem smoothly_cons {m : Coordinator} {o : Operation} {rest : List Operation} :
    Smoothly m (o :: rest) ↔ Smooth m o ∧ Smoothly (perform m o) rest :=
  throughout_cons

instance (m : Coordinator) : Decidable (Sendable m) :=
  match read : nullable text (session m).document.text with
  | .ok t => isTrue ⟨t, read⟩
  | .rejected _ => isFalse fun ⟨_, ht⟩ => nomatch read.symm.trans ht

instance (m : Coordinator) (e : Edit) : Decidable (Tells m e) :=
  match told : (edit e m).2 with
  | .error f =>
    decidable_of_iff (((session m).attempt m.world.settings.grid e).2.schema? = none)
      ⟨fun none _ _ => none, fun h => h f told⟩
  | .ok _ => isTrue fun _ failed => nomatch told.symm.trans failed

instance (m : Coordinator) : (o : Operation) → Decidable (∀ e, o = .edit e → Tells m e)
  | .edit e =>
    decidable_of_iff (Tells m e) ⟨fun h _ he => Operation.edit.inj he ▸ h, fun h => h e rfl⟩
  | .start | .parse _ | .deliver _ | .setConnected _ | .moveTable _ _ | .postpone _ | .spawn _
  | .enter _ | .turn | .advance => isTrue fun _ he => nomatch he

instance (m : Coordinator) (o : Operation) : Decidable (Smooth m o) :=
  decidable_of_iff _ smooth_iff.symm

instance decideSmoothly :
    (operations : List Operation) → (m : Coordinator) → Decidable (Smoothly m operations)
  | [], _ => isTrue fun _ _ part => by simp at part
  | o :: rest, m =>
    have := decideSmoothly rest (perform m o)
    decidable_of_iff _ smoothly_cons.symm

/-- No payload is pending and no task has a part in a save. -/
def Quiet (m : Coordinator) : Prop :=
  m.pending = false ∧ ∀ t p, m.loop.standing t = some p → stanceOf p = .rests

/-- What waits in a run without overrides is a save of the session as it will be. -/
def Blank (m : Coordinator) : Prop := ∀ o, m.debouncer.pending = some o → o = {}

def Flushes (m : Coordinator) : Phase → Prop
  | .resumes _ (.own .flush) => True
  | .idle => flushes m .turn = true
  | _ => False

def Guarded (φ : Phase) (m : Coordinator) : Prop :=
  Flushes m φ → m.debouncer.pending.isSome = true →
    ∀ o ∈ (upcoming m.loop).getLast?, Agrees (session m) o

section Owes

variable {asks : Overrides → Prop} {φ ψ : Phase} {m k : Coordinator}

theorem agrees_blank (s : Session) : Agrees s {} := .inl rfl

theorem Agrees.congr {s s' : Session} {o : Overrides} (h : Agrees s o)
    (same : s'.document.schema = s.document.schema) : Agrees s' o :=
  h.imp id fun h => h.trans same.symm

theorem Latest.congr (h : Latest m) (sent : payloads k = payloads m)
    (schema : (session k).document.schema = (session m).document.schema)
    (diagram : (session k).diagram = (session m).diagram) : Latest k := by
  obtain ⟨payload, last, parts⟩ := h
  exact ⟨payload, sent ▸ last, by rw [schema, diagram]; exact parts⟩

theorem Owes.congr (h : Owes φ m) (same : outstanding ψ k = outstanding φ m)
    (sent : payloads k = payloads m)
    (schema : (session k).document.schema = (session m).document.schema)
    (diagram : (session k).diagram = (session m).diagram) : Owes ψ k := by
  unfold Owes at h ⊢
  rw [same]
  cases last : (outstanding φ m).getLast? with
  | some o =>
    rw [last] at h
    exact h.congr schema
  | none =>
    rw [last] at h
    exact h.congr sent schema diagram

theorem Owes.of_last {o : Overrides} (last : (outstanding φ m).getLast? = some o)
    (current : Agrees (session m) o) : Owes φ m := by
  unfold Owes
  rw [last]
  exact current

theorem Owes.of_pending (waits : m.debouncer.pending = some {}) : Owes .idle m := by
  refine .of_last (o := {}) ?_ (agrees_blank _)
  unfold outstanding
  rw [waits]
  exact List.getLast?_concat

theorem latest_of_call {o : Overrides} {payload : Payload} (bare : o.members = [])
    (built : payloadOf o (session m) = .ok payload) (current : Agrees (session m) o)
    (sent : payloads k = payloads m ++ [payload]) (same : Untouched m k) : Latest k := by
  obtain ⟨schema, nodes, edges⟩ := payload_parts bare built
  refine ⟨payload, sent ▸ List.getLast?_concat, ?_, same.diagram ▸ nodes, same.diagram ▸ edges⟩
  rw [same.schema, schema]
  rcases current with none | own
  · rw [none]
    rfl
  · rw [own]
    cases (session m).document.schema <;> rfl

/-- What is to be sent last stays up to date until it is sent. -/
theorem Owes.conserves (owes : Owes φ m) (h : Conserves φ m ψ k) (same : Untouched m k)
    (guarded : Guarded φ m) : Owes ψ k := by
  cases h with
  | keeps list silent => exact owes.congr list silent same.schema same.diagram
  | @sends o payload first bare built sent =>
    unfold Owes at owes
    rw [first] at owes
    cases left : outstanding ψ k with
    | nil =>
      rw [left] at owes
      unfold Owes
      rw [left]
      exact latest_of_call bare built owes sent same
    | cons next others =>
      rw [left, List.getLast?_cons_cons] at owes
      obtain ⟨last, hl⟩ : ∃ last, (next :: others).getLast? = some last :=
        ⟨_, List.getLast?_eq_some_getLast (List.cons_ne_nil next others)⟩
      rw [hl] at owes
      exact .of_last (left ▸ hl) (owes.congr same.schema)
  | @flush t o phase waits last earlier silent =>
    cases coming : (upcoming m.loop).getLast? with
    | none =>
      have empty := List.getLast?_eq_none_iff.mp coming
      rw [empty, List.append_nil] at earlier last
      exact owes.congr (earlier.trans last.symm) silent same.schema same.diagram
    | some ov =>
      -- what waited is sent first, so that this save becomes the last
      have current : Agrees (session m) ov :=
        guarded (phase ▸ trivial) (waits ▸ rfl) ov (coming ▸ rfl)
      refine .of_last (o := ov) ?_ (current.congr same.schema)
      rw [earlier, List.getLast?_append, coming]
      rfl

theorem Move.guarded (h : Move φ m ψ k) (sound : Sound φ m) (busy : ψ.task?.isSome = true)
    (same : Untouched m k) (guarded : Guarded φ m) : Guarded ψ k := by
  intro flushing waits o ho
  have carried (phase : Flushes m φ) (pending : k.debouncer.pending = m.debouncer.pending)
      (coming : upcoming k.loop = upcoming m.loop) : Agrees (session k) o :=
    (guarded phase (pending ▸ waits) o (coming ▸ ho)).congr same.schema
  cases h with
  | resume ready target stands apart =>
    rename_i c rest t p
    cases p with
    | window _ | quiet _ | pause _ _ => exact flushing.elim
    | own a =>
      cases a with
      | flush =>
        have steps := sound.orderly.steps_of_active (ready ▸ List.mem_cons_self) target stands rfl
        cases c with
        | ended => cases steps
        | step u signal =>
          obtain rfl := Option.some.inj target
          have turned : upcoming (takeUp rest m).loop = upcoming m.loop := by
            rw [upcoming_takeUp ready]
            unfold announced toBegin
            simp only [stands]
            rfl
          refine carried ?_ rfl turned
          unfold Flushes flushes
          simp only [ready, stands]
      | request _ | save _ _ | queued _ _ _ | sending _ _ | drain | close | spawned _ | load _
      | loading _ _ => exact flushing.elim
  | note | notify => exact carried flushing rfl rfl
  | skip | leaveGroup | count | finish | sleep | join | gather | lineUp | await | awaitLoad =>
    cases busy
  | dequeue | reply | free | save | request | flush | load | loading | fire | unsubscribe | cancel
  | take | drop | call | hear | release | refuse | fill => exact flushing.elim

theorem Sendable.of_untouched (h : Sendable m) (same : Untouched m k) : Sendable k := by
  obtain ⟨t, ht⟩ := h
  exact ⟨t, same.text ▸ ht⟩

theorem Owes.moves (owes : Owes φ m) (h : Moves φ m ψ k) (sound : Sound φ m)
    (plain : Plain asks φ m) (bare : ∀ o, asks o → o.members = []) (tidy : Tidy φ m)
    (sendable : Sendable m) (guarded : Guarded φ m) : Owes ψ k := by
  have each {φ ψ : Phase} {m k : Coordinator} (h : Move φ m ψ k) (sound : Sound φ m)
      (plain : Plain asks φ m) (tidy : Tidy φ m) (sendable : Sendable m) (guarded : Guarded φ m)
      (owes : Owes φ m) : Owes ψ k :=
    owes.conserves (h.conserves sound plain bare tidy sendable) (h.untouched plain.phase) guarded
  induction h with
  | refl => exact owes
  | last h => exact each h sound plain tidy sendable guarded owes
  | next h busy _ ih =>
    have same := h.untouched plain.phase
    exact ih (each h sound plain tidy sendable guarded owes) (h.sound sound) (plain.move sound h)
      (h.tidy sound plain tidy) (sendable.of_untouched same) (h.guarded sound busy same guarded)

theorem payloads_of_notices
    (trace : ∃ notices, k.world.trace = m.world.trace ++ notices ∧
      ∀ e ∈ notices, e.isNotice = true) : payloads k = payloads m := by
  obtain ⟨notices, trace, quiet⟩ := trace
  have silent : notices.filterMap Event.payload? = [] := by
    refine List.filterMap_eq_nil_iff.mpr fun e he => ?_
    have notice := quiet e he
    cases e with
    | save => cases notice
    | sent | answered | load | loadStarter | note => rfl
  unfold payloads
  rw [trace, List.filterMap_append, silent, List.append_nil]

theorem Owes.aside (owes : Owes .idle m) (h : Aside m k) : Owes .idle k :=
  owes.congr h.toTold.outstanding (payloads_of_notices h.world.trace) h.schema h.diagram

theorem owes_of_commit {schema : Schema} {n : Coordinator} (blank : Blank n) (sound : Sound .idle n)
    (committed : (session n).document.schema = some schema) (h : Aside (spawning schema n) k) :
    Blank k ∧ Owes .idle k := by
  have debouncer : k.debouncer = n.debouncer := h.debouncer
  refine ⟨fun o waits => blank o (debouncer ▸ waits), ?_⟩
  -- a save that waits out its window will be sent after that of the edit
  cases waits : n.debouncer.pending with
  | some o =>
    obtain rfl := blank o waits
    exact .of_pending (debouncer ▸ waits)
  | none =>
    have standing (u : TaskId) := Loop.standing_spawnIn n.loop .spawned
      (.own (.save { schema := some schema } .answer)) u sound.orderly.new
    have coming := upcoming_of_spawn (l := n.loop) rfl sound.orderly.due_fresh standing
    refine .of_last (o := { schema := some schema }) ?_ (.inr (h.schema.trans committed).symm)
    unfold outstanding
    rw [debouncer, waits, h.loop, show upcoming (spawning schema n).loop = _ from coming]
    simp [stanceOf, Stance.begins?]

theorem owes_of_scheduled (waits : m.debouncer.pending = some {}) : Blank m ∧ Owes .idle m :=
  ⟨fun _ ho => (Option.some.inj (waits.symm.trans ho)).symm, .of_pending waits⟩

theorem aside_or_redraws {o : Operation} (talks : o.works = false) (own : o.plain = true) :
    Aside m (perform m o) ∨ Redraws m o := by
  have voices : Voices (fun _ => True) m.world.channel.peer := fun _ _ _ _ _ => trivial
  have speech (h : Speech (fun _ => True) m (perform m o)) :
      Aside m (perform m o) ∨ Redraws m o :=
    h.adopted.imp_right fun postponed => .inr ⟨talks, postponed⟩
  cases o with
  | start => exact .inl (start_aside m)
  | parse text => exact speech (parse_speech voices text)
  | deliver message => exact speech (deliver_speech trivial m)
  | setConnected up => exact speech (setConnected_speech up m)
  | edit e =>
    have edited := edit_edited voices e
    cases passes : ((session m).attempt m.world.settings.grid e).2.schema? with
    | some schema => exact .inr (.inl ⟨e, rfl, passes ▸ rfl⟩)
    | none =>
      refine .inl ?_
      change Aside m (edit e m).1
      generalize edit e m = r at edited ⊢
      cases edited with
      | unpassed _ h => exact h
      | untold _ passed | saved _ passed => cases passes.symm.trans passed
  | moveTable id position =>
    rcases moveTable_cases id position m with h | ⟨d, k, -, h, ends⟩
    · exact .inl h
    · have later : m.loop.fresh ≤ k.loop.fresh := Nat.le_of_eq (h.loop ▸ rfl)
      have postponed : Postponed m (moveTable id position m).1 :=
        ends ▸ (postponed_schedule k).since later
      exact .inr (.inr ⟨talks, postponed⟩)
  | postpone members =>
    obtain rfl : members = [] := List.isEmpty_iff.mp own
    exact .inr (.inr ⟨talks, postponed_schedule m⟩)
  | spawn | enter | turn | advance => cases talks

/-- Whatever has the drawing saved, the save of it is the last to be sent. -/
theorem owes_of_redraws {o : Operation} (redraws : Redraws m o) (smooth : Smooth m o)
    (sound : Sound .idle m) (blank : Blank m) :
    Blank (perform m o) ∧ Owes .idle (perform m o) := by
  rcases redraws with ⟨e, rfl, passes⟩ | ⟨-, postponed⟩
  · obtain ⟨schema, passed⟩ := Option.isSome_iff_exists.mp passes
    have told := smooth.told e rfl
    have voices : Voices (fun _ => True) m.world.channel.peer := fun _ _ _ _ _ => trivial
    have edited := edit_edited voices e
    change Blank (edit e m).1 ∧ Owes .idle (edit e m).1
    unfold Tells at told
    generalize edit e m = r at edited told ⊢
    cases edited with
    | unpassed none => cases none.symm.trans passed
    | untold f => cases passed.symm.trans (told f rfl)
    | @saved schema d c n k answer _ reduced h spoken settled =>
      have talk : Talk (· = {}) m c := h.toTold.talk
      have sound' : Sound .idle n := (sound.talk talk).talk spoken.talk
      rcases spoken.adopted with aside | postponed
      · have debouncer : n.debouncer = m.debouncer := aside.debouncer.trans h.debouncer
        exact owes_of_commit (fun o waits => blank o (debouncer ▸ waits)) sound'
          (aside.schema.trans h.schema) settled
      · exact owes_of_scheduled ((congrArg (·.pending) settled.debouncer).trans postponed.pending)
  · exact owes_of_scheduled postponed.pending

theorem Owes.insert (before after : List Overrides) {added : Option Overrides} (owes : Owes φ m)
    (was : outstanding φ m = before ++ after)
    (becomes : outstanding ψ k = before ++ added.toList ++ after)
    (blank : ∀ o, added = some o → o = {}) (sent : payloads k = payloads m)
    (same : session k = session m) : Owes ψ k := by
  have schema : (session k).document.schema = (session m).document.schema := by rw [same]
  cases added with
  | none =>
    rw [Option.toList_none, List.append_nil] at becomes
    exact owes.congr (becomes.trans was.symm) sent schema (by rw [same])
  | some o =>
    obtain rfl := blank o rfl
    cases last : after.getLast? with
    | none =>
      obtain rfl := List.getLast?_eq_none_iff.mp last
      refine .of_last (o := {}) ?_ (agrees_blank _)
      rw [becomes, List.append_nil]
      exact List.getLast?_concat
    | some o =>
      unfold Owes at owes
      rw [was, List.getLast?_append, last] at owes
      refine .of_last (o := o) ?_ (owes.congr schema)
      rw [becomes, List.getLast?_append, last]
      rfl

theorem Errand.begins_blank {e : Errand} (plain : e.plain = true) :
    ∀ o, (stanceOf e.point).begins? = some o → o = {} := by
  intro o ho
  cases e with
  | save members =>
    obtain rfl : members = [] := List.isEmpty_iff.mp plain
    exact (Option.some.inj ho).symm
  | flush | drain | close | load _ | pause _ => cases ho

theorem Owes.spawn (owes : Owes .idle m) (sound : Sound .idle m) {e : Errand}
    (plain : e.plain = true) : Owes .idle { m with loop := (m.loop.spawn e.point).1 } :=
  owes.insert (lined m ++ upcoming m.loop) m.debouncer.pending.toList (outstanding_idle m)
    (outstanding_spawn sound e) (Errand.begins_blank plain) rfl rfl

theorem Owes.enter (owes : Owes .idle m) (sound : Sound .idle m) {e : Errand}
    (plain : e.plain = true) :
    Owes (.resumes m.loop.fresh e.point) { m with loop := (m.loop.enter e.point).1 } := by
  refine owes.insert (lined m) (upcoming m.loop ++ m.debouncer.pending.toList) ?_
    (outstanding_enter sound e) (Errand.begins_blank plain) rfl rfl
  rw [outstanding_idle, List.append_assoc]

/-- What holds between the operations of a plain run. -/
structure Regular (asks : Overrides → Prop) (m : Coordinator) : Prop where
  sound : Sound .idle m
  plain : Plain asks .idle m
  tidy : Tidy .idle m
  timed : Timed m
  blank : Blank m

theorem Regular.perform (h : Regular asks m) {o : Operation} (smooth : Smooth m o)
    (asks_all : ∀ ov, asked m o ov → asks ov) : Regular asks (perform m o) := by
  have own := smooth.plain
  refine ⟨h.sound.perform o, (h.plain.perform h.sound own asks_all).1,
    h.tidy.perform h.sound h.plain own asks_all, h.timed.perform h.sound h.plain own asks_all, ?_⟩
  have happens := perform_happens h.sound o
  have talk (talks : o.works = false) : Blank (Coordinator.perform m o) := by
    rcases aside_or_redraws talks own with aside | redraws
    · exact fun o waits => h.blank o (aside.debouncer ▸ waits)
    · exact (owes_of_redraws redraws smooth h.sound h.blank).1
  generalize Coordinator.perform m o = k at happens talk ⊢
  cases happens with
  | exchange talks => exact talk talks
  | spawn | advance | still => exact h.blank
  | @enter e _ moves =>
    have entered := h.plain.enter h.sound own asks_all
    exact fun o waits => h.blank o (moves.waited (h.sound.enter e) entered waits)
  | turn moves => exact fun o waits => h.blank o (moves.waited h.sound h.plain waits)

/-- The last save to be sent is up to date after an operation, if it was before or the operation has
    asked for one. -/
theorem Owes.perform (h : Regular asks m) (bare : ∀ ov, asks ov → ov.members = [])
    {o : Operation} (smooth : Smooth m o) (asks_all : ∀ ov, asked m o ov → asks ov)
    (owes : Owes .idle m ∨ Redraws m o) : Owes .idle (perform m o) := by
  have ⟨own, sendable, _, overtakes⟩ := smooth
  cases works : o.works with
  | false =>
    by_cases redraws : Redraws m o
    · exact (owes_of_redraws redraws smooth h.sound h.blank).2
    · have aside := (aside_or_redraws works own).resolve_right redraws
      exact (owes.resolve_right redraws).aside aside
  | true =>
    have before : Owes .idle m := by
      refine owes.resolve_right ?_
      rintro (⟨e, rfl, -⟩ | ⟨talks, -⟩)
      · cases works
      · cases works.symm.trans talks
    have happens := perform_happens h.sound o
    generalize Coordinator.perform m o = k at happens ⊢
    cases happens with
    | exchange talks => cases works.symm.trans talks
    | spawn e => exact before.spawn h.sound own
    | @enter e _ moves =>
      have entered := h.plain.enter h.sound own asks_all
      refine (before.enter h.sound own).moves moves (h.sound.enter e) entered bare
        (h.tidy.enter h.sound own) sendable fun flushing waits ov hov => ?_
      cases e with
      | flush =>
        refine Decidable.byContradiction fun past => overtakes ⟨rfl, waits, ov, ?_, past⟩
        rwa [upcoming_enter h.sound.orderly] at hov
      | save _ | drain | close | load _ | pause _ => exact flushing.elim
    | turn moves =>
      refine before.moves moves h.sound h.plain bare h.tidy sendable fun flushing waits ov hov => ?_
      exact Decidable.byContradiction fun past => overtakes ⟨flushing, waits, ov, hov, past⟩
    | advance ha => exact before.congr (outstanding_advance h.tidy ha) rfl rfl rfl
    | still => exact before

theorem Quiet.outstanding (quiet : Quiet m) (timed : Timed m) : outstanding .idle m = [] := by
  obtain ⟨ended, rests⟩ := quiet
  have held (t : TaskId) : toHold m.loop t = none := by
    unfold toHold
    cases stands : m.loop.standing t with
    | none => rfl
    | some p =>
      rw [Option.bind_some, rests t p stands]
      rfl
  have begun (t : TaskId) : toBegin m.loop t = none := by
    unfold toBegin
    cases stands : m.loop.standing t with
    | none => rfl
    | some p =>
      rw [Option.bind_some, rests t p stands]
      rfl
  have queue : lined m = [] := List.filterMap_eq_nil_iff.mpr fun t _ => held t
  have coming : upcoming m.loop = [] := by
    refine List.filterMap_eq_nil_iff.mpr fun c _ => ?_
    cases c with
    | step t signal => exact begun t
    | ended => rfl
  unfold Coordinator.outstanding
  rw [queue, coming, timed.pending ended]
  rfl

namespace Smoothly

variable {passed operations : List Operation} {o : Operation}

theorem earlier (h : Smoothly m operations) (part : passed <+: operations) : Smoothly m passed :=
  Throughout.earlier h part

theorem plain (h : Smoothly m operations) : ∀ o ∈ operations, o.plain = true :=
  Throughout.forall_mem h Smooth.plain

theorem regular (h : Smoothly m operations) (start : Regular (fun _ => False) m) :
    Regular (AskedSince m operations) (performAll operations m) := by
  induction operations using List.reverseRecOn with
  | nil => exact { start with plain := start.plain.mono fun _ => False.elim }
  | append_singleton passed o ih =>
    rw [performAll_append]
    have before := ih (h.earlier (List.prefix_append _ _))
    have more := before.plain.mono fun _ => AskedSince.earlier (o := o)
    exact Regular.perform { before with plain := more } (h passed o List.prefix_rfl)
      fun _ => AskedSince.last

theorem owes (h : Smoothly m operations) (start : Regular (fun _ => False) m)
    (redraws : ∃ earlier o, earlier ++ [o] <+: operations ∧ Redraws (performAll earlier m) o) :
    Owes .idle (performAll operations m) := by
  induction operations using List.reverseRecOn with
  | nil =>
    obtain ⟨earlier, o, part, -⟩ := redraws
    simp at part
  | append_singleton passed o ih =>
    rw [performAll_append]
    have early := h.earlier (List.prefix_append passed [o])
    have before := early.regular start
    have more := before.plain.mono fun _ => AskedSince.earlier (o := o)
    refine Owes.perform { before with plain := more } (fun _ asked => (asked.plain h.plain).1)
      (h passed o List.prefix_rfl) (fun _ => AskedSince.last) ?_
    obtain ⟨earlier, o', part, redraws⟩ := redraws
    rcases List.prefix_concat_iff.mp part with whole | part
    · obtain ⟨rfl, last⟩ := List.append_inj' whole rfl
      obtain rfl : o' = o := by simpa using last
      exact .inr redraws
    · exact .inl (ih early ⟨earlier, o', part, redraws⟩)

end Smoothly

theorem regular_fresh (settings : Settings) (delay : Float) (start : Session)
    (channel : Channel Inbound Unit) (notifier : Notifier Unit) (backend : Backend) :
    Regular (fun _ => False) (fresh settings delay start channel notifier backend) :=
  ⟨sound_fresh .., .fresh .., .fresh .., .inl rfl, fun _ waits => absurd waits nofun⟩

/-- In every run without loads and overrides, in which the text of the session can be sent, every
    edit that passes is told of, and no flush lets what waits overtake the save of an edit whose
    schema the session has no more: once an operation has asked for a save of the drawing, and
    whenever no payload is pending and no save is at work, what was sent last is the session's
    schema with its diagram. -/
theorem latest_when_quiet (settings : Settings) (delay : Float) (start : Session)
    (channel : Channel Inbound Unit) (notifier : Notifier Unit) (backend : Backend)
    (operations : List Operation) :
    let m := fresh settings delay start channel notifier backend
    Smoothly m operations →
    (∃ earlier o, earlier ++ [o] <+: operations ∧ Redraws (performAll earlier m) o) →
    Quiet (performAll operations m) → Latest (performAll operations m) := by
  intro m smooth redraws quiet
  have start : Regular (fun _ => False) m := regular_fresh ..
  have owes := smooth.owes start redraws
  unfold Owes at owes
  rw [quiet.outstanding (smooth.regular start).timed] at owes
  exact owes

theorem quiet_of_ended (sound : Sound .idle m) (idle : m.pending = false)
    (ended : ∀ t < m.loop.fresh, (m.loop.standing t).isNone = true) : Quiet m := by
  refine ⟨idle, fun t p stands => ?_⟩
  have gone := ended t (sound.orderly.standing_below stands)
  rw [stands] at gone
  cases gone

def hurried : List Operation :=
  [.start, .parse (.str "Table t"), .deliver sketched,
    .edit (.renameTable (.str "t") (.str "u")), .enter .flush, .turn, .turn,
    .moveTable (.str "t") (.obj [("x", .int 7), ("y", .int 7)]), .turn, .advance, .turn, .advance,
    .turn, .turn, .turn, .turn, .turn, .turn, .turn, .turn]

theorem latest_when_hurried :
    let m := fresh {} 1.0 {} {} { capacity := 50 } stored
    Smoothly m hurried ∧ Quiet (performAll hurried m) ∧ Latest (performAll hurried m) := by
  have latest := latest_when_quiet {} 1.0 {} {} { capacity := 50 } stored hurried
  dsimp only at latest ⊢
  generalize hm : fresh {} 1.0 {} {} { capacity := 50 } stored = m at latest ⊢
  have sound : Sound .idle m := hm ▸ sound_fresh ..
  have smooth : Smoothly m hurried := by
    rw [← hm]
    decide +kernel
  have quiet : Quiet (performAll hurried m) := by
    refine quiet_of_ended (sound.performAll hurried) ?_ ?_ <;> rw [← hm] <;> decide +kernel
  have redraws : Redraws (performAll (hurried.take 3) m)
      (.edit (.renameTable (.str "t") (.str "u"))) := by
    refine .inl ⟨_, rfl, ?_⟩
    rw [← hm]
    decide +kernel
  exact ⟨smooth, quiet, latest smooth ⟨hurried.take 3, _, by decide, redraws⟩ quiet⟩

/-- An edit passes, an answer is accepted before the save of the edit has begun, and a flush sends
    the answer first: the last payload has the schema of the edit, which the session has no more. -/
theorem flush_overtakes_edit :
    let operations : List Operation :=
      [.start, .edit (.addTable .null), .parse (.str "Table t"), .deliver sketched, .enter .flush,
        .turn, .turn, .turn, .turn, .turn]
    let m := fresh {} 1.0 {} {} { capacity := 50 } {}
    (∀ o ∈ operations, o.plain = true) ∧
      (∃ earlier o, earlier ++ [o] <+: operations ∧ Redraws (performAll earlier m) o) ∧
      Quiet (performAll operations m) ∧ ¬ Latest (performAll operations m) := by
  intro operations m
  have sound : Sound .idle (performAll operations m) := (sound_fresh ..).performAll operations
  have quiet := quiet_of_ended sound (by decide +kernel) (by decide +kernel)
  have redraws : Redraws (performAll [.start] m) (.edit (.addTable .null)) :=
    .inl ⟨_, rfl, by decide +kernel⟩
  exact ⟨by decide, ⟨[.start], _, by decide, redraws⟩, quiet, by decide +kernel⟩

end Owes

end SchemaDiagram.Sync.Coordinator
