import SchemaDiagram.Proofs.LastSave

/-!
When the text that is saved is the newest. A text that the remote side has written for a schema is taken
over into the session, but it asks for no save. It is saved all the same as long as a save is still to be
sent when it arrives, since a save reads the text when it is sent.
-/

set_option autoImplicit false

namespace SchemaDiagram.Sync.Coordinator

/-- The payload sent last has the text of the session. -/
def TextSaved (m : Coordinator) : Prop :=
  ∃ payload ∈ (payloads m).getLast?, Json.ofText? payload.text = (session m).document.text

instance (m : Coordinator) : Decidable (TextSaved m) :=
  inferInstanceAs (Decidable (∃ payload ∈ (payloads m).getLast?, _))

/-- A save is still to be sent, or the last that was sent has the text of the session. -/
def CarriesText (φ : Phase) (m : Coordinator) : Prop := outstanding φ m = [] → TextSaved m

/-- An operation loads nothing and overrides nothing, the text can be sent, and if the operation changes
    the text, a save is still to be sent. -/
structure Prompt (m : Coordinator) (o : Operation) : Prop where
  plain : o.plain = true
  sendable : Sendable m
  saves : (session (perform m o)).document.text ≠ (session m).document.text →
    outstanding .idle (perform m o) ≠ []

theorem prompt_iff {m : Coordinator} {o : Operation} : Prompt m o ↔
    o.plain = true ∧ Sendable m ∧
      ((session (perform m o)).document.text ≠ (session m).document.text →
        outstanding .idle (perform m o) ≠ []) :=
  ⟨fun ⟨plain, sendable, saves⟩ => ⟨plain, sendable, saves⟩,
    fun ⟨plain, sendable, saves⟩ => ⟨plain, sendable, saves⟩⟩

instance (m : Coordinator) (o : Operation) : Decidable (Prompt m o) :=
  decidable_of_iff _ prompt_iff.symm

section CarriesText

variable {asks : Overrides → Prop} {φ ψ : Phase} {m k : Coordinator}

theorem TextSaved.congr (h : TextSaved m) (sent : payloads k = payloads m)
    (same : (session k).document.text = (session m).document.text) : TextSaved k := by
  obtain ⟨payload, last, own⟩ := h
  exact ⟨payload, sent ▸ last, same ▸ own⟩

theorem CarriesText.conserves (carries : CarriesText φ m) (h : Conserves φ m ψ k)
    (same : Untouched m k) : CarriesText ψ k := by
  cases h with
  | keeps list silent => exact fun none => (carries (list ▸ none)).congr silent same.text
  | @sends o payload first bare built sent =>
    refine fun _ => ⟨payload, sent ▸ List.getLast?_concat, ?_⟩
    rw [same.text]
    exact text_of_built bare built
  | flush phase waits last earlier silent =>
    intro none
    simp [earlier] at none

theorem CarriesText.moves (carries : CarriesText φ m) (h : Moves φ m ψ k) (sound : Sound φ m)
    (plain : Plain asks φ m) (bare : ∀ o, asks o → o.members = []) (tidy : Tidy φ m)
    (sendable : Sendable m) : CarriesText ψ k := by
  induction h with
  | refl => exact carries
  | last h =>
    exact carries.conserves (h.conserves sound plain bare tidy sendable) (h.untouched plain.phase)
  | next h _ _ ih =>
    have same := h.untouched plain.phase
    exact ih (carries.conserves (h.conserves sound plain bare tidy sendable) same) (h.sound sound)
      (plain.move sound h) (h.tidy sound plain tidy) (sendable.of_untouched same)

theorem Talk.outstanding_ne_nil (talk : Talk asks m k) (sound : Sound .idle m)
    (before : outstanding .idle m ≠ []) : outstanding .idle k ≠ [] := by
  induction talk with
  | told h => exact h.outstanding ▸ before
  | schedule m _ => simp [outstanding_idle, Debounce.Machine.schedule]
  | @spawn m schema _ =>
    have standing (u : TaskId) := Loop.standing_spawnIn m.loop .spawned
      (.own (.save { schema := some schema } .answer)) u sound.orderly.new
    have coming := upcoming_of_spawn (l := m.loop) rfl sound.orderly.due_fresh standing
    rw [outstanding_idle, show upcoming _ = _ from coming]
    simp [stanceOf, Stance.begins?]
  | trans h _ ih ih' => exact ih' (sound.talk h) (ih sound before)

theorem CarriesText.before (more : outstanding .idle m ≠ [] → outstanding ψ k ≠ [])
    (carries : CarriesText .idle m) (sent : payloads k = payloads m)
    (same : (session k).document.text = (session m).document.text) : CarriesText ψ k :=
  fun none => (carries (Decidable.byContradiction fun some => more some none)).congr sent same

/-- What holds between the operations of a plain run, of what is asked for and of the tasks. -/
structure Ordered (asks : Overrides → Prop) (m : Coordinator) : Prop where
  sound : Sound .idle m
  plain : Plain asks .idle m
  tidy : Tidy .idle m
  timed : Timed m

theorem Ordered.perform (h : Ordered asks m) {o : Operation} (own : o.plain = true)
    (asks_all : ∀ ov, asked m o ov → asks ov) : Ordered asks (perform m o) :=
  ⟨h.sound.perform o, (h.plain.perform h.sound own asks_all).1,
    h.tidy.perform h.sound h.plain own asks_all, h.timed.perform h.sound h.plain own asks_all⟩

theorem CarriesText.perform (carries : CarriesText .idle m) (h : Ordered asks m)
    (bare : ∀ ov, asks ov → ov.members = []) {o : Operation} (prompt : Prompt m o)
    (asks_all : ∀ ov, asked m o ov → asks ov) : CarriesText .idle (perform m o) := by
  have ⟨own, sendable, saves⟩ := prompt
  -- an operation that changes the text leaves a save to be sent, and then nothing is to be shown
  by_cases same : (session (Coordinator.perform m o)).document.text = (session m).document.text
  · have happens := perform_happens h.sound o
    generalize Coordinator.perform m o = k at happens same ⊢
    cases happens with
    | exchange _ exchange =>
      exact carries.before (exchange.talk.outstanding_ne_nil h.sound)
        (payloads_of_notices exchange.talk.keeps.trace) same
    | spawn e =>
      refine carries.before (fun some none => some ?_) rfl same
      rw [outstanding_spawn h.sound e] at none
      rw [outstanding_idle]
      simp_all
    | @enter e _ moves =>
      have entered : CarriesText (.resumes m.loop.fresh e.point)
          { m with loop := (m.loop.enter e.point).1 } := by
        refine carries.before (fun some none => some ?_) rfl rfl
        rw [outstanding_enter h.sound e] at none
        rw [outstanding_idle]
        simp_all
      exact entered.moves moves (h.sound.enter e) (h.plain.enter h.sound own asks_all) bare
        (h.tidy.enter h.sound own) sendable
    | turn moves => exact carries.moves moves h.sound h.plain bare h.tidy sendable
    | advance ha =>
      exact carries.before (outstanding_advance h.tidy ha ▸ id) rfl same
    | still => exact carries
  · exact fun none => absurd none (saves same)

theorem Ordered.performAll {operations : List Operation} (start : Ordered (fun _ => False) m)
    (plain : ∀ o ∈ operations, o.plain = true) :
    Ordered (AskedSince m operations) (performAll operations m) := by
  induction operations using List.reverseRecOn with
  | nil => exact { start with plain := start.plain.mono fun _ => False.elim }
  | append_singleton passed o ih =>
    rw [performAll_append]
    have before := ih fun o ho => plain o (List.mem_append_left _ ho)
    have more := before.plain.mono fun _ => AskedSince.earlier (o := o)
    exact Ordered.perform { before with plain := more } (plain o (by simp)) fun _ => AskedSince.last

theorem carriesText_performAll {operations : List Operation} (start : Ordered (fun _ => False) m)
    (prompt : Throughout Prompt m operations)
    (saves : ∃ earlier, earlier <+: operations ∧ outstanding .idle (performAll earlier m) ≠ []) :
    CarriesText .idle (performAll operations m) := by
  induction operations using List.reverseRecOn with
  | nil =>
    obtain ⟨earlier, part, some⟩ := saves
    obtain rfl := List.prefix_nil.mp part
    exact fun none => absurd none some
  | append_singleton passed o ih =>
    obtain ⟨earlier, part, some⟩ := saves
    rcases List.prefix_concat_iff.mp part with rfl | part
    · exact fun none => absurd none some
    · have early := prompt.earlier (List.prefix_append passed [o])
      have plain := prompt.forall_mem Prompt.plain
      have before := start.performAll (early.forall_mem Prompt.plain)
      have more := before.plain.mono fun _ => AskedSince.earlier (o := o)
      rw [performAll_append]
      exact (ih early ⟨earlier, part, some⟩).perform { before with plain := more }
        (fun _ asked => (asked.plain plain).1) prompt.last fun _ => AskedSince.last

end CarriesText

/-- In every run without loads and overrides, in which the text of the session can be sent and every
    operation that changes it leaves a save still to be sent: once a save was to be sent, and whenever
    no payload is pending and no save is at work, what was sent last has the text of the session. -/
theorem text_saved_when_quiet (settings : Settings) (delay : Float) (start : Session)
    (channel : Channel Inbound Unit) (notifier : Notifier Unit) (backend : Backend)
    (operations : List Operation) :
    let m := fresh settings delay start channel notifier backend
    Throughout Prompt m operations →
    (∃ earlier, earlier <+: operations ∧ outstanding .idle (performAll earlier m) ≠ []) →
    Quiet (performAll operations m) → TextSaved (performAll operations m) := by
  intro m prompt saves quiet
  have start : Ordered (fun _ => False) m := ⟨sound_fresh .., .fresh .., .fresh .., .inl rfl⟩
  have timed := (start.performAll (prompt.forall_mem Prompt.plain)).timed
  exact carriesText_performAll start prompt saves (quiet.outstanding timed)

def retold : Operation :=
  .deliver (Channel.Event.schemaUpdated, .obj [("dbmlText", .str "Table new_table_1")])

def retelling : List Operation :=
  [.start, .edit (.addTable .null), .turn, .edit (.addTable .null), .turn, retold, .advance,
    .turn, .turn, .turn, .turn, .turn, .turn]

theorem text_saved_when_retold :
    let m := fresh {} 1.0 {} {} { capacity := 50 } stored
    Throughout Prompt m retelling ∧ Quiet (performAll retelling m) ∧
      TextSaved (performAll retelling m) := by
  have saved := text_saved_when_quiet {} 1.0 {} {} { capacity := 50 } stored retelling
  dsimp only at saved ⊢
  generalize hm : fresh {} 1.0 {} {} { capacity := 50 } stored = m at saved ⊢
  have sound : Sound .idle m := hm ▸ sound_fresh ..
  have prompt : Throughout Prompt m retelling := by
    rw [← hm]
    decide +kernel
  have quiet : Quiet (performAll retelling m) := by
    refine quiet_of_ended (sound.performAll retelling) ?_ ?_ <;> rw [← hm] <;> decide +kernel
  have saves : outstanding .idle (performAll (retelling.take 2) m) ≠ [] := by
    rw [← hm]
    decide +kernel
  exact ⟨prompt, quiet, saved prompt ⟨retelling.take 2, List.take_prefix 2 retelling, saves⟩ quiet⟩

/-- The text arrives when the save of the edit has been sent: it asks for no save, and what was sent last
    keeps the text from before. -/
theorem retold_text_unsaved :
    let operations : List Operation :=
      [.start, .edit (.addTable .null), .turn, .turn, .turn, retold]
    let k := performAll operations (fresh {} 1.0 {} {} { capacity := 50 } {})
    (∀ o ∈ operations, o.plain = true) ∧ Quiet k ∧
      (session k).document.text = .str "Table new_table_1" ∧
      (payloads k).getLast?.map (·.text) = some (some "") ∧ ¬ TextSaved k := by
  intro operations k
  have sound : Sound .idle k := (sound_fresh ..).performAll operations
  have quiet : Quiet k := quiet_of_ended sound (by decide +kernel) (by decide +kernel)
  exact ⟨by decide, quiet, by decide +kernel, by decide +kernel, by decide +kernel⟩

end SchemaDiagram.Sync.Coordinator
