import SchemaDiagram.Proofs.PlainRuns

/-!
A payload that waits has a window that times it. The task of the window is called off only together
with the payload, and nothing else that ends a task can reach it; so a payload never waits behind a
window that has ended.
-/

set_option autoImplicit false

namespace SchemaDiagram

namespace Sync.Coordinator

/-- A task times the window of the payload that waits, and nothing makes it go on out of turn. -/
structure Times (m : Coordinator) (w : TaskId) : Prop where
  window : m.debouncer.window = some w
  stands : ∃ begun, m.loop.standing w = some (.window begun)
  alone : ¬ m.loop.Refers w

def Timed (m : Coordinator) : Prop := m.debouncer.pending = none ∨ ∃ w, Times m w

section Windows

variable {asks : Overrides → Prop} {φ ψ : Phase} {m k : Coordinator} {w : TaskId}

theorem Timed.pending (timed : Timed m) (ended : m.pending = false) :
    m.debouncer.pending = none := by
  rcases timed with idle | ⟨w, window, ⟨begun, stands⟩, -⟩
  · exact idle
  · exfalso
    have runs := Loop.outcome?_of_stands stands
    have open_ : m.pending = true := by
      unfold Debounce.Machine.pending Debounce.Machine.window?
      simp [window, runs]
    exact absurd (open_.symm.trans ended) (by decide)

/-- The work of another task leaves a window alone, or takes its payload away. -/
theorem Move.times (h : Move φ m ψ k) (sound : Sound φ m) (plain : Plain asks φ m)
    (other : φ.task? ≠ some w) (times : Times m w) :
    k.debouncer.pending = none ∨ Times k w := by
  obtain ⟨window, ⟨begun, stands⟩, alone⟩ := times
  have stays : ∃ begun, k.loop.standing w = some (.window begun) :=
    ⟨begun, h.stays sound stands other⟩
  have stance := plain.phase
  cases h with
  | skip ready | leaveGroup ready | resume ready | dequeue ready | reply ready =>
    exact .inr ⟨window, stays, fun refers => alone (refers.of_rest ready rfl rfl)⟩
  | count ready =>
    exact .inr ⟨window, stays, fun refers => alone (refers.of_count.of_rest ready rfl rfl)⟩
  | note | notify | free | save | request | take | drop | call => exact .inr ⟨window, stays, alone⟩
  | flush | cancel | fire => exact .inl rfl
  | load | loading | awaitLoad | refuse | fill => exact stance.elim
  | unsubscribe t =>
    revert stays
    unfold Coordinator.unsubscribe
    split <;> exact fun stays => .inr ⟨window, stays, alone⟩
  | finish => exact .inr ⟨window, stays, fun refers => alone refers.of_finish⟩
  | sleep | await => exact .inr ⟨window, stays, fun refers => alone refers.of_sleep⟩
  | join t target =>
    refine .inr ⟨window, stays, fun refers => ?_⟩
    rcases refers.of_listen with refers | waiter
    · exact alone refers.of_wait
    · exact other waiter
  | gather t targets =>
    refine .inr ⟨window, stays, fun refers => ?_⟩
    rcases refers.of_gather with refers | same
    · exact alone refers
    · exact other (same ▸ rfl)
  | lineUp => exact .inr ⟨window, stays, fun refers => alone refers.of_wait⟩
  | hear t call =>
    obtain ⟨loop, debouncer, -⟩ := hearing_same call m
    exact .inr ⟨by rw [debouncer, window], stays, loop ▸ alone⟩
  | release t =>
    revert stays
    unfold Coordinator.release
    simp only
    split
    · exact fun stays => .inr ⟨window, stays, alone⟩
    · exact fun stays => .inr ⟨window, stays, fun refers => alone refers.of_wake⟩

theorem Moves.waited (h : Moves φ m ψ k) (sound : Sound φ m) (plain : Plain asks φ m)
    {o : Overrides} (waits : k.debouncer.pending = some o) : m.debouncer.pending = some o := by
  have each {φ ψ : Phase} {m k : Coordinator} (h : Move φ m ψ k) (plain : Plain asks φ m)
      (waits : k.debouncer.pending = some o) : m.debouncer.pending = some o := by
    refine h.pending (fun t id reply hφ => ?_) waits
    subst hφ
    exact (plain.stances t _ (.turn rfl rfl)).elim
  induction h with
  | refl => exact waits
  | last h => exact each h plain waits
  | next h _ _ ih => exact each h plain (ih (h.sound sound) (plain.move sound h) waits)

theorem Moves.unpending (h : Moves φ m ψ k) (sound : Sound φ m) (plain : Plain asks φ m)
    (idle : m.debouncer.pending = none) : k.debouncer.pending = none := by
  refine Option.eq_none_iff_forall_ne_some.mpr fun o waits => ?_
  cases idle.symm.trans (h.waited sound plain waits)

theorem Moves.times (h : Moves φ m ψ k) (busy : φ.task?.isSome = true) (sound : Sound φ m)
    (plain : Plain asks φ m) (other : φ.task? ≠ some w) (times : Times m w) :
    k.debouncer.pending = none ∨ Times k w := by
  refine (h.busy_induction (J := fun φ m => Plain asks φ m ∧ φ.task? ≠ some w ∧
    (m.debouncer.pending = none ∨ Times m w)) sound busy ⟨plain, other, .inr times⟩ ?_).2.2
  rintro φ m ψ k busy sound h ⟨plain, other, timed⟩
  refine ⟨plain.move sound h, fun task => ?_, ?_⟩
  · rcases h.arrives task with before | ⟨rfl, -⟩
    · exact other before
    · cases busy
  · rcases timed with idle | times
    · exact .inl (h.moves.unpending sound plain idle)
    · exact h.times sound plain other times

theorem Times.own_turn (times : Times m w) {c : Callback} {rest : List Callback}
    (ready : m.loop.ready = c :: rest) (target : c.target? = some w) :
    (perform m .turn).debouncer.pending = none ∨ Times (perform m .turn) w := by
  obtain ⟨window, ⟨begun, stands⟩, alone⟩ := times
  have mem : c ∈ m.loop.ready := ready ▸ List.mem_cons_self
  obtain rfl := Loop.go_of_alone alone mem target
  obtain ⟨task, found, point, step⟩ := step_of_standing stands .go rest
  have called := Loop.calledOff_of_alone alone found
  rw [turn_of_ready ready, step, called]
  cases begun with
  | false =>
    refine .inr ⟨window, ⟨true, ?_⟩, fun refers => alone (refers.of_sleep.of_rest ready rfl rfl)⟩
    refine (Loop.standing_sleep _ _ w _ _).trans ?_
    rw [if_pos rfl]
    exact congrArg (Option.map _) stands
  | true =>
    refine .inl ?_
    change ((takeUp rest m).fire use w).debouncer.pending = none
    rw [fire_eq]
    rfl

theorem Times.turn (times : Times m w) (sound : Sound .idle m) (plain : Plain asks .idle m) :
    (perform m .turn).debouncer.pending = none ∨ Times (perform m .turn) w := by
  by_cases own : ∃ c rest, m.loop.ready = c :: rest ∧ c.target? = some w
  · obtain ⟨c, rest, ready, target⟩ := own
    exact times.own_turn ready target
  · have moves := perform_turn sound
    generalize perform m .turn = k at moves ⊢
    cases moves with
    | refl => exact .inr times
    | last h => exact h.times sound plain nofun times
    | @next _ ψ _ _ l _ h busy rest =>
      have other : ψ.task? ≠ some w := by
        intro task
        cases h with
        | skip | leaveGroup | count | note | notify => cases busy
        | resume ready target => exact own ⟨_, _, ready, target.trans task⟩
        | dequeue ready | reply ready => exact own ⟨_, _, ready, task⟩
      rcases h.times sound plain nofun times with idle | times
      · exact .inl (rest.unpending (h.sound sound) (plain.move sound h) idle)
      · exact rest.times busy (h.sound sound) (plain.move sound h) other times

theorem Times.beside (times : Times m w) (sound : Sound .idle m) {l : TaskLoop}
    {p : Debounce.Point Point Wait}
    (standing : ∀ u, l.standing u = if u = m.loop.fresh then some p else m.loop.standing u)
    (refers : l.Refers w → m.loop.Refers w) : Times { m with loop := l } w := by
  obtain ⟨window, ⟨begun, stands⟩, alone⟩ := times
  have old : w ≠ m.loop.fresh := Nat.ne_of_lt (sound.orderly.standing_below stands)
  exact ⟨window, ⟨begun, ((standing w).trans (if_neg old)).trans stands⟩, fun h => alone (refers h)⟩

theorem Timed.talk (timed : Timed m) (sound : Sound .idle m) (talk : Talk asks m k) : Timed k := by
  induction talk with
  | told h =>
    unfold Timed at timed ⊢
    rw [h.debouncer]
    refine timed.imp id fun ⟨w, window, stands, alone⟩ => ⟨w, ?_, ?_, ?_⟩
    · exact (congrArg _ h.debouncer).trans window
    · exact h.loop ▸ stands
    · exact h.loop ▸ alone
  | schedule m _ =>
    have cancelled := sound.cancel.orderly
    refine .inr ⟨m.cancel.loop.fresh, rfl, ⟨false, ?_⟩, fun refers => ?_⟩
    · exact (Loop.standing_spawn m.cancel.loop _ _ cancelled.new).trans (if_pos rfl)
    · exact absurd (cancelled.passive _ (.inl refers.of_spawn)).1 (Nat.lt_irrefl _)
  | @spawn m schema _ =>
    have standing (u : TaskId) := Loop.standing_spawnIn m.loop .spawned
      (.own (.save { schema := some schema } .answer)) u sound.orderly.new
    exact timed.imp id fun ⟨w, times⟩ => ⟨w, times.beside sound standing .of_spawnIn⟩
  | trans h _ ih ih' => exact ih' (ih timed sound) (sound.talk h)

theorem Timed.perform (timed : Timed m) (sound : Sound .idle m) (plain : Plain asks .idle m)
    {o : Operation} (own : o.plain = true) (asks_all : ∀ ov, asked m o ov → asks ov) :
    Timed (perform m o) := by
  have happens := perform_happens sound o
  have turn (h : o = .turn) : Timed (Coordinator.perform m o) := by
    subst h
    rcases timed with idle | ⟨w, times⟩
    · exact .inl ((perform_turn sound).unpending sound plain idle)
    · exact (times.turn sound plain).imp id fun times => ⟨w, times⟩
  generalize Coordinator.perform m o = k at happens turn ⊢
  cases happens with
  | exchange _ exchange => exact timed.talk sound exchange.talk
  | spawn e =>
    have standing (u : TaskId) := Loop.standing_spawn m.loop e.point u sound.orderly.new
    exact timed.imp id fun ⟨w, times⟩ => ⟨w, times.beside sound standing .of_spawn⟩
  | @enter e _ moves =>
    have entered := plain.enter sound own asks_all
    rcases timed with idle | ⟨w, times⟩
    · exact .inl (moves.unpending (sound.enter _) entered idle)
    · have standing (u : TaskId) := Loop.standing_enter m.loop e.point u sound.orderly.new
      obtain ⟨begun, stands⟩ := times.stands
      have old : w ≠ m.loop.fresh := Nat.ne_of_lt (sound.orderly.standing_below stands)
      have times := times.beside sound standing .of_enter
      refine (moves.times rfl (sound.enter _) entered (fun same => ?_) times).imp id
        fun times => ⟨w, times⟩
      exact old (Option.some.inj same).symm
  | turn => exact turn rfl
  | advance ha =>
    refine timed.imp id fun ⟨w, window, ⟨begun, stands⟩, alone⟩ => ⟨w, window, ⟨begun, ?_⟩, ?_⟩
    · exact (Loop.standing_advance? ha w).trans stands
    · exact fun refers => alone (refers.of_advance? ha)
  | still => exact timed

end Windows

end Sync.Coordinator

end SchemaDiagram
