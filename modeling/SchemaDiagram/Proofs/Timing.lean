import SchemaDiagram.Proofs.Accounts

/-!
How a payload that waits is timed, and the turn of a task. The task of a window goes on by itself
only: at once, to go to sleep, and when the window is over. A task that times no window leaves the
payload that waits alone, so that a debouncer agrees with its account again after its turn.
-/

set_option autoImplicit false

namespace SchemaDiagram.Debounce.Job

/-- How far a window has come that was begun at some time. -/
inductive Stands (delay : Float) (l : Loop (Point Stage Unit)) (w : TaskId) (since : Float) :
    Prop where
  | unbegun (stands : l.standing w = some (.window false)) (alarms : l.alarms w = [])
      (now : l.now = since)
  | asleep (stands : l.standing w = some (.window true)) (alarms : l.alarms w = [since + delay])
      (early : l.now = since ∨ l.now < since + delay)
  | elapsed (stands : l.standing w = some (.window true)) (alarms : l.alarms w = [])
      (now : l.now = since + delay)

/-- A task times the window of a payload: it is due once, and nothing makes it go on out of turn. -/
structure Times (delay : Float) (m : Machine) (j : Job) (since : Float) (w : TaskId) : Prop where
  window : m.debouncer.window = some w
  pending : m.debouncer.pending = some j
  timed : j.timed = true
  alone : ¬ m.loop.Refers w
  once : m.loop.due w = 1
  stands : Stands delay m.loop w since

/-- The payload that waits is timed, and no window is open without one. -/
def Timed (delay : Float) (m : Machine) : Option (Job × Float) → Prop
  | none => m.debouncer.window = none
  | some (j, since) => ∃ w, Times delay m j since w

section Times

variable {delay : Float} {m k : Machine} {a : Ledger} {t w : TaskId} {j : Job} {since : Float}
  {who : TaskId → Prop} {c : Callback} {rest : List Callback}

theorem Times.keep (times : Times delay m j since w) (same : k.debouncer = m.debouncer)
    (now : k.loop.now = m.loop.now) (standing : k.loop.standing w = m.loop.standing w)
    (alarms : k.loop.alarms w = m.loop.alarms w) (due : k.loop.due w = m.loop.due w)
    (refers : k.loop.Refers w → m.loop.Refers w) : Times delay k j since w := by
  refine ⟨same ▸ times.window, same ▸ times.pending, times.timed, times.alone ∘ refers,
    due.trans times.once, ?_⟩
  cases times.stands with
  | unbegun stands asleep clock =>
    exact .unbegun (standing.trans stands) (alarms.trans asleep) (now.trans clock)
  | asleep stands asleep early =>
    exact .asleep (standing.trans stands) (alarms.trans asleep) (now ▸ early)
  | elapsed stands asleep clock =>
    exact .elapsed (standing.trans stands) (alarms.trans asleep) (now.trans clock)

theorem Times.touch (times : Times delay m j since w) (touches : m.loop.Touches k.loop who)
    (same : k.debouncer = m.debouncer) (other : ¬ who w) : Times delay k j since w :=
  times.keep same touches.now (touches.standing w other) (touches.alarms w other)
    (touches.due w other) (touches.refers w other)

theorem Times.pop (times : Times delay m j since w) (ready : m.loop.ready = c :: rest)
    (other : c.target? ≠ some w) : Times delay (takeUp rest m) j since w := by
  exact times.keep rfl rfl rfl rfl (Loop.due_takeUp_of_other ready other) fun refers =>
    refers.of_rest ready rfl rfl

theorem Times.at_window (times : Times delay m j since w) :
    ∃ begun, m.loop.standing w = some (.window begun) := by
  cases times.stands with
  | unbegun stands | asleep stands | elapsed stands => exact ⟨_, stands⟩

theorem Timed.times {waiting : Option (Job × Float)} (timed : Timed delay m waiting)
    (window : m.debouncer.window = some w) : ∃ j since, Times delay m j since w := by
  match waiting, timed with
  | none, idle => cases window.symm.trans idle
  | some (j, since), ⟨v, times⟩ =>
    obtain rfl := Option.some.inj (window.symm.trans times.window)
    exact ⟨j, since, times⟩

theorem Timed.pop {waiting : Option (Job × Float)} (timed : Timed delay m waiting)
    (ready : m.loop.ready = c :: rest)
    (other : ∀ w, m.debouncer.window = some w → c.target? ≠ some w) :
    Timed delay (takeUp rest m) waiting := by
  match waiting, timed with
  | none, idle => exact idle
  | some (j, since), ⟨w, times⟩ => exact ⟨w, times.pop ready (other w times.window)⟩

theorem Times.alarms (times : Times delay m j since w) (nothing : m.loop.ready = []) :
    m.loop.alarms w = [since + delay] ∧ (m.loop.now = since ∨ m.loop.now < since + delay) := by
  have once := times.once
  rw [Loop.due_eq, nothing, List.countP_nil] at once
  cases times.stands with
  | unbegun _ alarms | elapsed _ alarms =>
    rw [alarms] at once
    cases once
  | asleep _ alarms early => exact ⟨alarms, early⟩

theorem Times.advance (times : Times delay m j since w)
    (instants : ∀ s ∈ m.loop.sleepers, Instant s.wakeAt) (nothing : m.loop.ready = [])
    {l : Loop (Point Stage Unit)} (moves : m.loop.advance? = some l) :
    Times delay { m with loop := l } j since w := by
  obtain ⟨alarms, -⟩ := times.alarms nothing
  obtain ⟨clock, least⟩ := Loop.advance?_least instants moves
  refine ⟨times.window, times.pending, times.timed,
    fun refers => times.alone (refers.of_advance? moves),
    (Loop.due_advance? moves w).trans times.once, ?_⟩
  have stands : m.loop.standing w = some (.window true) := by
    cases times.stands with
    | unbegun _ none => cases alarms.symm.trans none
    | asleep stands | elapsed stands => exact stands
  have stands := (Loop.standing_advance? moves w).trans stands
  obtain ⟨s, hs, wakes⟩ : ∃ s ∈ m.loop.sleepers, s.wakeAt = since + delay := by
    have mem : since + delay ∈ m.loop.alarms w := alarms ▸ List.mem_singleton.mpr rfl
    obtain ⟨s, hs, wakes⟩ := List.mem_map.mp mem
    exact ⟨s, (List.mem_filter.mp hs).1, wakes⟩
  have last := Loop.alarms_advance? moves w
  rw [alarms] at last
  have instant : Instant (since + delay) := wakes ▸ instants s hs
  have le : l.now ≤ since + delay := wakes ▸ least s hs
  by_cases ge : since + delay ≤ l.now
  · exact .elapsed stands (last.trans (by simp [ge])) (clock.le_antisymm instant le ge)
  · exact .asleep stands (last.trans (by simp [ge])) (.inr (instant.lt_of_not_ge clock ge))

/-- A payload that waits is pending as the outside sees it, and no other is. -/
theorem Timed.pending {waiting : Option (Job × Float)} (timed : Timed delay m waiting) :
    m.pending = waiting.isSome := by
  unfold Machine.pending Machine.window?
  match waiting, timed with
  | none, idle =>
    rw [show m.debouncer.window = none from idle]
    rfl
  | some (j, since), ⟨w, times⟩ =>
    obtain ⟨begun, stands⟩ := times.at_window
    rw [times.window]
    simp [Loop.outcome?_of_stands stands]

theorem Timed.touch {waiting : Option (Job × Float)} (timed : Timed delay m waiting)
    (touches : m.loop.Touches k.loop who) (same : k.debouncer = m.debouncer)
    (other : ∀ w, m.debouncer.window = some w → ¬ who w) : Timed delay k waiting := by
  match waiting, timed with
  | none, idle => exact (congrArg Debouncer.window same).trans idle
  | some (j, since), ⟨w, times⟩ => exact ⟨w, times.touch touches same (other w times.window)⟩

theorem Timed.of_same {waiting : Option (Job × Float)} (timed : Timed delay m waiting)
    (loop : k.loop = m.loop) (debouncer : k.debouncer = m.debouncer) : Timed delay k waiting :=
  timed.touch (loop ▸ Loop.Touches.refl m.loop fun _ => False) debouncer fun _ _ => id

end Times

/-- Between turns a debouncer agrees with an account, and the payload that waits is timed. -/
structure Sound (delay : Float) (m : Machine) (a : Ledger) : Prop where
  agrees : Agrees delay none [] m a
  timed : Timed delay m a.waiting

/-- Nothing is pending, and no action that a window has started goes on. -/
def Quiet (m : Machine) : Prop := m.pending = false ∧ m.running = false

structure Turn (delay : Float) (t : TaskId) (hand : List Job) (m : Machine) (a : Ledger) :
    Prop where
  agrees : Agrees delay (some t) hand m a
  timed : Timed delay m a.waiting
  other : ∀ w, m.debouncer.window = some w → w ≠ t

section Turn

variable {delay : Float} {hand : List Job} {m k : Machine} {a : Ledger} {t : TaskId} {j : Job}

structure Turned (delay : Float) (t : TaskId) (m k : Machine) (a : Ledger) : Prop where
  sound : Sound delay k a
  others : ∀ u, u ≠ t → k.loop.standing u = m.loop.standing u

theorem Turn.finish (turn : Turn delay t [] m a) {p : Point Stage Unit}
    (stands : m.loop.standing t = some p)
    (silent : m.loop.due t = 0 ∨ m.loop.begins startAt t = none) {o : Outcome}
    (ends : ∀ j, Acts m t j → j.outcome = o) : Turned delay t m (m.finish t o) a where
  sound :=
    ⟨turn.agrees.finish stands silent ends,
      turn.timed.touch (k := m.finish t o) (Loop.touches_finish stands o) rfl turn.other⟩
  others u hu := (Loop.standing_finish m.loop t u o).trans (if_neg hu)

theorem Turn.sleep (turn : Turn delay t [] m a) {p q : Point Stage Unit}
    (stands : m.loop.standing t = some p) {seconds : Float} (number : seconds.isNaN = false)
    (act : active q = true → active p = true ∧ m.loop.due t = 0)
    (silent : startAt q = none ∧ (m.loop.due t = 0 ∨ m.loop.begins startAt t = none))
    (proper : Proper { m with loop := m.loop.sleep t seconds q } t q)
    (works : ∀ j, Acts m t j → q = .own (.work j)) (loud : p ≠ .quiet ()) :
    Turned delay t m { m with loop := m.loop.sleep t seconds q } a where
  sound :=
    ⟨turn.agrees.sleep stands number act silent proper works loud,
      turn.timed.touch (k := { m with loop := m.loop.sleep t seconds q })
        (Loop.touches_sleep m.loop t seconds q) rfl turn.other⟩
  others u hu := (Loop.standing_sleep m.loop t u seconds q).trans (if_neg hu)

theorem Turn.note (turn : Turn delay t hand m a) (line : LogLine) :
    Turn delay t hand (m.note line) a :=
  ⟨{ turn.agrees with }, turn.timed.of_same rfl rfl, turn.other⟩

theorem Turn.awaitQuiet (turn : Turn delay t [] m a)
    (stands : m.loop.standing t = some (.quiet ())) :
    Turned delay t m (m.awaitQuiet use t ()) a ∧
      ((m.awaitQuiet use t ()).loop.standing t = some (.quiet ()) ∨
        (m.awaitQuiet use t ()).loop.outcome? t = some (.returned .null) ∧
          Quiet (m.awaitQuiet use t ())) := by
  have orderly := turn.agrees.orderly
  have silent : m.loop.begins startAt t = none := Loop.begins_of_stands stands
  have lingers {l : Loop (Point Stage Unit)} (touches : m.loop.Touches l (· = t))
      (orderly : l.Orderly active m.debouncer.window) (sleepers : l.sleepers = m.loop.sleepers)
      (still : l.standing t = some (.quiet ())) : Turned delay t m { m with loop := l } a :=
    ⟨⟨turn.agrees.linger stands touches orderly sleepers still,
      turn.timed.touch (k := { m with loop := l }) touches rfl turn.other⟩, touches.standing⟩
  unfold Machine.awaitQuiet
  cases window : m.window? with
  | some w =>
    have still : (m.loop.join t w (.quiet ())).standing t = some (.quiet ()) := by
      rw [Loop.standing_join, if_pos rfl, stands]
      rfl
    exact ⟨lingers (Loop.touches_join m.loop t w _) (orderly.join rfl ⟨_, stands⟩) rfl still,
      .inl still⟩
  | none =>
    simp only
    split
    · have still : (m.loop.gather t m.fired (.quiet ())).standing t = some (.quiet ()) := by
        rw [Loop.standing_gather, if_pos rfl, stands]
        rfl
      exact ⟨lingers (Loop.touches_gather m.loop t _ _) (orderly.gather rfl ⟨_, stands⟩)
        (Loop.sleepers_gather m.loop t _ _) still, .inl still⟩
    · rename_i idle
      have turned : Turned delay t m (m.finish t (.returned .null)) a :=
        turn.finish stands (.inr silent) fun j acts => absurd acts (not_acts stands rfl)
      refine ⟨turned, .inr ⟨Loop.outcome?_finish stands _, ?_, ?_⟩⟩
      · refine (turned.sound.timed.pending.trans turn.timed.pending.symm).trans ?_
        unfold Machine.pending
        rw [window]
        rfl
      · refine (?_ : _ = m.running).trans (Bool.not_eq_true _ ▸ idle)
        unfold Machine.running Machine.fired Loop.members
        exact Loop.groups_finish m.loop t (.returned .null) ▸ rfl

theorem Turn.complete (turn : Turn delay t [] m a) {s : Stage}
    (stands : m.loop.standing t = some (.own s)) (idle : m.loop.due t = 0)
    (same : ∀ i, Acts m t i → i = j) :
    Turned delay t m (complete t j m) a ∧ (complete t j m).loop.outcome? t = some j.outcome ∧
      starts (complete t j m) = starts m := by
  have ends {e : Event} (ends : e.isStart = false) {o : Outcome} (outcome : j.outcome = o) :
      Turned delay t m ((record m e).finish t o) a ∧
        ((record m e).finish t o).loop.outcome? t = some j.outcome ∧
        starts ((record m e).finish t o) = starts m := by
    have recorded : Turn delay t [] (record m e) a :=
      ⟨turn.agrees.record_end ends, turn.timed.of_same rfl rfl, turn.other⟩
    obtain ⟨sound, others⟩ := recorded.finish (m := record m e) stands (.inl idle)
      fun i acts => same i acts ▸ outcome
    exact ⟨⟨sound, others⟩, outcome ▸ Loop.outcome?_finish stands _, starts_record_end m ends⟩
  unfold Job.complete
  cases failure : j.failure with
  | some message => exact ends rfl (by unfold outcome; rw [failure])
  | none => exact ends rfl (by unfold outcome; rw [failure])

/-- A job is started: its task works, or has done its work. -/
theorem Turn.begin (turn : Turn delay t [j] m a) {s : Stage}
    (stands : m.loop.standing t = some (.own s)) (idle : m.loop.due t = 0)
    (same : ∀ i, Acts m t i → i = j) (number : j.timed = true) :
    Turned delay t m (begin t j m) a ∧
      (Acts (begin t j m) t j ∨ (begin t j m).loop.outcome? t = some j.outcome) ∧
      starts (begin t j m) = starts m ++ [.start m.loop.now j.name] := by
  have recorded : Turn delay t [] (record m (.start m.loop.now j.name)) a :=
    ⟨turn.agrees.record_start, turn.timed.of_same rfl rfl, turn.other⟩
  have started := starts_record_start m j
  unfold Job.begin
  cases work : j.work with
  | none =>
    obtain ⟨⟨sound, others⟩, ended, silent⟩ := recorded.complete stands idle same
    exact ⟨⟨sound, others⟩, .inr ended, silent.trans started⟩
  | some seconds =>
    have seconds_number : seconds.isNaN = false := by
      simpa [Job.timed, work] using number
    have works : (m.loop.sleep t seconds (.own (.work j))).standing t = some (.own (.work j)) := by
      rw [Loop.standing_sleep, if_pos rfl, stands]
      rfl
    have goes : 0 < (m.loop.sleep t seconds (.own (.work j))).due t := by
      rw [Loop.due_sleep, if_pos rfl]
      exact Nat.succ_pos _
    obtain ⟨sound, others⟩ := recorded.sleep (q := .own (.work j)) stands seconds_number
      (fun _ => ⟨rfl, idle⟩) ⟨rfl, .inl idle⟩ goes (fun i acts => same i acts ▸ rfl) nofun
    exact ⟨⟨sound, others⟩, .inl (.inr works), started⟩

end Turn

end SchemaDiagram.Debounce.Job
