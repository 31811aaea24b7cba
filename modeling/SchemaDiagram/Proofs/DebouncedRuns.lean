import SchemaDiagram.Proofs.Settling

/-!
Runs of a debouncer. Calls keep it in agreement with its account as passes of the loop do. So in every
run a payload is started once, when its window is over and no other has taken its place, or at once by
a flush, or never; who waits for quiet finds it; and a run comes to rest once the calls end.
-/

set_option autoImplicit false

namespace SchemaDiagram.Debounce.Job

section Calls

variable {delay : Float} {m : Machine} {a : Ledger} {t w : TaskId} {j : Job} {since : Float}

theorem now_cancel (m : Machine) : m.cancel.loop.now = m.loop.now := by
  unfold Machine.cancel
  cases m.debouncer.window with
  | none => rfl
  | some w => exact (Loop.touches_cancel m.loop w).now

theorem standing_cancel (m : Machine) (t : TaskId) :
    m.cancel.loop.standing t = m.loop.standing t := by
  unfold Machine.cancel
  cases m.debouncer.window with
  | none => rfl
  | some w => exact Loop.standing_cancel m.loop w t

theorem due_cancel (other : ∀ w, m.debouncer.window = some w → w ≠ t) :
    m.cancel.loop.due t = m.loop.due t := by
  unfold Machine.cancel
  cases window : m.debouncer.window with
  | none => rfl
  | some w => exact Loop.due_cancel m.loop (other w window).symm

theorem Sound.cancel (sound : Sound delay m a) :
    Sound delay m.cancel { a with waiting := none } where
  agrees := by
    refine (sound.agrees.cancel fun w window => ?_).account rfl rfl rfl rfl
    obtain ⟨_, _, times⟩ := sound.timed.times window
    exact times.at_window
  timed := rfl

theorem Sound.schedule (sound : Sound delay m a) (timed : j.timed = true) :
    Sound delay (m.schedule j) { a with waiting := some (j, m.loop.now) } where
  agrees := (sound.cancel.agrees.open rfl j).account rfl rfl rfl rfl
  timed := by
    have orderly := sound.cancel.agrees.orderly
    have idle := orderly.due_fresh
    refine ⟨m.cancel.loop.fresh, rfl, rfl, timed, fun refers => ?_, ?_,
      .unbegun ?_ ?_ (now_cancel m)⟩
    · exact absurd (orderly.passive _ (.inl (Loop.Refers.of_spawn refers))).1 (Nat.lt_irrefl _)
    · exact (Loop.due_spawn m.cancel.loop _ _).trans (by rw [idle, if_pos rfl])
    · exact (Loop.standing_spawn m.cancel.loop _ _ orderly.new).trans (if_pos rfl)
    · rw [Loop.due_eq] at idle
      exact List.eq_nil_of_length_eq_zero (Nat.eq_zero_of_add_eq_zero_left idle)

def entered (p : Point Stage Unit) (m : Machine) : Machine :=
  { m with loop := (m.loop.enter p).1 }

theorem standing_entered (sound : Sound delay m a) (p : Point Stage Unit) :
    (entered p m).loop.standing m.loop.fresh = some p ∧
      ∀ u q, m.loop.standing u = some q →
        u ≠ m.loop.fresh ∧ (entered p m).loop.standing u = some q := by
  have orderly := sound.agrees.orderly
  have standing (u : TaskId) := Loop.standing_enter m.loop p u orderly.new
  refine ⟨(standing _).trans (if_pos rfl), fun u q stands => ?_⟩
  have old : u ≠ m.loop.fresh := Nat.ne_of_lt (orderly.standing_below stands)
  exact ⟨old, (standing u).trans ((if_neg old).trans stands)⟩

theorem Sound.enter (sound : Sound delay m a) {p : Point Stage Unit} (silent : startAt p = none) :
    Turn delay m.loop.fresh [] (entered p m) a := by
  have orderly := sound.agrees.orderly
  have old (w : TaskId) (window : m.debouncer.window = some w) : w ≠ m.loop.fresh := by
    obtain ⟨_, _, times⟩ := sound.timed.times window
    obtain ⟨begun, stands⟩ := times.at_window
    exact Nat.ne_of_lt (orderly.standing_below stands)
  exact ⟨sound.agrees.enter silent, sound.timed.touch (k := entered p m)
    (Loop.touches_enter m.loop p orderly.new) rfl old, old⟩

theorem Turned.waits_of_entered {p : Point Stage Unit} {k : Machine} (sound : Sound delay m a)
    (others : ∀ u, u ≠ m.loop.fresh → k.loop.standing u = (entered p m).loop.standing u) :
    Waits m k := by
  intro u quiet
  obtain ⟨old, still⟩ := (standing_entered sound p).2 u _ quiet
  exact .inl ((others u old).trans still)

theorem Sound.waitCall (sound : Sound delay m a) :
    Sound delay (perform m .wait) (a.next m .wait) ∧ Waits m (perform m .wait) ∧
      ((perform m .wait).loop.standing m.loop.fresh = some (.quiet ()) ∨
        (perform m .wait).loop.outcome? m.loop.fresh = some (.returned .null) ∧
          Quiet (perform m .wait)) := by
  have shape : perform m .wait = (entered (.quiet ()) m).awaitQuiet use m.loop.fresh () := rfl
  obtain ⟨turned, quiet⟩ :=
    (sound.enter (p := .quiet ()) rfl).awaitQuiet (standing_entered sound _).1
  rw [← shape] at turned quiet
  refine ⟨⟨?_, turned.sound.timed⟩, Turned.waits_of_entered sound turned.others, quiet⟩
  refine { turned.sound.agrees with waits := fun u mem => ?_ }
  rcases List.mem_append.mp mem with mem | mem
  · exact turned.sound.agrees.waits u mem
  · obtain rfl := List.mem_singleton.mp mem
    refine quiet.imp id fun quiet => ?_
    rw [quiet.1]
    rfl

theorem Sound.sleepCall (sound : Sound delay m a) {seconds : Float}
    (number : seconds.isNaN = false) :
    Sound delay (perform m (.sleep seconds)) a ∧ Waits m (perform m (.sleep seconds)) := by
  have stands := (standing_entered sound (.pause false seconds)).1
  have turned := (sound.enter (p := .pause false seconds) rfl).sleep (q := .pause true seconds) stands
    number nofun ⟨rfl, .inr (Loop.begins_of_stands stands)⟩ number
    (fun j acts => absurd acts (not_acts stands rfl)) nofun
  exact ⟨turned.sound, Turned.waits_of_entered sound turned.others⟩

theorem resume_flush_idle (idle : m.pending = false) :
    Job.resume t .flush .go m = m.finish t (.returned .null) := by
  unfold Job.resume Machine.takePending
  simp [idle]

theorem resume_flush (pending : m.pending = true) (payload : m.debouncer.pending = some j) :
    Job.resume t .flush .go m = begin t j m.cancel := by
  unfold Job.resume Machine.takePending
  simp [pending, payload]

theorem Agrees.enlist_flushed {worker : Option TaskId} {hand : List Job}
    (agrees : Agrees delay worker hand m a)
    (acts : Acts m t j ∨ m.loop.outcome? t = some j.outcome) :
    Agrees delay worker hand m { a with flushed := a.flushed ++ [(t, j)] } := by
  refine { agrees with lasting := fun u i mem => ?_ }
  rw [← List.append_assoc] at mem
  rcases List.mem_append.mp mem with mem | mem
  · exact agrees.lasting u i mem
  · cases List.mem_singleton.mp mem
    exact acts

theorem Sound.flushCall (sound : Sound delay m a) :
    Sound delay (perform m .flush) (a.next m .flush) ∧ Waits m (perform m .flush) ∧
      starts (perform m .flush) =
        starts m ++ a.waiting.toList.map fun w => .start m.loop.now w.1.name := by
  have shape : perform m .flush = Job.resume m.loop.fresh .flush .go (entered (.own .flush) m) := rfl
  have turn := sound.enter (p := .own .flush) rfl
  have stands := (standing_entered sound (.own .flush)).1
  have idle : (entered (.own .flush) m).loop.due m.loop.fresh = 0 := sound.agrees.orderly.due_fresh
  have pending := turn.timed.pending
  cases waiting : a.waiting with
  | none =>
    rw [waiting] at pending
    have turned := turn.finish (o := .returned .null) stands (.inl idle)
      fun j acts => absurd acts (not_acts stands rfl)
    have same : a.next m .flush = a := by
      change a.flush _ _ = a
      unfold Ledger.flush
      rw [waiting]
    rw [shape, resume_flush_idle pending, same]
    exact ⟨turned.sound, Turned.waits_of_entered sound turned.others, (List.append_nil _).symm⟩
  | some v =>
    obtain ⟨j, since⟩ := v
    obtain ⟨w, times⟩ : ∃ w, Times delay (entered (.own .flush) m) j since w := by
      have timed := turn.timed
      rw [waiting] at timed
      exact timed
    rw [waiting] at pending
    have cancelled := turn.agrees.cancel fun v window => by
      obtain ⟨_, _, times⟩ := turn.timed.times window
      exact times.at_window
    have asked : Turn delay m.loop.fresh [j] _ _ := ⟨cancelled.demand j, rfl, nofun⟩
    have still := (standing_cancel (entered (.own .flush) m) m.loop.fresh).trans stands
    obtain ⟨turned, acts, started⟩ := asked.begin still ((due_cancel turn.other).trans idle)
      (fun i acts => absurd acts (not_acts still rfl)) times.timed
    have now : (entered (.own .flush) m).cancel.loop.now = m.loop.now := now_cancel _
    have next : a.next m .flush = _ := Ledger.flush_of_waiting waiting m.loop.now _
    rw [shape, resume_flush pending times.pending, next, ← now]
    refine ⟨⟨turned.sound.agrees.enlist_flushed acts, turned.sound.timed⟩, ?_, started⟩
    exact Turned.waits_of_entered sound fun u old => (turned.others u old).trans (standing_cancel _ u)

theorem attended_cancel (attended : m.loop.Attended) : m.cancel.loop.Attended := by
  unfold Machine.cancel
  cases m.debouncer.window with
  | none => exact attended
  | some w => exact attended.cancel w

theorem attended_begin (attended : m.loop.Attended) (t : TaskId) (j : Job) :
    (begin t j m).loop.Attended := by
  unfold begin complete
  cases j.work with
  | some seconds => exact attended.sleep t seconds _
  | none => cases j.failure <;> exact attended.finish t _

theorem Sound.attended (sound : Sound delay m a) (attended : m.loop.Attended) (o : Operation) :
    (perform m o).loop.Attended := by
  have entered (p : Point Stage Unit) : (entered p m).loop.Attended := attended.enter p
  have new (p : Point Stage Unit) := (sound.agrees.orderly.enter p).new
  cases o with
  | schedule j => exact (attended_cancel attended).spawn _
  | cancel => exact attended_cancel attended
  | wait => exact (worked_awaitQuiet _ m.loop.fresh).attended (new _) (entered (.quiet ()))
  | sleep seconds =>
    exact (worked_resume _ m.loop.fresh (.pause false seconds) .go nofun).attended (new _)
      (entered _)
  | flush =>
    have turn := sound.enter (p := .own .flush) rfl
    have pending := turn.timed.pending
    change (Job.resume m.loop.fresh .flush .go (Job.entered (.own .flush) m)).loop.Attended
    match waiting : a.waiting, turn.timed with
    | none, _ =>
      rw [waiting] at pending
      rw [resume_flush_idle pending]
      exact (entered _).finish _ _
    | some (j, since), ⟨w, times⟩ =>
      rw [waiting] at pending
      rw [resume_flush pending times.pending]
      exact attended_begin (attended_cancel (entered _)) _ j
  | pass =>
    by_cases busy : m.loop.ready ≠ [] ∨ m.loop.sleepers ≠ []
    · exact (sound.pass_lessens attended busy).1
    · obtain ⟨ready, sleepers⟩ := not_or.mp busy
      have stays : m.loop.advance? = none := by
        unfold Loop.advance? Loop.nextTime?
        rw [not_not.mp sleepers]
        rfl
      change (Job.pass m).loop.Attended
      rw [pass_of_nothing (not_not.mp ready), stays]
      exact attended

end Calls

/-- What an account tells of a debouncer: which payload is pending, which actions have been started, are
    about to be started now, or are still to come, and which go on. -/
structure Faithful (delay : Float) (m : Machine) (a : Ledger) : Prop where
  pending : m.pending = a.waiting.isSome
  /-- Each start that is due has been recorded or is made before the clock moves, and no other. -/
  started : a.due.Perm (starts m ++ upcoming m)
  /-- The clock has not passed the end of the window of the payload that waits. -/
  punctual : ∀ j since, a.waiting = some (j, since) →
    m.loop.now = since ∨ m.loop.now < since + delay ∨ m.loop.now = since + delay
  /-- With nothing ready, a task sleeps until then. -/
  awaited : ∀ j since, a.waiting = some (j, since) → m.loop.ready = [] →
    ∃ s ∈ m.loop.sleepers, s.wakeAt = since + delay
  /-- An action that has been started goes on to its own end. -/
  lasting : ∀ t j, (t, j) ∈ a.fired ++ a.flushed → Acts m t j ∨ m.loop.outcome? t = some j.outcome
  running : ∀ t j, (t, j) ∈ a.fired → m.loop.outcome? t = none → t ∈ m.fired

/-- Everything that was due has come to its end. -/
structure Settled (m : Machine) (a : Ledger) : Prop where
  ready : m.loop.ready = []
  sleepers : m.loop.sleepers = []
  waiting : a.waiting = none
  started : a.due.Perm (starts m)
  ended : ∀ t j, (t, j) ∈ a.fired ++ a.flushed → m.loop.outcome? t = some j.outcome

/-- What an operation comes to: a flush starts the payload that waits at once, and who waits for quiet
    returns only when nothing is pending and every action that a window has started has ended. -/
structure Kept (m : Machine) (a : Ledger) (o : Operation) : Prop where
  flushed : o = .flush →
    starts (perform m o) = starts m ++ a.waiting.toList.map fun w => .start m.loop.now w.1.name
  returns : ∀ t ∈ (a.next m o).waits, m.loop.outcome? t = none →
    ∀ v, (perform m o).loop.outcome? t = some (.returned v) →
      (perform m o).pending = false ∧ (perform m o).running = false ∧
        ∀ u j, (u, j) ∈ (a.next m o).fired → (perform m o).loop.outcome? u = some j.outcome

section Runs

variable {delay : Float} {m : Machine} {a : Ledger} {operations : List Operation}

theorem Sound.idle (delay : Float) : Sound delay (Job.idle delay) {} :=
  ⟨⟨rfl, Loop.orderly_empty, .zero, nofun, nofun, nofun, nofun, .refl _, nofun, nofun, nofun⟩, rfl⟩

theorem Sound.times (sound : Sound delay m a) {j : Job} {since : Float}
    (waiting : a.waiting = some (j, since)) : ∃ w, Times delay m j since w := by
  have timed := sound.timed
  rw [waiting] at timed
  exact timed

theorem Sound.faithful (sound : Sound delay m a) : Faithful delay m a where
  pending := sound.timed.pending
  started := sound.agrees.started
  punctual j since waiting := by
    obtain ⟨w, times⟩ := sound.times waiting
    cases times.stands with
    | unbegun _ _ now => exact .inl now
    | asleep _ _ early => exact early.imp id .inl
    | elapsed _ _ now => exact .inr (.inr now)
  awaited j since waiting nothing := by
    obtain ⟨w, times⟩ := sound.times waiting
    have wakes : since + delay ∈ m.loop.alarms w :=
      (times.alarms nothing).1 ▸ List.mem_singleton.mpr rfl
    obtain ⟨s, hs, same⟩ := List.mem_map.mp wakes
    exact ⟨s, (List.mem_filter.mp hs).1, same⟩
  lasting := sound.agrees.lasting
  running := sound.agrees.running

theorem Sound.settled (sound : Sound delay m a) (ready : m.loop.ready = [])
    (sleepers : m.loop.sleepers = []) : Settled m a where
  ready := ready
  sleepers := sleepers
  waiting := by
    cases waiting : a.waiting with
    | none => rfl
    | some v =>
      obtain ⟨w, times⟩ := sound.times waiting
      have alarms := (times.alarms ready).1
      unfold Loop.alarms at alarms
      rw [sleepers] at alarms
      cases alarms
  started := by
    have started := sound.agrees.started
    unfold Loop.coming at started
    rw [ready] at started
    simpa using started
  ended t j mem := by
    refine (sound.agrees.lasting t j mem).resolve_left fun acts => ?_
    have rests : m.loop.due t = 0 := by
      unfold Loop.due
      rw [ready, sleepers]
      rfl
    have goes : 0 < m.loop.due t := by
      rcases acts with stands | stands
      · exact ((sound.agrees.proper t _ stands).resolve_left nofun).2
      · exact (sound.agrees.proper t _ stands).resolve_left nofun
    omega

/-- Every operation keeps a debouncer in agreement with the account of it. -/
theorem Sound.perform (sound : Sound delay m a) (nonneg : 0 ≤ delay) {o : Operation}
    (timed : o.timed = true) :
    Sound delay (Job.perform m o) (a.next m o) ∧ Waits m (Job.perform m o) := by
  cases o with
  | schedule j =>
    have still (t : TaskId) : (m.schedule j).loop.standing t =
        if t = m.cancel.loop.fresh then some (.window false) else m.cancel.loop.standing t :=
      Loop.standing_spawn m.cancel.loop _ t sound.cancel.agrees.orderly.new
    refine ⟨sound.schedule timed, fun t quiet => .inl ?_⟩
    have quiet := (standing_cancel m t).trans quiet
    have old : t ≠ m.cancel.loop.fresh :=
      Nat.ne_of_lt (sound.cancel.agrees.orderly.standing_below quiet)
    exact (still t).trans ((if_neg old).trans quiet)
  | cancel => exact ⟨sound.cancel, fun t quiet => .inl ((standing_cancel m t).trans quiet)⟩
  | flush => exact ⟨sound.flushCall.1, sound.flushCall.2.1⟩
  | wait => exact ⟨sound.waitCall.1, sound.waitCall.2.1⟩
  | sleep seconds =>
    have number : seconds.isNaN = false := by simpa [Operation.timed] using timed
    exact sound.sleepCall number
  | pass => exact sound.pass nonneg

theorem Sound.kept (sound : Sound delay m a) (nonneg : 0 ≤ delay) {o : Operation}
    (timed : o.timed = true) : Kept m a o where
  flushed same := by
    subst same
    exact sound.flushCall.2.2
  returns t mem open_ v returned := by
    obtain ⟨after, waits⟩ := sound.perform nonneg timed
    have gone := Loop.standing_of_ended returned
    have quiet : Quiet (Job.perform m o) := by
      -- it has waited before, or the call that has just been made is the one that waits
      by_cases known : t ∈ a.waits
      · have stands := (sound.agrees.waits t known).resolve_right (by simp [open_])
        rcases waits t stands with still | ⟨f, failed⟩ | quiet
        · cases gone.symm.trans still
        · cases returned.symm.trans failed
        · exact quiet
      · cases o with
        | wait =>
          obtain rfl := List.mem_singleton.mp ((List.mem_append.mp mem).resolve_left known)
          exact (sound.waitCall.2.2.resolve_left fun still => nomatch gone.symm.trans still).2
        | schedule | cancel | sleep => exact absurd mem known
        | flush => exact absurd (a.waits_flush _ _ ▸ mem) known
        | pass =>
          rw [next_pass] at mem
          split at mem
          · exact absurd mem known
          · exact absurd (a.waits_fire _ _ ▸ mem) known
    refine ⟨quiet.1, quiet.2, fun u j mem => ?_⟩
    rcases after.agrees.lasting u j (List.mem_append_left _ mem) with acts | ended
    · exfalso
      have member := after.agrees.running u j mem acts.open
      have empty : (Job.perform m o).fired = [] := by
        simpa [Machine.running] using quiet.2
      rw [empty] at member
      cases member
    · exact ended

theorem sound_performAll (nonneg : 0 ≤ delay) (timed : ∀ o ∈ operations, o.timed = true) :
    Sound delay (performAll delay operations).1 (performAll delay operations).2 ∧
      (performAll delay operations).1.loop.Attended :=
  List.foldlRecOn
    (motive := fun r : Machine × Ledger => Sound delay r.1 r.2 ∧ r.1.loop.Attended) operations _
    ⟨.idle delay, nofun⟩ fun _ ⟨sound, attended⟩ o mem =>
      ⟨(sound.perform nonneg (timed o mem)).1, sound.attended attended o⟩

/-- Whatever is scheduled, cancelled, flushed and waited for, at whatever times: a payload is started
    once, when its window is over and no other has taken its place, or at once by a flush, or never;
    an action that is started goes on to its own end, and who waits for quiet finds it. Once the calls
    end, all that was due comes to its end. -/
theorem debounced_faithfully (nonneg : 0 ≤ delay) (timed : ∀ o ∈ operations, o.timed = true) :
    Faithful delay (performAll delay operations).1 (performAll delay operations).2 ∧
      (∀ earlier o, earlier ++ [o] <+: operations →
        Kept (performAll delay earlier).1 (performAll delay earlier).2 o) ∧
      ∃ n, Settled (performAll delay (operations ++ List.replicate n .pass)).1
        (performAll delay (operations ++ List.replicate n .pass)).2 := by
  obtain ⟨sound, attended⟩ := sound_performAll nonneg timed
  refine ⟨sound.faithful, fun earlier o part => ?_, ?_⟩
  · have mem {p : Operation} (hp : p ∈ earlier ++ [o]) : p.timed = true := timed p (part.subset hp)
    have before := (sound_performAll nonneg fun p hp => mem (List.mem_append_left _ hp)).1
    exact before.kept nonneg (mem (List.mem_append_right _ (List.mem_singleton.mpr rfl)))
  · obtain ⟨n, k, b, run, rests, ready, sleepers⟩ := sound.settles attended nonneg
    have shape : performAll delay (operations ++ List.replicate n .pass) = (k, b) :=
      (List.foldl_append ..).trans run
    refine ⟨n, ?_⟩
    rw [shape]
    exact rests.settled ready sleepers

/-- A window is superseded when it is about to be over; the next one is over while its payload is
    waited for, and a third payload is flushed. -/
def burst : List Operation := List.flatten [
  [.schedule { name := .str "a" }, .wait, .pass, .pass,
    .schedule { name := .str "b", work := some 2.0, failure := some "lost" }],
  List.replicate 6 .pass,
  [.schedule { name := .str "c" }, .flush],
  List.replicate 8 .pass]

theorem debounced_faithfully_burst :
    (0 : Float) ≤ 1.5 ∧ (∀ o ∈ burst, o.timed = true) ∧
      Faithful 1.5 (performAll 1.5 burst).1 (performAll 1.5 burst).2 ∧
      (∃ n, Settled (performAll 1.5 (burst ++ List.replicate n .pass)).1
        (performAll 1.5 (burst ++ List.replicate n .pass)).2) ∧
      starts (performAll 1.5 burst).1 = [.start 3.0 (.str "b"), .start 3.0 (.str "c")] := by
  obtain ⟨faithful, -, settled⟩ :=
    @debounced_faithfully 1.5 burst (by decide) (by decide)
  exact ⟨by decide, by decide, faithful, settled, by decide +kernel⟩

end Runs

end SchemaDiagram.Debounce.Job
