import SchemaDiagram.Proofs.Timing

/-!
A pass of the loop. Whatever is ready has its turn: a task that times no window, the task of the
window, which goes to sleep or makes a task of the action of its payload, or what has no task to go
on. When nothing is ready, the clock moves. After each of these a debouncer agrees with its account,
and whoever waits for quiet waits on, fails, or finds all quiet.
-/

set_option autoImplicit false

namespace SchemaDiagram.Debounce.Job

section Pass

variable {delay : Float} {m k : Machine} {a : Ledger} {t w : TaskId} {j : Job} {since : Float}
  {c : Callback} {rest : List Callback} {p : Point Stage Unit}

theorem run_of_target (rest : List Callback) (target : c.target? = some t)
    (stands : m.loop.standing t = some p) :
    ∃ x signal, m.loop.task? t = some x ∧ x.point = p ∧ (c.steps t = true → c = .step t signal) ∧
      use.host.run c (takeUp rest m) =
        (takeUp rest m).resume use t p (if x.calledOff then .cancelled else signal) := by
  obtain ⟨signal, own, run⟩ := use.host.run_of_target target
  obtain ⟨x, found, point, step⟩ :=
    use.host.step_of_standing (s := takeUp rest m) stands signal
  exact ⟨x, signal, found, point, own, (run _).trans step⟩

/-- Whoever waits for quiet waits on or fails, unless all is quiet. -/
def Waits (m k : Machine) : Prop :=
  ∀ t, m.loop.standing t = some (.quiet ()) → k.loop.standing t = some (.quiet ()) ∨
    (∃ f, k.loop.outcome? t = some (.failed f)) ∨ Quiet k

theorem Turned.waits (turned : Turned delay t m k a)
    (own : m.loop.standing t = some (.quiet ()) → k.loop.standing t = some (.quiet ()) ∨
      (∃ f, k.loop.outcome? t = some (.failed f)) ∨ Quiet k) : Waits m k := by
  intro u stands
  by_cases same : u = t
  · subst u
    exact own stands
  · exact .inl ((turned.others u same).trans stands)

theorem Turned.goes (turned : Turned delay t m k a) (stands : m.loop.standing t = some p)
    (loud : p ≠ .quiet ()) : Sound delay k a ∧ Waits m k :=
  ⟨turned.sound,
    turned.waits fun quiet => absurd (Option.some.inj (stands.symm.trans quiet)) loud⟩

theorem Turn.resume_own {s : Stage} (turn : Turn delay t (startAt (.own s)).toList m a)
    (stands : m.loop.standing t = some (.own s)) (idle : m.loop.due t = 0)
    (timed : ∀ j, s = .start j → j.timed = true) (proper : s ≠ .flush) :
    Sound delay (m.resume use t (.own s) .go) a ∧ Waits m (m.resume use t (.own s) .go) := by
  cases s with
  | start j =>
    obtain ⟨turned, -⟩ := turn.begin stands idle
      (fun i acts => (Option.some.inj (acts.jobAt stands)).symm) (timed j rfl)
    exact turned.goes stands nofun
  | work j =>
    obtain ⟨turned, -⟩ := turn.complete stands idle
      fun i acts => (Option.some.inj (acts.jobAt stands)).symm
    exact turned.goes stands nofun
  | flush => exact absurd rfl proper

theorem Turn.drop (turn : Turn delay t [] m a) (stands : m.loop.standing t = some p)
    (idle : jobAt p = none) (silent : startAt p = none) (o : Outcome) :
    Turned delay t m (m.finish t o) a :=
  turn.finish stands (.inr ((Loop.begins_of_stands stands).trans silent))
    fun _ acts => absurd acts (not_acts stands idle)

theorem Turn.resume_quiet (turn : Turn delay t [] m a)
    (stands : m.loop.standing t = some (.quiet ())) (signal : Signal) :
    Sound delay (m.resume use t (.quiet ()) signal) a ∧
      Waits m (m.resume use t (.quiet ()) signal) := by
  cases signal with
  | go =>
    obtain ⟨turned, quiet⟩ := turn.awaitQuiet stands
    exact ⟨turned.sound, turned.waits fun _ => quiet.imp id fun quiet => .inr quiet.2⟩
  | cancelled =>
    -- what it waited for has been superseded
    obtain ⟨⟨sound, others⟩, quiet⟩ := (turn.note
      ⟨.debug, .debouncer, "Debounced call superseded while waiting"⟩).awaitQuiet stands
    have turned : Turned delay t m _ a := ⟨sound, others⟩
    exact ⟨turned.sound, turned.waits fun _ => quiet.imp id fun quiet => .inr quiet.2⟩
  | failed f =>
    have turned := turn.drop stands rfl rfl (.failed f)
    exact ⟨turned.sound, turned.waits fun _ => .inr (.inl ⟨f, Loop.outcome?_finish stands _⟩)⟩

theorem Turn.resume_pause {begun : Bool} {seconds : Float} (turn : Turn delay t [] m a)
    (stands : m.loop.standing t = some (.pause begun seconds)) (number : seconds.isNaN = false)
    (signal : Signal) : Sound delay (m.resume use t (.pause begun seconds) signal) a ∧
      Waits m (m.resume use t (.pause begun seconds) signal) := by
  have ends (o : Outcome) : Sound delay (m.finish t o) a ∧ Waits m (m.finish t o) :=
    (turn.drop stands rfl rfl o).goes stands nofun
  cases signal with
  | cancelled => cases begun <;> exact ends _
  | failed f => cases begun <;> exact ends _
  | go =>
    cases begun with
    | true => exact ends _
    | false =>
      have turned := turn.sleep (q := .pause true seconds) stands number nofun
        ⟨rfl, .inr (Loop.begins_of_stands stands)⟩ number
        (fun j acts => absurd acts (not_acts stands rfl)) nofun
      exact turned.goes stands nofun

/-- The turn of a task that times no window. -/
theorem Sound.turn (sound : Sound delay m a) (ready : m.loop.ready = c :: rest)
    (target : c.target? = some t) (stands : m.loop.standing t = some p)
    (other : ∀ w, m.debouncer.window = some w → w ≠ t) :
    Sound delay (use.host.run c (takeUp rest m)) a ∧
      Waits (takeUp rest m) (use.host.run c (takeUp rest m)) := by
  have mem : c ∈ m.loop.ready := ready ▸ List.mem_cons_self
  have orderly := sound.agrees.orderly
  have proper := (sound.agrees.proper t p stands).resolve_left nofun
  obtain ⟨x, signal, found, point, own, run⟩ := run_of_target rest target stands
  have timed : Timed delay (takeUp rest m) a.waiting :=
    sound.timed.pop ready fun w window same =>
      other w window (Option.some.inj (same.symm.trans target))
  have turn : Turn delay t (m.loop.heralds startAt c).toList (takeUp rest m) a :=
    ⟨sound.agrees.pop ready fun _ _ same _ => target.symm.trans same, timed, other⟩
  have stands' : (takeUp rest m).loop.standing t = some p := stands
  have unheralded (silent : startAt p = none) : m.loop.heralds startAt c = none := by
    cases c with
    | ended => rfl
    | step u signal =>
      obtain rfl := Option.some.inj target
      exact (Loop.begins_of_stands stands).trans silent
  rw [run]
  cases p with
  | own s =>
    -- it goes on in its own turn, and is not due for another
    obtain rfl := own (orderly.steps_of_active mem target stands rfl)
    obtain rfl := orderly.signal_of_active mem stands rfl
    have called : x.calledOff = false :=
      orderly.calledOff_of_active found (point ▸ stands) (point ▸ rfl)
    have begun : m.loop.heralds startAt (.step t .go) = startAt (.own s) :=
      Loop.begins_of_stands stands
    rw [begun] at turn
    rw [called]
    refine turn.resume_own stands' (orderly.due_pop ready target stands rfl) ?_ ?_
    · rintro j rfl
      exact proper.1
    · rintro rfl
      exact proper
  | window begun =>
    -- it has been superseded, so that it was called off
    have called : x.calledOff = true := by
      obtain named | ⟨y, hy, called⟩ := proper
      · exact absurd rfl (other t named)
      · obtain rfl := Option.some.inj (found.symm.trans hy)
        exact called
    rw [unheralded rfl] at turn
    rw [called]
    exact (turn.drop stands' rfl rfl .cancelled).goes stands' nofun
  | quiet next =>
    rw [unheralded rfl] at turn
    exact turn.resume_quiet stands' _
  | pause begun seconds =>
    rw [unheralded rfl] at turn
    exact turn.resume_pause stands' proper _

theorem Times.run (times : Times delay m j since w) (ready : m.loop.ready = c :: rest)
    (target : c.target? = some w) :
    ∃ begun, m.loop.standing w = some (.window begun) ∧ (takeUp rest m).loop.due w = 0 ∧
      m.loop.alarms w = [] ∧ c = .step w .go ∧
      use.host.run c (takeUp rest m) = (takeUp rest m).resume use w (.window begun) .go := by
  have mem : c ∈ m.loop.ready := ready ▸ List.mem_cons_self
  obtain ⟨begun, stands⟩ := times.at_window
  obtain rfl := Loop.go_of_alone times.alone mem target
  obtain ⟨x, signal, found, point, own, run⟩ := run_of_target rest target stands
  obtain rfl : Signal.go = signal := by simpa using own (by simp [Callback.steps])
  have once := times.once
  rw [Loop.due_eq, ready, List.countP_cons_of_pos (by simp [Callback.steps])] at once
  have idle : (takeUp rest m).loop.due w = 0 := by
    rw [Loop.due_eq]
    change rest.countP _ + (m.loop.alarms w).length = 0
    omega
  refine ⟨begun, stands, idle, List.eq_nil_of_length_eq_zero (by omega), rfl, ?_⟩
  rw [run, Loop.calledOff_of_alone times.alone found]
  rfl

theorem Agrees.enlist (agrees : Agrees delay none [] m a) (acts : Acts m t j)
    (member : t ∈ m.fired) : Agrees delay none [] m { a with fired := a.fired ++ [(t, j)] } := by
  refine { agrees with lasting := fun u i mem => ?_, running := fun u i mem open_ => ?_ }
  · rcases List.mem_append.mp mem with mem | mem
    · rcases List.mem_append.mp mem with mem | mem
      · exact agrees.lasting u i (List.mem_append_left _ mem)
      · cases List.mem_singleton.mp mem
        exact .inl acts
    · exact agrees.lasting u i (List.mem_append_right _ mem)
  · rcases List.mem_append.mp mem with mem | mem
    · exact agrees.running u i mem open_
    · cases List.mem_singleton.mp mem
      exact member

theorem Times.begin (times : Times delay m j since w) (nonneg : 0 ≤ delay)
    (sound : Sound delay m a) (ready : m.loop.ready = .step w .go :: rest)
    (stands : m.loop.standing w = some (.window false))
    (idle : (takeUp rest m).loop.due w = 0) : Times delay
      { takeUp rest m with loop := (takeUp rest m).loop.sleep w delay (.window true) } j since w := by
  have now : m.loop.now = since ∧ m.loop.alarms w = [] := by
    cases times.stands with
    | unbegun _ alarms now => exact ⟨now, alarms⟩
    | asleep other | elapsed other => cases stands.symm.trans other
  have still : ((takeUp rest m).loop.sleep w delay (.window true)).standing w =
      some (.window true) :=
    (Loop.standing_sleep _ w w delay _).trans ((if_pos rfl).trans (congrArg (Option.map _) stands))
  refine ⟨times.window, times.pending, times.timed,
    fun refers => times.alone (refers.of_sleep.of_rest ready rfl rfl), ?_, ?_⟩
  · exact (Loop.due_sleep ..).trans (by rw [idle, if_pos rfl])
  · have alarms := Loop.alarms_sleep (takeUp rest m).loop w delay (.window true)
    have clock : ((takeUp rest m).loop.sleep w delay (.window true)).now = since :=
      (Loop.touches_sleep ..).now.trans now.1
    rw [show (takeUp rest m).loop.alarms w = [] from now.2, List.nil_append,
      show (takeUp rest m).loop.now = since from now.1] at alarms
    by_cases nothing : delay ≤ 0
    · have sum := sound.agrees.clock.add_nothing nonneg nothing
      rw [now.1] at sum
      exact .elapsed still (alarms.trans (if_pos nothing)) (clock.trans sum.symm)
    · exact .asleep still (alarms.trans (if_neg nothing)) (.inl clock)

theorem Times.sleep (times : Times delay m j since w) (sound : Sound delay m a)
    (nonneg : 0 ≤ delay) (waiting : a.waiting = some (j, since))
    (ready : m.loop.ready = .step w .go :: rest)
    (stands : m.loop.standing w = some (.window false)) (idle : (takeUp rest m).loop.due w = 0) :
    Sound delay ((takeUp rest m).resume use w (.window false) .go) a ∧
      Waits (takeUp rest m) ((takeUp rest m).resume use w (.window false) .go) := by
  have shape : (takeUp rest m).resume use w (.window false) .go =
      { takeUp rest m with loop := (takeUp rest m).loop.sleep w delay (.window true) } :=
    congrArg (fun d => { takeUp rest m with loop := (takeUp rest m).loop.sleep w d (.window true) })
      sound.agrees.delay
  have popped : Agrees delay (some w) _ _ _ := sound.agrees.pop ready fun _ _ same _ => same
  rw [show m.loop.heralds startAt (.step w .go) = none from Loop.begins_of_stands stands] at popped
  rw [shape]
  refine ⟨⟨?_, ?_⟩, fun u quiet => .inl ?_⟩
  · exact popped.sleep (q := .window true) stands (number_of_nonneg nonneg) nofun
      ⟨rfl, .inr (Loop.begins_of_stands stands)⟩ (.inl times.window)
      (fun j acts => absurd acts (not_acts (m := takeUp rest m) stands rfl)) nofun
  · rw [waiting]
    exact ⟨w, times.begin nonneg sound ready stands idle⟩
  · refine (Loop.standing_sleep _ w u delay _).trans ((if_neg ?_).trans quiet)
    rintro rfl
    cases stands.symm.trans quiet

theorem fire_eq (pending : m.debouncer.pending = some j) :
    m.fire use w = (firing j m).finish w (.returned .null) := by
  unfold Machine.fire
  rw [pending]
  rfl

theorem Times.fire (times : Times delay m j since w) (sound : Sound delay m a)
    (waiting : a.waiting = some (j, since)) (ready : m.loop.ready = .step w .go :: rest)
    (stands : m.loop.standing w = some (.window true)) (alarms : m.loop.alarms w = []) :
    Sound delay ((takeUp rest m).fire use w) (a.fire delay m.loop.fresh) ∧
      Waits m ((takeUp rest m).fire use w) := by
  have now : m.loop.now = since + delay := by
    cases times.stands with
    | unbegun other => cases stands.symm.trans other
    | asleep _ other => cases alarms.symm.trans other
    | elapsed _ _ now => exact now
  have orderly := sound.agrees.orderly
  have old : w ≠ m.loop.fresh := Nat.ne_of_lt (orderly.standing_below stands)
  have popped : Agrees delay (some w) _ _ _ := sound.agrees.pop ready fun _ _ same _ => same
  rw [show m.loop.heralds startAt (.step w .go) = none from Loop.begins_of_stands stands] at popped
  have fired := (popped.demand j).fire times.window times.timed
  have standing (u : TaskId) : (firing j (takeUp rest m)).loop.standing u =
      if u = m.loop.fresh then some (.own (.start j)) else m.loop.standing u :=
    Loop.standing_spawnIn (takeUp rest m).loop .fired _ u popped.orderly.new
  have after (u : TaskId) : ((firing j (takeUp rest m)).finish w (.returned .null)).loop.standing u =
      if u = w then none else (firing j (takeUp rest m)).loop.standing u :=
    Loop.standing_finish _ w u _
  have stands' := (standing w).trans ((if_neg old).trans stands)
  have done := fired.finish (o := .returned .null) stands' (.inr (Loop.begins_of_stands stands'))
    fun j acts => absurd acts (not_acts stands' rfl)
  have acts : Acts ((firing j (takeUp rest m)).finish w (.returned .null)) m.loop.fresh j :=
    .inl ((after _).trans ((if_neg old.symm).trans ((standing _).trans (if_pos rfl))))
  have member : m.loop.fresh ∈ ((firing j (takeUp rest m)).finish w (.returned .null)).fired := by
    have groups := Loop.groups_finish (firing j (takeUp rest m)).loop w (.returned .null)
    refine List.mem_map.mpr ⟨(.fired, m.loop.fresh), List.mem_filter.mpr ⟨?_, rfl⟩, rfl⟩
    exact groups ▸ List.mem_append_right _ (List.mem_singleton.mpr rfl)
  rw [fire_eq (m := takeUp rest m) times.pending, Ledger.fire_of_waiting waiting, ← now]
  refine ⟨⟨done.enlist acts member, rfl⟩, fun u quiet => .inl ?_⟩
  have other : u ≠ w := by
    rintro rfl
    cases stands.symm.trans quiet
  have known : u ≠ m.loop.fresh := Nat.ne_of_lt (orderly.standing_below quiet)
  exact (after u).trans ((if_neg other).trans ((standing u).trans ((if_neg known).trans quiet)))

theorem pass_of_ready (ready : m.loop.ready = c :: rest) :
    pass m = use.host.run c (takeUp rest m) := by
  unfold pass LoopHost.turn?
  rw [show use.host.loop m = m.loop from rfl, ready]
  rfl

theorem pass_of_nothing (nothing : m.loop.ready = []) :
    pass m = (m.loop.advance?.map fun l => { m with loop := l }).getD m := by
  unfold pass LoopHost.turn?
  rw [show use.host.loop m = m.loop from rfl, nothing]

theorem next_pass (a : Ledger) (m : Machine) : a.next m .pass =
    if (pass m).pending then a else a.fire m.debouncer.delay m.loop.fresh := rfl

theorem Sound.unfired (sound : Sound delay (pass m) a) : a.next m .pass = a := by
  have pending := sound.timed.pending
  rw [next_pass]
  unfold Ledger.fire
  cases waiting : a.waiting with
  | none => simp
  | some w =>
    rw [waiting] at pending
    simp [pending]

theorem Sound.fired (unhurried : m.debouncer.delay = delay)
    (sound : Sound delay (pass m) (a.fire delay m.loop.fresh))
    (waiting : a.waiting = some (j, since)) : a.next m .pass = a.fire delay m.loop.fresh := by
  have pending := sound.timed.pending
  rw [Ledger.fire_of_waiting waiting] at pending
  rw [next_pass, if_neg (by simp [pending]), unhurried]

theorem Sound.leave (sound : Sound delay m a) (ready : m.loop.ready = c :: rest)
    (gone : ∀ t, c.target? = some t → m.loop.standing t = none) :
    Sound delay (use.host.run c (takeUp rest m)) a ∧
      Waits (takeUp rest m) (use.host.run c (takeUp rest m)) := by
  have mem : c ∈ m.loop.ready := ready ▸ List.mem_cons_self
  have timed : Timed delay (takeUp rest m) a.waiting := by
    refine sound.timed.pop ready fun w window target => ?_
    obtain ⟨_, _, times⟩ := sound.timed.times window
    obtain ⟨begun, stands⟩ := times.at_window
    cases (gone w target).symm.trans stands
  have popped : Agrees delay none _ _ _ :=
    sound.agrees.pop ready fun t p target stands => nomatch (gone t target).symm.trans stands
  have still (silent : m.loop.heralds startAt c = none)
      (run : use.host.run c (takeUp rest m) = takeUp rest m) :
      Sound delay (use.host.run c (takeUp rest m)) a ∧
        Waits (takeUp rest m) (use.host.run c (takeUp rest m)) := by
    rw [silent] at popped
    rw [run]
    exact ⟨⟨popped, timed⟩, fun _ => .inl⟩
  cases c with
  | step t signal =>
    have gone : m.loop.standing t = none := gone t rfl
    refine still ?_ (use.host.step_of_gone (s := takeUp rest m) gone signal)
    change (m.loop.standing t).bind startAt = none
    rw [gone]
    rfl
  | ended t o y =>
    cases y with
    | leave g =>
      refine ⟨⟨popped.regroup (sound.agrees.leaves t o g mem), ?_⟩, fun _ => .inl⟩
      match hw : a.waiting, timed with
      | none, idle => exact idle
      | some (j, since), ⟨w, times⟩ =>
        exact ⟨w, times.keep rfl rfl rfl rfl rfl fun refers =>
          refers.mono (fun _ hc => hc) (fun _ hx => hx) fun _ hg => hg⟩
    | resume waiter =>
      exact still rfl (use.host.step_of_gone (s := takeUp rest m) (gone waiter rfl) o.signal)
    | gather id =>
      refine ⟨⟨popped.count id o, ?_⟩,
        fun u quiet => .inl ((Loop.standing_count (takeUp rest m).loop id o u).trans quiet)⟩
      refine timed.touch (k := { takeUp rest m with loop := (takeUp rest m).loop.count id o })
        (Loop.touches_count (takeUp rest m).loop id o) rfl fun w window ⟨g, hg, waiter⟩ => ?_
      obtain ⟨_, _, times⟩ := timed.times window
      exact times.alone (.gathering hg waiter)

/-- Whatever is ready, or as the clock moves on if nothing is, a debouncer stays in agreement with
    its account. -/
theorem Sound.pass (sound : Sound delay m a) (nonneg : 0 ≤ delay) :
    Sound delay (pass m) (a.next m .pass) ∧ Waits m (pass m) := by
  have idle (sound : Sound delay (Job.pass m) a) : Sound delay (Job.pass m) (a.next m .pass) := by
    rw [sound.unfired]
    exact sound
  cases ready : m.loop.ready with
  | nil =>
    have nothing := pass_of_nothing ready
    cases moves : m.loop.advance? with
    | none =>
      have same : Job.pass m = m := by rw [nothing, moves]; rfl
      refine ⟨idle ?_, ?_⟩ <;> rw [same]
      · exact sound
      · exact fun _ => .inl
    | some l =>
      have same : Job.pass m = { m with loop := l } := by rw [nothing, moves]; rfl
      have moved : Sound delay { m with loop := l } a := by
        refine ⟨sound.agrees.advance ready moves, ?_⟩
        match hw : a.waiting, sound.timed with
        | none, idle => exact idle
        | some (j, since), ⟨w, times⟩ => exact ⟨w, times.advance sound.agrees.alarms ready moves⟩
      refine ⟨idle ?_, ?_⟩ <;> rw [same]
      · exact moved
      · exact fun t quiet => .inl ((Loop.standing_advance? moves t).trans quiet)
  | cons c rest =>
    have run := pass_of_ready ready
    have unfired (h : Sound delay (use.host.run c (takeUp rest m)) a ∧
        Waits (takeUp rest m) (use.host.run c (takeUp rest m))) :
        Sound delay (Job.pass m) (a.next m .pass) ∧ Waits m (Job.pass m) := by
      refine ⟨idle ?_, ?_⟩ <;> rw [run]
      · exact h.1
      · exact h.2
    by_cases gone : ∀ t, c.target? = some t → m.loop.standing t = none
    · exact unfired (sound.leave ready gone)
    · obtain ⟨t, target, p, stands⟩ : ∃ t, c.target? = some t ∧ ∃ p, m.loop.standing t = some p := by
        simpa [Option.ne_none_iff_exists'] using gone
      -- a window ends, if at all, in the turn of its own task
      by_cases window : m.debouncer.window = some t
      · match hw : a.waiting, sound.timed with
        | none, idle => cases window.symm.trans idle
        | some (j, since), ⟨w, times⟩ =>
          obtain rfl := Option.some.inj (window.symm.trans times.window)
          obtain ⟨begun, stands, due, alarms, rfl, run'⟩ := times.run ready target
          cases begun with
          | true =>
            obtain ⟨sound', waits⟩ := times.fire sound hw ready stands alarms
            have same : Job.pass m = (takeUp rest m).fire use t := run.trans run'
            rw [Sound.fired sound.agrees.delay ?_ hw] <;> rw [same]
            · exact ⟨sound', waits⟩
            · exact sound'
          | false =>
            refine unfired ?_
            rw [run']
            exact times.sleep sound nonneg hw ready stands due
      · exact unfired (sound.turn ready target stands fun w named same => window (same ▸ named))

end Pass

end SchemaDiagram.Debounce.Job
