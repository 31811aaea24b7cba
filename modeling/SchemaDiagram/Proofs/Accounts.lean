import SchemaDiagram.Debounce.Job
import SchemaDiagram.Proofs.Frames
import SchemaDiagram.Proofs.Instants

/-!
Runs of a debouncer of jobs, and the account that is kept of them: which payload waits and since
when, which starts are due and at what time, which tasks act on a payload, and which wait for quiet.
What one task or the clock does to a loop leaves a debouncer in agreement with its account.
-/

set_option autoImplicit false

namespace SchemaDiagram.Debounce.Job

def outcome (j : Job) : Outcome :=
  match j.failure with
  | some message => .failed (.handler message)
  | none => .returned .null

def timed (j : Job) : Bool := j.work.all fun seconds => !seconds.isNaN

/-- What reaches a debouncer: a call, a task that sleeps before the next call, or one pass of the
    loop. -/
inductive Operation where
  | schedule (j : Job)
  | cancel
  | flush
  | wait
  | sleep (seconds : Float)
  /-- The turn of the task that has been ready longest; if nothing is ready, a step of the clock. -/
  | pass
  deriving DecidableEq

def Operation.timed : Operation → Bool
  | schedule j => j.timed
  | sleep seconds => !seconds.isNaN
  | cancel | flush | wait | pass => true

def pass (m : Machine) : Machine :=
  match use.host.turn? m with
  | some k => k
  | none => (m.loop.advance?.map fun l => { m with loop := l }).getD m

def perform (m : Machine) : Operation → Machine
  | .schedule j => m.schedule j
  | .cancel => m.cancel
  | .flush => (use.host.enter (.own .flush) m).1
  | .wait => (use.host.enter (.quiet ()) m).1
  | .sleep seconds => (use.host.enter (.pause false seconds) m).1
  | .pass => pass m

/-- An account of a run. -/
structure Ledger where
  /-- The payload that waits, and the time at which it was scheduled. -/
  waiting : Option (Job × Float) := none
  /-- The starts that the calls and the windows have asked for. -/
  due : List Event := []
  /-- The tasks of the actions that windows have started, and what they act on. -/
  fired : List (TaskId × Job) := []
  /-- The tasks of the actions that flushes have started. -/
  flushed : List (TaskId × Job) := []
  /-- The tasks that wait for quiet. -/
  waits : List TaskId := []

namespace Ledger

/-- A window ends: its payload is due at the time at which it was scheduled plus the delay. -/
def fire (delay : Float) (t : TaskId) (a : Ledger) : Ledger :=
  match a.waiting with
  | some (j, since) =>
    { a with
      waiting := none
      due := a.due ++ [.start (since + delay) j.name]
      fired := a.fired ++ [(t, j)] }
  | none => a

def flush (now : Float) (t : TaskId) (a : Ledger) : Ledger :=
  match a.waiting with
  | some (j, _) =>
    { a with
      waiting := none
      due := a.due ++ [.start now j.name]
      flushed := a.flushed ++ [(t, j)] }
  | none => a

section Waiting

variable {a : Ledger} {j : Job} {since : Float}

theorem fire_of_waiting (waiting : a.waiting = some (j, since)) (delay : Float) (t : TaskId) :
    a.fire delay t =
      { a with
        waiting := none
        due := a.due ++ [.start (since + delay) j.name]
        fired := a.fired ++ [(t, j)] } := by
  unfold fire
  rw [waiting]

theorem flush_of_waiting (waiting : a.waiting = some (j, since)) (now : Float) (t : TaskId) :
    a.flush now t =
      { a with
        waiting := none
        due := a.due ++ [.start now j.name]
        flushed := a.flushed ++ [(t, j)] } := by
  unfold flush
  rw [waiting]

theorem waits_fire (a : Ledger) (delay : Float) (t : TaskId) :
    (a.fire delay t).waits = a.waits := by
  unfold fire
  split <;> rfl

theorem waits_flush (a : Ledger) (now : Float) (t : TaskId) :
    (a.flush now t).waits = a.waits := by
  unfold flush
  split <;> rfl

end Waiting

/-- The account after an operation. A window ends with the pass after which nothing is pending. -/
def next (m : Machine) (a : Ledger) : Operation → Ledger
  | .schedule j => { a with waiting := some (j, m.loop.now) }
  | .cancel => { a with waiting := none }
  | .flush => a.flush m.loop.now m.loop.fresh
  | .wait => { a with waits := a.waits ++ [m.loop.fresh] }
  | .sleep _ => a
  | .pass => if (pass m).pending then a else a.fire m.debouncer.delay m.loop.fresh

end Ledger

def idle (delay : Float) : Machine := { debouncer := { delay := delay }, world := [] }

def performAll (delay : Float) (operations : List Operation) : Machine × Ledger :=
  operations.foldl (fun r o => (perform r.1 o, r.2.next r.1 o)) (idle delay, {})

def Acts (m : Machine) (t : TaskId) (j : Job) : Prop :=
  m.loop.standing t = some (.own (.start j)) ∨ m.loop.standing t = some (.own (.work j))

def jobAt : Point Stage Unit → Option Job
  | .own (.start j) | .own (.work j) => some j
  | .own .flush | .window _ | .quiet _ | .pause _ _ => none

theorem Acts.jobAt {m : Machine} {t : TaskId} {j : Job} {p : Point Stage Unit} (acts : Acts m t j)
    (stands : m.loop.standing t = some p) : Job.jobAt p = some j := by
  rcases acts with acts | acts <;> cases stands.symm.trans acts <;> rfl

theorem not_acts {m : Machine} {t : TaskId} {j : Job} {p : Point Stage Unit}
    (stands : m.loop.standing t = some p) (idle : Job.jobAt p = none) : ¬ Acts m t j :=
  fun acts => nomatch idle.symm.trans (acts.jobAt stands)

theorem Acts.open {m : Machine} {t : TaskId} {j : Job} (acts : Acts m t j) :
    m.loop.outcome? t = none :=
  acts.elim Loop.outcome?_of_stands Loop.outcome?_of_stands

def Event.isStart : Event → Bool
  | start _ _ => true
  | done _ _ | failed _ _ => false

def starts (m : Machine) : List Event := m.world.filter Event.isStart

def startAt : Point Stage Unit → Option Job
  | .own (.start j) => some j
  | .own (.work _) | .own .flush | .window _ | .quiet _ | .pause _ _ => none

def upcoming (m : Machine) : List Event :=
  (m.loop.coming startAt).map fun j => .start m.loop.now j.name

def active : Point Stage Unit → Bool
  | .own _ => true
  | .window _ | .quiet _ | .pause _ _ => false

/-- Where a task may stand between turns. One that acts on a job is due to go on; a window that has
    been superseded is called off. -/
def Proper (m : Machine) (t : TaskId) : Point Stage Unit → Prop
  | .own .flush => False
  | .own (.start j) => j.timed = true ∧ 0 < m.loop.due t
  | .own (.work _) => 0 < m.loop.due t
  | .quiet _ => True
  | .window _ => m.debouncer.window = some t ∨ m.loop.CalledOff t
  | .pause _ seconds => seconds.isNaN = false

/-- A debouncer agrees with an account, but for the payload that waits. A task may be at work, with
    jobs in hand that it is about to start. -/
structure Agrees (delay : Float) (worker : Option TaskId) (hand : List Job) (m : Machine)
    (a : Ledger) : Prop where
  delay : m.debouncer.delay = delay
  orderly : m.loop.Orderly active m.debouncer.window
  clock : Instant m.loop.now
  alarms : ∀ s ∈ m.loop.sleepers, Instant s.wakeAt
  awake : ∀ s ∈ m.loop.sleepers, m.loop.begins startAt s.task = none
  proper : ∀ t p, m.loop.standing t = some p → worker = some t ∨ Proper m t p
  leaves : ∀ t o g, .ended t o (.leave g) ∈ m.loop.ready → (m.loop.outcome? t).isSome = true
  started : a.due.Perm (starts m ++
    (hand ++ m.loop.coming startAt).map fun j => .start m.loop.now j.name)
  lasting : ∀ t j, (t, j) ∈ a.fired ++ a.flushed → Acts m t j ∨ m.loop.outcome? t = some j.outcome
  running : ∀ t j, (t, j) ∈ a.fired → m.loop.outcome? t = none → t ∈ m.fired
  waits : ∀ t ∈ a.waits, m.loop.standing t = some (.quiet ()) ∨ (m.loop.outcome? t).isSome = true

section Agrees

variable {delay : Float} {worker worker' : Option TaskId} {hand hand' : List Job} {m k : Machine}
  {a : Ledger} {t u w : TaskId} {j : Job} {who : TaskId → Prop}

theorem Proper.of_recalls {p : Point Stage Unit} (proper : Proper m t p)
    (named : m.debouncer.window = some t → k.debouncer.window = some t ∨ k.loop.CalledOff t)
    (recalls : m.loop.Recalls k.loop)
    (due : active p = true → 0 < m.loop.due t → 0 < k.loop.due t) : Proper k t p := by
  match p, proper with
  | .own (.start _), ⟨timed, goes⟩ => exact ⟨timed, due rfl goes⟩
  | .own (.work _), goes => exact due rfl goes
  | .quiet _, _ => exact trivial
  | .window _, proper => exact proper.elim named fun off => .inr (recalls.calledOff off)
  | .pause _ _, number => exact number

structure Change (m k : Machine) (worker : Option TaskId) (u : TaskId) : Prop where
  proper : ∀ p, k.loop.standing u = some p → worker = some u ∨ Proper k u p
  lasting : ∀ j, Acts m u j → Acts k u j ∨ k.loop.outcome? u = some j.outcome
  waits : m.loop.standing u = some (.quiet ()) →
    k.loop.standing u = some (.quiet ()) ∨ (k.loop.outcome? u).isSome = true

theorem Agrees.change (agrees : Agrees delay worker hand m a) (who : TaskId → Prop)
    (touches : m.loop.Touches k.loop who) (world : k.world = m.world)
    (unhurried : k.debouncer.delay = m.debouncer.delay)
    (orderly : k.loop.Orderly active k.debouncer.window)
    (alarms : ∀ s ∈ k.loop.sleepers, Instant s.wakeAt)
    (awake : ∀ s ∈ k.loop.sleepers, k.loop.begins startAt s.task = none)
    (hands : (hand' ++ k.loop.coming startAt).Perm (hand ++ m.loop.coming startAt))
    (named : ∀ t, m.debouncer.window = some t →
      worker' = some t ∨ k.debouncer.window = some t ∨ k.loop.CalledOff t)
    (done : ∀ t, worker = some t → worker' = some t ∨ who t)
    (changes : ∀ u, who u → Change m k worker' u) : Agrees delay worker' hand' k a where
  delay := unhurried.trans agrees.delay
  orderly := orderly
  clock := touches.now ▸ agrees.clock
  alarms := alarms
  awake := awake
  proper t p hp := by
    by_cases hw : who t
    · exact (changes t hw).proper p hp
    -- nobody has touched it, but it may be the task of a window that is superseded
    · rcases agrees.proper t p ((touches.standing t hw).symm.trans hp) with same | proper
      · exact .inl ((done t same).resolve_right hw)
      · by_cases working : worker' = some t
        · exact .inl working
        · exact .inr (proper.of_recalls (fun h => (named t h).resolve_left working) touches.recalls
            fun _ => touches.due t hw ▸ id)
  leaves t o g hc := by
    refine (touches.leaves t o g hc).elim (fun hc => ?_) id
    obtain ⟨v, ended⟩ := Option.isSome_iff_exists.mp (agrees.leaves t o g hc)
    exact Option.isSome_iff_exists.mpr ⟨v, touches.recalls.outcome? ended⟩
  started := by
    have same : starts k = starts m := by unfold starts; rw [world]
    rw [same, touches.now]
    exact agrees.started.trans ((hands.map _).symm.append_left _)
  lasting t j mem := by
    refine (agrees.lasting t j mem).elim (fun acts => ?_) fun ended =>
      .inr (touches.recalls.outcome? ended)
    by_cases hw : who t
    · exact (changes t hw).lasting j acts
    · exact .inl (acts.imp (touches.standing t hw).trans (touches.standing t hw).trans)
  running t j mem open_ := by
    have before : m.loop.outcome? t = none := by
      cases ended : m.loop.outcome? t with
      | none => rfl
      | some o => cases open_.symm.trans (touches.recalls.outcome? ended)
    obtain ⟨p, hp, same⟩ := List.mem_map.mp (agrees.running t j mem before)
    obtain ⟨hp, group⟩ := List.mem_filter.mp hp
    exact List.mem_map.mpr ⟨p, List.mem_filter.mpr ⟨touches.groups hp, group⟩, same⟩
  waits t mem := by
    rcases agrees.waits t mem with stands | ended
    · by_cases hw : who t
      · exact (changes t hw).waits stands
      · exact .inl ((touches.standing t hw).trans stands)
    · obtain ⟨v, ended⟩ := Option.isSome_iff_exists.mp ended
      exact .inr (Option.isSome_iff_exists.mpr ⟨v, touches.recalls.outcome? ended⟩)

theorem Agrees.touch (agrees : Agrees delay worker hand m a) {l : Loop (Point Stage Unit)}
    (touches : m.loop.Touches l who) (orderly : l.Orderly active m.debouncer.window)
    (alarms : ∀ s ∈ l.sleepers, Instant s.wakeAt)
    (silent : ∀ u, who u → l.begins startAt u = none ∧
      (m.loop.due u = 0 ∨ m.loop.begins startAt u = none))
    (done : ∀ t, worker = some t → worker' = some t ∨ who t)
    (changes : ∀ u, who u → Change m { m with loop := l } worker' u) :
    Agrees delay worker' hand { m with loop := l } a :=
  agrees.change (k := { m with loop := l }) who touches rfl rfl orderly alarms
    (touches.awake (fun u hu => (silent u hu).1) agrees.awake)
    (touches.coming silent ▸ .refl _) (fun _ same => .inr (.inl same)) done changes

theorem Agrees.finish (agrees : Agrees delay (some t) hand m a) {p : Point Stage Unit}
    (stands : m.loop.standing t = some p)
    (silent : m.loop.due t = 0 ∨ m.loop.begins startAt t = none) {o : Outcome}
    (ends : ∀ j, Acts m t j → j.outcome = o) : Agrees delay none hand (m.finish t o) a := by
  have gone : (m.loop.finish t o).standing t = none :=
    (Loop.standing_finish m.loop t t o).trans (if_pos rfl)
  have ended := Loop.outcome?_finish stands o
  refine agrees.touch (Loop.touches_finish stands o) agrees.orderly.finish
    (Loop.sleepers_finish m.loop t o ▸ agrees.alarms) ?_
    (fun u hu => .inr (Option.some.inj hu).symm) ?_
  · rintro u rfl
    refine ⟨?_, silent⟩
    unfold Loop.begins
    rw [gone]
    rfl
  · rintro u rfl
    refine ⟨fun q hq => ?_, fun j acts => .inr (ended.trans (congrArg some (ends j acts).symm)),
      fun _ => .inr (by rw [ended]; rfl)⟩
    cases gone.symm.trans hq

theorem instants_sleep (agrees : Agrees delay worker hand m a) {seconds : Float}
    (number : seconds.isNaN = false) (t : TaskId) (p : Point Stage Unit) :
    ∀ s ∈ (m.loop.sleep t seconds p).sleepers, Instant s.wakeAt := by
  unfold Loop.sleep
  simp only
  split
  · exact agrees.alarms
  · rename_i more
    intro s hs
    rcases List.mem_append.mp hs with hs | hs
    · exact agrees.alarms s hs
    · cases List.mem_singleton.mp hs
      exact agrees.clock.add (nonneg_of_not_le number more)

theorem Agrees.sleep (agrees : Agrees delay (some t) hand m a) {p q : Point Stage Unit}
    (stands : m.loop.standing t = some p) {seconds : Float} (number : seconds.isNaN = false)
    (turn : active q = true → active p = true ∧ m.loop.due t = 0)
    (silent : startAt q = none ∧ (m.loop.due t = 0 ∨ m.loop.begins startAt t = none))
    (proper : Proper { m with loop := m.loop.sleep t seconds q } t q)
    (works : ∀ j, Acts m t j → q = .own (.work j)) (loud : p ≠ .quiet ()) :
    Agrees delay none hand { m with loop := m.loop.sleep t seconds q } a := by
  have now : (m.loop.sleep t seconds q).standing t = some q := by
    rw [Loop.standing_sleep, if_pos rfl, stands]
    rfl
  have orderly : (m.loop.sleep t seconds q).Orderly active m.debouncer.window :=
    agrees.orderly.sleep (fun ha => ⟨p, stands, (turn ha).1⟩) ⟨p, stands⟩ fun ha => (turn ha).2
  refine agrees.touch (Loop.touches_sleep m.loop t seconds q) orderly
    (instants_sleep agrees number t q) ?_ (fun u hu => .inr (Option.some.inj hu).symm) ?_
  · rintro u rfl
    exact ⟨(Loop.begins_of_stands now).trans silent.1, silent.2⟩
  · rintro u rfl
    refine ⟨fun r hr => .inr ?_, fun j acts => .inl (.inr ?_),
      fun quiet => absurd (Option.some.inj (stands.symm.trans quiet)) loud⟩
    · obtain rfl := Option.some.inj (now.symm.trans hr)
      exact proper
    · exact now.trans (congrArg some (works j acts))

theorem Agrees.linger (agrees : Agrees delay (some t) hand m a) {l : Loop (Point Stage Unit)}
    (stands : m.loop.standing t = some (.quiet ())) (touches : m.loop.Touches l (· = t))
    (orderly : l.Orderly active m.debouncer.window) (sleepers : l.sleepers = m.loop.sleepers)
    (still : l.standing t = some (.quiet ())) : Agrees delay none hand { m with loop := l } a := by
  refine agrees.touch touches orderly (sleepers ▸ agrees.alarms) ?_
    (fun u hu => .inr (Option.some.inj hu).symm) ?_
  · rintro u rfl
    exact ⟨Loop.begins_of_stands still, .inr (Loop.begins_of_stands stands)⟩
  · rintro u rfl
    refine ⟨fun p hp => .inr ?_, fun j acts => absurd acts (not_acts stands rfl),
      fun _ => .inl still⟩
    obtain rfl := Option.some.inj (still.symm.trans hp)
    trivial

theorem silent_of_passive (passive : m.loop.Passive active t) : m.loop.begins startAt t = none := by
  cases stands : m.loop.standing t with
  | none =>
    unfold Loop.begins
    rw [stands]
    rfl
  | some p =>
    have rests := passive.2 p stands
    rw [Loop.begins_of_stands stands]
    cases p with
    | own => cases rests
    | window | quiet | pause => rfl

theorem Agrees.count (agrees : Agrees delay none hand m a) (id : Nat) (o : Outcome) :
    Agrees delay none hand { m with loop := m.loop.count id o } a := by
  have passive (u : TaskId) (hu : ∃ g ∈ m.loop.gatherings, g.waiter = u) :
      m.loop.Passive active u := by
    obtain ⟨g, hg, waiter⟩ := hu
    exact agrees.orderly.passive u (.inl (.gathering hg waiter))
  have rests (u : TaskId) (hu : ∃ g ∈ m.loop.gatherings, g.waiter = u) :
      m.loop.begins startAt u = none := silent_of_passive (passive u hu)
  have same := Loop.standing_count m.loop id o
  have touches := Loop.touches_count m.loop id o
  refine agrees.touch touches (agrees.orderly.count id o)
    (Loop.sleepers_count m.loop id o ▸ agrees.alarms)
    (fun u hu => ⟨(Loop.begins_congr (same u)).trans (rests u hu), .inr (rests u hu)⟩) nofun
    fun u hu => ⟨fun p hp => .inr ?_, fun j acts => .inl ?_, fun quiet => .inl ((same u).trans quiet)⟩
  · have stands := (same u).symm.trans hp
    have proper := (agrees.proper u p stands).resolve_left nofun
    refine proper.of_recalls .inl touches.recalls fun act => ?_
    cases act.symm.trans ((passive u hu).2 p stands)
  · exact acts.imp (same u).trans (same u).trans

theorem Agrees.regroup (agrees : Agrees delay none hand m a) {t : TaskId} {g : TaskGroup}
    (ended : (m.loop.outcome? t).isSome = true) : Agrees delay none hand
      { m with loop := { m.loop with groups := m.loop.groups.filter fun p => p ≠ (g, t) } } a := by
  refine { agrees with orderly := agrees.orderly.regroup _, running := fun u j mem open_ => ?_ }
  obtain ⟨p, hp, same⟩ := List.mem_map.mp (agrees.running u j mem open_)
  obtain ⟨hp, group⟩ := List.mem_filter.mp hp
  refine List.mem_map.mpr ⟨p, List.mem_filter.mpr ⟨List.mem_filter.mpr ⟨hp, ?_⟩, group⟩, same⟩
  refine decide_eq_true fun left => ?_
  have open_ : m.loop.outcome? u = none := open_
  rw [← same, left] at open_
  simp [open_] at ended

def takeUp (rest : List Callback) (m : Machine) : Machine :=
  { m with loop := { m.loop with ready := rest } }

theorem Agrees.pop (agrees : Agrees delay none [] m a) {c : Callback} {rest : List Callback}
    (ready : m.loop.ready = c :: rest) {worker : Option TaskId}
    (mine : ∀ t p, c.target? = some t → m.loop.standing t = some p → worker = some t) :
    Agrees delay worker (m.loop.heralds startAt c).toList (takeUp rest m) a := by
  have started := agrees.started
  rw [List.nil_append, Loop.coming_pop ready] at started
  exact { agrees with
    orderly := agrees.orderly.pop ready
    proper := fun t p hp => by
      have proper := (agrees.proper t p hp).resolve_left nofun
      by_cases target : c.target? = some t
      · exact .inl (mine t p target hp)
      · have due := Loop.due_takeUp_of_other ready target
        exact .inr (proper.of_recalls .inl (.of_tasks rfl) fun _ goes => due ▸ goes)
    leaves := fun t o g hc => agrees.leaves t o g (ready ▸ List.mem_cons_of_mem c hc)
    started := started }

theorem not_acts_of_new (agrees : Agrees delay worker hand m a) : ¬ Acts m m.loop.fresh j := by
  rintro (acts | acts) <;> cases agrees.orderly.standing_fresh.symm.trans acts

theorem Agrees.enter (agrees : Agrees delay none hand m a) {p : Point Stage Unit}
    (silent : startAt p = none) :
    Agrees delay (some m.loop.fresh) hand { m with loop := (m.loop.enter p).1 } a := by
  have none := agrees.orderly.standing_fresh
  have now : (m.loop.enter p).1.standing m.loop.fresh = some p :=
    (Loop.standing_enter m.loop p _ agrees.orderly.new).trans (if_pos rfl)
  refine agrees.touch (Loop.touches_enter m.loop p agrees.orderly.new) (agrees.orderly.enter p)
    agrees.alarms ?_ nofun ?_
  · rintro u rfl
    exact ⟨(Loop.begins_of_stands now).trans silent, .inl agrees.orderly.due_fresh⟩
  · rintro u rfl
    exact ⟨fun _ _ => .inl rfl, fun j acts => absurd acts (not_acts_of_new agrees),
      fun quiet => nomatch none.symm.trans quiet⟩

theorem Agrees.cancel (agrees : Agrees delay worker hand m a)
    (window : ∀ w, m.debouncer.window = some w → ∃ begun, m.loop.standing w = some (.window begun)) :
    Agrees delay worker hand m.cancel a := by
  unfold Machine.cancel
  cases named : m.debouncer.window with
  | none =>
    exact agrees.change (fun _ => False) (.refl m.loop _) rfl rfl (agrees.orderly.rename nofun)
      agrees.alarms agrees.awake (.refl _) (fun t ht => nomatch named.symm.trans ht)
      (fun _ => .inl) nofun
  | some w =>
    obtain ⟨begun, stands⟩ := window w named
    have still := (Loop.standing_cancel m.loop w w).trans stands
    have passive := agrees.orderly.passive w (.inr named)
    have touches := Loop.touches_cancel m.loop w
    have silent : ∀ u, u = w → (m.loop.cancel w).begins startAt u = none ∧
        (m.loop.due u = 0 ∨ m.loop.begins startAt u = none) := by
      rintro u rfl
      exact ⟨Loop.begins_of_stands still, .inr (Loop.begins_of_stands stands)⟩
    have off := Loop.calledOff_cancel stands
    refine agrees.change (· = w) touches rfl rfl
      ((agrees.orderly.cancel passive).rename nofun)
      (fun s hs => agrees.alarms s (Loop.sleepers_cancel m.loop w hs))
      (touches.awake (fun u hu => (silent u hu).1) agrees.awake) (touches.coming silent ▸ .refl _)
      (fun t ht => ?_) (fun _ => .inl) ?_
    · obtain rfl := Option.some.inj (named.symm.trans ht)
      exact .inr (.inr off)
    · rintro u rfl
      refine ⟨fun p hp => .inr ?_, fun j acts => absurd acts (not_acts stands rfl),
        fun quiet => nomatch stands.symm.trans quiet⟩
      obtain rfl := Option.some.inj (still.symm.trans hp)
      exact .inr off

theorem Agrees.open (agrees : Agrees delay none hand m a) (free : m.debouncer.window = none)
    (j : Job) : Agrees delay none hand { m with
      loop := (m.loop.spawn (.window false)).1
      debouncer := { m.debouncer with window := some m.loop.fresh, pending := some j } } a := by
  have none := agrees.orderly.standing_fresh
  have now : (m.loop.spawn (.window false)).1.standing m.loop.fresh = some (.window false) :=
    (Loop.standing_spawn m.loop _ _ agrees.orderly.new).trans (if_pos rfl)
  have touches := Loop.touches_spawn m.loop (.window false) agrees.orderly.new
  have silent : ∀ u, u = m.loop.fresh → (m.loop.spawn (.window false)).1.begins startAt u = .none ∧
      (m.loop.due u = 0 ∨ m.loop.begins startAt u = .none) := by
    rintro u rfl
    exact ⟨Loop.begins_of_stands now, .inl agrees.orderly.due_fresh⟩
  refine agrees.change (· = m.loop.fresh) touches rfl rfl ?_ agrees.alarms
    (touches.awake (fun u hu => (silent u hu).1) agrees.awake) (touches.coming silent ▸ .refl _)
    (fun t ht => nomatch free.symm.trans ht) nofun ?_
  · refine (agrees.orderly.spawn (.window false)).rename fun t ht => ?_
    obtain rfl := Option.some.inj ht
    refine ⟨Nat.lt_succ_self _, fun p hp => ?_⟩
    obtain rfl := Option.some.inj (now.symm.trans hp)
    rfl
  · rintro u rfl
    refine ⟨fun p hp => .inr ?_, fun j acts => absurd acts (not_acts_of_new agrees),
      fun quiet => nomatch none.symm.trans quiet⟩
    obtain rfl := Option.some.inj (now.symm.trans hp)
    exact .inl rfl

def firing (j : Job) (m : Machine) : Machine :=
  { m with
    loop := (m.loop.spawnIn .fired (.own (.start j))).1
    debouncer := { m.debouncer with window := none, pending := none } }

theorem Agrees.fire (agrees : Agrees delay (some w) (j :: hand) m a)
    (named : m.debouncer.window = some w) (timed : j.timed = true) :
    Agrees delay (some w) hand (firing j m) a := by
  have none := agrees.orderly.standing_fresh
  have standing (u : TaskId) :=
    Loop.standing_spawnIn m.loop .fired (.own (.start j)) u agrees.orderly.new
  have now := (standing m.loop.fresh).trans (if_pos rfl)
  have touches := Loop.touches_spawnIn m.loop .fired (.own (.start j)) agrees.orderly.new
  have coming : (firing j m).loop.coming startAt = m.loop.coming startAt ++ [j] :=
    Loop.coming_of_spawn (t := m.loop.fresh) rfl agrees.orderly.due_fresh standing
  refine agrees.change (· = m.loop.fresh) touches rfl rfl
    ((agrees.orderly.spawnIn .fired _).rename nofun) agrees.alarms ?_ ?_ (fun t ht => .inl ?_)
    (fun _ => .inl) ?_
  · exact Loop.awake_of_spawn (l := m.loop) rfl agrees.orderly.due_fresh standing agrees.awake
  · rw [coming, ← List.append_assoc]
    exact List.perm_append_singleton j _
  · obtain rfl := Option.some.inj (named.symm.trans ht)
    rfl
  · rintro u rfl
    refine ⟨fun p hp => .inr ?_, fun j acts => absurd acts (not_acts_of_new agrees),
      fun quiet => nomatch none.symm.trans quiet⟩
    obtain rfl := Option.some.inj (now.symm.trans hp)
    refine ⟨timed, ?_⟩
    change 0 < (m.loop.spawnIn .fired (.own (.start j))).1.due m.loop.fresh
    rw [Loop.due_spawnIn, if_pos rfl]
    exact Nat.succ_pos _

theorem starts_record_start (m : Machine) (j : Job) :
    starts (record m (.start m.loop.now j.name)) = starts m ++ [.start m.loop.now j.name] :=
  List.filter_append ..

theorem starts_record_end (m : Machine) {e : Event} (ends : e.isStart = false) :
    starts (record m e) = starts m := by
  refine (List.filter_append ..).trans ?_
  simp [ends, starts]

theorem Agrees.record_start (agrees : Agrees delay worker (j :: hand) m a) :
    Agrees delay worker hand (record m (.start m.loop.now j.name)) a := by
  refine { agrees with started := ?_ }
  have started := agrees.started
  rw [List.cons_append, List.map_cons] at started
  rw [starts_record_start, List.append_assoc]
  exact started

theorem Agrees.record_end (agrees : Agrees delay worker hand m a) {e : Event}
    (ends : e.isStart = false) : Agrees delay worker hand (record m e) a :=
  { agrees with started := starts_record_end m ends ▸ agrees.started }

theorem Agrees.advance (agrees : Agrees delay none [] m a) (nothing : m.loop.ready = [])
    {l : Loop (Point Stage Unit)} (moves : m.loop.advance? = some l) :
    Agrees delay none [] { m with loop := l } a := by
  have least := (Loop.advance?_least agrees.alarms moves).1
  have orderly := agrees.orderly.advance? moves
  have due := Loop.due_advance? moves
  obtain ⟨time, -, rfl⟩ := Option.map_eq_some_iff.mp moves
  have before : m.loop.coming startAt = [] := by
    unfold Loop.coming
    rw [nothing]
    rfl
  have started := agrees.started
  rw [before] at started
  refine { agrees with
    orderly := orderly
    clock := least
    alarms := fun s hs => agrees.alarms s (List.mem_filter.mp hs).1
    awake := fun s hs => agrees.awake s (List.mem_filter.mp hs).1
    proper := fun t p hp => .inr ?_
    leaves := fun t o g hc => ?_
    started := ?_ }
  · have proper := (agrees.proper t p hp).resolve_left nofun
    exact proper.of_recalls .inl (.of_tasks rfl) fun _ goes => due t ▸ goes
  · refine agrees.leaves t o g ((List.mem_append.mp hc).resolve_right fun hc => ?_)
    obtain ⟨s, -, same⟩ := List.mem_map.mp hc
    cases same
  · have after : Loop.coming startAt { m.loop with
        now := time
        sleepers := m.loop.sleepers.filter fun s => ¬ s.wakeAt ≤ time
        ready := m.loop.ready ++ (m.loop.sleepers.filter fun s => s.wakeAt ≤ time).map
          fun s => .step s.task .go } = [] := by
      refine List.filterMap_eq_nil_iff.mpr fun c hc => ?_
      rw [nothing] at hc
      obtain ⟨s, hs, rfl⟩ := List.mem_map.mp hc
      exact agrees.awake s (List.mem_filter.mp hs).1
    rw [after]
    exact started

theorem Agrees.account (agrees : Agrees delay worker hand m a) {b : Ledger} (due : b.due = a.due)
    (fired : b.fired = a.fired) (flushed : b.flushed = a.flushed) (waits : b.waits = a.waits) :
    Agrees delay worker hand m b := by
  refine { agrees with
    started := due ▸ agrees.started
    lasting := ?_
    running := fired ▸ agrees.running
    waits := waits ▸ agrees.waits }
  rw [fired, flushed]
  exact agrees.lasting

theorem Agrees.demand (agrees : Agrees delay worker hand m a) (j : Job) :
    Agrees delay worker (j :: hand) m
      { a with waiting := none, due := a.due ++ [.start m.loop.now j.name] } := by
  refine { agrees with started := ?_ }
  rw [List.cons_append, List.map_cons]
  refine (List.perm_append_singleton _ _).trans ((agrees.started.cons _).trans ?_)
  exact List.perm_middle.symm

end Agrees

end SchemaDiagram.Debounce.Job
