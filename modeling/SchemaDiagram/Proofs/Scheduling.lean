import SchemaDiagram.EventLoop

/-!
Where the tasks of a loop stand and how often each is due to go on. Of the points of tasks some are
marked as active: a task that stands at one goes on only in its own turn, and is due for it at most
once. A task that waits for others, or that may be called off, stands at a point that is not active.
-/

set_option autoImplicit false

namespace SchemaDiagram

def Listener.waiter? : Listener → Option TaskId
  | .resume waiter => some waiter
  | .leave _ | .gather _ => none

def Callback.alarm? : Callback → Option TaskId
  | .step t signal => if signal = .go then none else some t
  | .ended _ _ x => x.waiter?

def Callback.target? : Callback → Option TaskId
  | .step t _ => some t
  | .ended _ _ x => x.waiter?

def Callback.steps (t : TaskId) : Callback → Bool
  | .step u _ => u = t
  | .ended _ _ _ => false

namespace Loop

variable {P : Type}

def standing (l : Loop P) (t : TaskId) : Option P :=
  (l.task? t).bind fun x => if x.outcome.isNone then some x.point else none

/-- How many times a task is going to go on in its own turn. -/
def due (l : Loop P) (t : TaskId) : Nat :=
  l.ready.countP (Callback.steps t) + l.sleepers.countP fun s => s.task = t

inductive Refers (l : Loop P) (t : TaskId) : Prop where
  | ready {c : Callback} (mem : c ∈ l.ready) (alarm : c.alarm? = some t)
  | listener {x : Task P} {y : Listener} (mem : x ∈ l.tasks) (listens : y ∈ x.listeners)
      (waiter : y.waiter? = some t)
  | gathering {g : Gathering} (mem : g ∈ l.gatherings) (waiter : g.waiter = t)
  | calledOff {x : Task P} (mem : x ∈ l.tasks) (id : x.id = t) (off : x.calledOff = true)

theorem gather_induction {I : Loop P → Prop} (l : Loop P) (t : TaskId) (targets : List TaskId) (p : P)
    (start : I { l.wait t p with
      fresh := l.fresh + 1
      gatherings := l.gatherings ++ [⟨l.fresh, t, targets.length, false⟩] })
    (ended : ∀ k a o, I k → I (k.push (.ended a o (.gather l.fresh))))
    (listens : ∀ k a, I k → I (k.listen a (.gather l.fresh))) : I (l.gather t targets p) := by
  unfold gather
  refine List.foldlRecOn targets _ start fun k hk a _ => ?_
  cases k.outcome? a with
  | none => exact listens k a hk
  | some o => exact ended k a o hk

theorem task?_mapTask (l : Loop P) (t u : TaskId) {f : Task P → Task P}
    (keeps : ∀ x, (f x).id = x.id) :
    (l.mapTask t f).task? u = if u = t then (l.task? u).map f else l.task? u := by
  have hid : ((fun x : Task P => decide (x.id = u)) ∘ fun x => if x.id = t then f x else x) =
      fun x => decide (x.id = u) := by
    funext x
    by_cases hx : x.id = t <;> simp [hx, keeps]
  unfold task? mapTask
  rw [List.find?_map, hid]
  cases hf : l.tasks.find? (fun x => decide (x.id = u)) with
  | none => simp
  | some x =>
    have hx : x.id = u := by simpa using List.find?_some hf
    by_cases hu : u = t <;> simp [hx, hu]

theorem standing_mapTask (l : Loop P) (t u : TaskId) {f : Task P → Task P}
    (keeps : ∀ x, (f x).id = x.id ∧ (f x).outcome = x.outcome ∧ (f x).point = x.point) :
    (l.mapTask t f).standing u = l.standing u := by
  unfold standing
  rw [task?_mapTask l t u fun x => (keeps x).1]
  cases l.task? u with
  | none => split <;> rfl
  | some x =>
    split
    · simp [(keeps x).2.1, (keeps x).2.2]
    · rfl

theorem standing_wait (l : Loop P) (t u : TaskId) (p : P) :
    (l.wait t p).standing u = if u = t then (l.standing t).map fun _ => p else l.standing u := by
  unfold wait standing
  rw [task?_mapTask (f := fun x => { x with point := p }) l t u fun _ => rfl]
  by_cases hu : u = t
  · subst hu
    cases l.task? u with
    | none => simp
    | some x => cases hx : x.outcome <;> simp [hx]
  · simp [hu]

theorem standing_finish (l : Loop P) (t u : TaskId) (o : Outcome) :
    (l.finish t o).standing u = if u = t then none else l.standing u := by
  unfold finish
  cases ht : l.task? t with
  | none =>
    by_cases hu : u = t
    · simp [hu, standing, ht]
    · simp [hu]
  | some task =>
    change (l.mapTask t fun x => { x with outcome := some o, listeners := [] }).standing u = _
    unfold standing
    rw [task?_mapTask (f := fun x => { x with outcome := some o, listeners := [] }) l t u
      fun _ => rfl]
    by_cases hu : u = t
    · simp [hu, ht]
    · simp [hu]

theorem outcome?_of_stands {l : Loop P} {t : TaskId} {p : P} (stands : l.standing t = some p) :
    l.outcome? t = none := by
  obtain ⟨task, found, open_⟩ := Option.bind_eq_some_iff.mp stands
  unfold outcome?
  rw [found]
  cases outcome : task.outcome with
  | none => exact outcome
  | some o => simp [outcome] at open_

theorem standing_of_ended {l : Loop P} {t : TaskId} {o : Outcome} (ended : l.outcome? t = some o) :
    l.standing t = none := by
  cases stands : l.standing t with
  | none => rfl
  | some p => cases (outcome?_of_stands stands).symm.trans ended

theorem outcome?_finish {l : Loop P} {t : TaskId} {p : P} (stands : l.standing t = some p)
    (o : Outcome) : (l.finish t o).outcome? t = some o := by
  obtain ⟨task, ht, -⟩ := Option.bind_eq_some_iff.mp stands
  unfold finish
  rw [ht]
  change ((l.mapTask t fun x => { x with outcome := some o, listeners := [] }).task? t).bind
    Task.outcome = _
  rw [task?_mapTask (f := fun x => { x with outcome := some o, listeners := [] }) l t t fun _ => rfl,
    if_pos rfl, ht]
  rfl

theorem standing_listen (l : Loop P) (t u : TaskId) (y : Listener) :
    (l.listen t y).standing u = l.standing u :=
  standing_mapTask l t u fun _ => ⟨rfl, rfl, rfl⟩

theorem task?_enter (l : Loop P) (p : P) (u : TaskId) :
    (l.enter p).1.task? u =
      (l.task? u).or (if u = l.fresh then some { id := l.fresh, point := p } else none) := by
  unfold task? enter
  simp only [List.find?_append, List.find?_singleton, eq_comm (a := l.fresh)]
  split <;> simp_all

theorem standing_enter (l : Loop P) (p : P) (u : TaskId) (new : l.task? l.fresh = none) :
    (l.enter p).1.standing u = if u = l.fresh then some p else l.standing u := by
  unfold standing
  rw [task?_enter]
  by_cases hu : u = l.fresh
  · simp [hu, new]
  · simp [hu]

theorem standing_spawn (l : Loop P) (p : P) (u : TaskId) (new : l.task? l.fresh = none) :
    (l.spawn p).1.standing u = if u = l.fresh then some p else l.standing u :=
  standing_enter l p u new

theorem standing_spawnIn (l : Loop P) (g : TaskGroup) (p : P) (u : TaskId)
    (new : l.task? l.fresh = none) :
    (l.spawnIn g p).1.standing u = if u = l.fresh then some p else l.standing u := by
  rw [← standing_spawn l p u new]
  exact standing_mapTask (l.spawn p).1 _ u fun _ => ⟨rfl, rfl, rfl⟩

theorem standing_sleep (l : Loop P) (t u : TaskId) (seconds : Float) (p : P) :
    (l.sleep t seconds p).standing u =
      if u = t then (l.standing t).map fun _ => p else l.standing u := by
  rw [← standing_wait]
  unfold sleep
  simp only
  split <;> rfl

theorem standing_join (l : Loop P) (t target u : TaskId) (p : P) :
    (l.join t target p).standing u =
      if u = t then (l.standing t).map fun _ => p else l.standing u := by
  rw [← standing_wait]
  exact standing_listen _ _ _ _

theorem standing_cancel (l : Loop P) (t u : TaskId) : (l.cancel t).standing u = l.standing u := by
  have hm : (l.mapTask t fun x => { x with calledOff := true }).standing u = l.standing u :=
    standing_mapTask l t u fun _ => ⟨rfl, rfl, rfl⟩
  unfold cancel
  split
  · rfl
  · simp only
    split <;> exact hm

theorem standing_gather (l : Loop P) (t u : TaskId) (targets : List TaskId) (p : P) :
    (l.gather t targets p).standing u =
      if u = t then (l.standing t).map fun _ => p else l.standing u := by
  rw [← standing_wait]
  exact gather_induction (I := fun k => k.standing u = (l.wait t p).standing u) l t targets p rfl
    (fun _ _ _ hk => hk) fun k a hk => (standing_listen k a u _).trans hk

inductive Counted (l : Loop P) : Loop P → Prop where
  | put (gatherings : List Gathering)
      (waiters : ∀ x ∈ gatherings, ∃ y ∈ l.gatherings, y.waiter = x.waiter) :
      Counted l { l with gatherings := gatherings }
  | wakes {g : Gathering} (mem : g ∈ l.gatherings) (signal : Signal) (gatherings : List Gathering)
      (waiters : ∀ x ∈ gatherings, ∃ y ∈ l.gatherings, y.waiter = x.waiter) :
      Counted l (push { l with gatherings := gatherings } (.step g.waiter signal))

theorem counted_count (l : Loop P) (id : Nat) (o : Outcome) : l.Counted (l.count id o) := by
  have same : l.Counted l := .put l.gatherings fun x hx => ⟨x, hx, rfl⟩
  unfold count
  cases found : l.gatherings.find? fun g => g.id = id with
  | none => exact same
  | some g =>
    have mem := List.mem_of_find?_eq_some found
    have waiters (left : Nat) (settled : Bool) : ∀ x ∈ l.gatherings.map
        (fun x => if x.id = id then { g with left := left, settled := settled } else x),
        ∃ y ∈ l.gatherings, y.waiter = x.waiter := by
      intro x hx
      obtain ⟨y, hy, rfl⟩ := List.mem_map.mp hx
      split
      · exact ⟨g, mem, rfl⟩
      · exact ⟨y, hy, rfl⟩
    simp only
    split
    · exact same
    · cases o with
      | returned v =>
        simp only
        split
        · exact .wakes mem .go _ (waiters 0 true)
        · exact .put _ (waiters (g.left - 1) g.settled)
      | failed f => exact .wakes mem (.failed f) _ (waiters g.left true)
      | cancelled => exact .wakes mem .cancelled _ (waiters g.left true)

theorem Counted.tasks {l k : Loop P} (h : l.Counted k) : k.tasks = l.tasks ∧ k.fresh = l.fresh := by
  cases h <;> exact ⟨rfl, rfl⟩

theorem standing_count (l : Loop P) (id : Nat) (o : Outcome) (u : TaskId) :
    (l.count id o).standing u = l.standing u := by
  unfold standing task?
  rw [(counted_count l id o).tasks.1]

theorem standing_advance? {l k : Loop P} (h : l.advance? = some k) (u : TaskId) :
    k.standing u = l.standing u := by
  obtain ⟨time, -, rfl⟩ := Option.map_eq_some_iff.mp h
  rfl

theorem due_push_step (l : Loop P) (t u : TaskId) (signal : Signal) :
    (l.push (.step t signal)).due u = l.due u + if u = t then 1 else 0 := by
  unfold due push
  simp only [List.countP_append, List.countP_singleton, Callback.steps, eq_comm (a := t),
    decide_eq_true_eq]
  omega

theorem due_push_ended (l : Loop P) (t u : TaskId) (o : Outcome) (y : Listener) :
    (l.push (.ended t o y)).due u = l.due u := by
  simp [due, push, List.countP_append, Callback.steps]

theorem due_pos_of_ready {l : Loop P} {t : TaskId} {signal : Signal} {rest : List Callback}
    (h : l.ready = .step t signal :: rest) : 0 < l.due t := by
  unfold due
  rw [h, List.countP_cons_of_pos (by simp [Callback.steps])]
  omega

theorem due_takeUp {l : Loop P} {c : Callback} {rest : List Callback} (h : l.ready = c :: rest)
    (u : TaskId) : due { l with ready := rest } u ≤ l.due u := by
  unfold due
  rw [h, List.countP_cons]
  change rest.countP _ + l.sleepers.countP _ ≤ _
  omega

theorem due_takeUp_of_other {l : Loop P} {c : Callback} {rest : List Callback} {u : TaskId}
    (h : l.ready = c :: rest) (other : c.target? ≠ some u) : due { l with ready := rest } u = l.due u := by
  have steps : ¬ c.steps u = true := by
    cases c with
    | step t signal => exact fun same => other (congrArg some (of_decide_eq_true same))
    | ended => exact nofun
  unfold due
  rw [h, List.countP_cons_of_neg steps]

theorem due_spawn (l : Loop P) (p : P) (u : TaskId) :
    (l.spawn p).1.due u = l.due u + if u = l.fresh then 1 else 0 :=
  due_push_step (l.enter p).1 l.fresh u .go

theorem due_spawnIn (l : Loop P) (g : TaskGroup) (p : P) (u : TaskId) :
    (l.spawnIn g p).1.due u = l.due u + if u = l.fresh then 1 else 0 :=
  due_spawn l p u

theorem due_sleep (l : Loop P) (t u : TaskId) (seconds : Float) (p : P) :
    (l.sleep t seconds p).due u = l.due u + if u = t then 1 else 0 := by
  unfold sleep
  simp only
  split
  · exact due_push_step (l.wait t p) t u .go
  · unfold due wait mapTask
    simp only [List.countP_append, List.countP_singleton, eq_comm (a := t), decide_eq_true_eq]
    omega

theorem due_finish (l : Loop P) (t u : TaskId) (o : Outcome) :
    (l.finish t o).due u = l.due u := by
  unfold finish
  cases l.task? t with
  | none => rfl
  | some task =>
    have hz : (task.listeners.map fun y => Callback.ended t o y).countP (Callback.steps u) = 0 :=
      List.countP_eq_zero.mpr fun c hc => by
        obtain ⟨y, -, rfl⟩ := List.mem_map.mp hc
        simp [Callback.steps]
    simp only [due, mapTask, List.countP_append, hz]
    rfl

theorem due_gather (l : Loop P) (t u : TaskId) (targets : List TaskId) (p : P) :
    (l.gather t targets p).due u = l.due u :=
  gather_induction (I := fun k => k.due u = l.due u) l t targets p rfl
    (fun k a o hk => (due_push_ended k a u o _).trans hk) fun _ _ hk => hk

theorem due_cancel (l : Loop P) {t u : TaskId} (h : u ≠ t) : (l.cancel t).due u = l.due u := by
  unfold cancel
  split
  · rfl
  · simp only
    split
    · rw [due_push_step, if_neg h]
      unfold due mapTask
      simp only [List.countP_filter, Nat.add_zero, Nat.add_left_cancel_iff]
      refine List.countP_congr fun s _ => ?_
      by_cases hs : s.task = u <;> simp [hs, h]
    · rfl

theorem due_count (l : Loop P) (id : Nat) (o : Outcome) {u : TaskId}
    (h : ∀ g ∈ l.gatherings, g.waiter ≠ u) : (l.count id o).due u = l.due u := by
  have counted := counted_count l id o
  generalize l.count id o = k at counted ⊢
  cases counted with
  | put => rfl
  | wakes mem signal => exact (due_push_step _ _ u signal).trans (if_neg (h _ mem).symm ▸ rfl)

theorem due_advance? {l k : Loop P} (h : l.advance? = some k) (u : TaskId) :
    k.due u = l.due u := by
  obtain ⟨time, -, rfl⟩ := Option.map_eq_some_iff.mp h
  have hmap : ∀ ss : List Sleeper,
      (ss.map fun s => Callback.step s.task .go).countP (Callback.steps u) =
        ss.countP fun s => s.task = u := fun ss => by
    rw [List.countP_map]
    rfl
  unfold due
  simp only [List.countP_append, hmap, List.countP_filter]
  rw [List.countP_eq_countP_filter_add l.sleepers (fun s => decide (s.task = u))
    (fun s => decide (s.wakeAt ≤ time))]
  simp only [List.countP_filter]
  have hneg : (fun s : Sleeper => decide (s.task = u) && decide ¬s.wakeAt ≤ time) =
      fun s => decide (s.task = u) && !decide (s.wakeAt ≤ time) := by
    funext s
    simp
  rw [hneg]
  omega

section Refers

variable {l : Loop P} {t u : TaskId}

theorem Refers.mono {k : Loop P} (h : k.Refers u) (ready : k.ready ⊆ l.ready)
    (tasks : k.tasks ⊆ l.tasks) (gatherings : k.gatherings ⊆ l.gatherings) : l.Refers u := by
  cases h with
  | ready mem alarm => exact .ready (ready mem) alarm
  | listener mem listens waiter => exact .listener (tasks mem) listens waiter
  | gathering mem waiter => exact .gathering (gatherings mem) waiter
  | calledOff mem id off => exact .calledOff (tasks mem) id off

theorem Refers.of_mapTask {f : Task P → Task P}
    (keeps : ∀ x, (f x).id = x.id ∧ (f x).listeners ⊆ x.listeners ∧ (f x).calledOff = x.calledOff)
    (h : (l.mapTask t f).Refers u) : l.Refers u := by
  have hk : ∀ z, (if z.id = t then f z else z).id = z.id ∧
      (if z.id = t then f z else z).listeners ⊆ z.listeners ∧
      (if z.id = t then f z else z).calledOff = z.calledOff := by
    intro z
    split
    · exact keeps z
    · exact ⟨rfl, fun _ hy => hy, rfl⟩
  cases h with
  | ready mem alarm => exact .ready mem alarm
  | gathering mem waiter => exact .gathering mem waiter
  | listener mem listens waiter =>
    obtain ⟨z, hz, rfl⟩ := List.mem_map.mp mem
    exact .listener hz ((hk z).2.1 listens) waiter
  | calledOff mem id off =>
    obtain ⟨z, hz, rfl⟩ := List.mem_map.mp mem
    exact .calledOff hz ((hk z).1.symm.trans id) ((hk z).2.2.symm.trans off)

theorem Refers.of_push {c : Callback} (h : (l.push c).Refers u) :
    l.Refers u ∨ c.alarm? = some u := by
  cases h with
  | ready mem alarm =>
    rcases List.mem_append.mp mem with mem | mem
    · exact .inl (.ready mem alarm)
    · exact .inr (List.mem_singleton.mp mem ▸ alarm)
  | listener mem listens waiter => exact .inl (.listener mem listens waiter)
  | gathering mem waiter => exact .inl (.gathering mem waiter)
  | calledOff mem id off => exact .inl (.calledOff mem id off)

theorem Refers.of_wake (h : (l.wake t).Refers u) : l.Refers u :=
  (Refers.of_push h).resolve_right (by simp [Callback.alarm?])

theorem Refers.of_wait {p : P} (h : (l.wait t p).Refers u) : l.Refers u :=
  Refers.of_mapTask (f := fun x => { x with point := p }) (fun _ => ⟨rfl, fun _ hy => hy, rfl⟩) h

theorem Refers.of_listen {y : Listener} (h : (l.listen t y).Refers u) :
    l.Refers u ∨ y.waiter? = some u := by
  cases h with
  | ready mem alarm => exact .inl (.ready mem alarm)
  | gathering mem waiter => exact .inl (.gathering mem waiter)
  | listener mem listens waiter =>
    obtain ⟨z, hz, rfl⟩ := List.mem_map.mp mem
    split at listens
    · rcases List.mem_append.mp listens with listens | listens
      · exact .inl (.listener hz listens waiter)
      · exact .inr (List.mem_singleton.mp listens ▸ waiter)
    · exact .inl (.listener hz listens waiter)
  | calledOff mem id off =>
    obtain ⟨z, hz, rfl⟩ := List.mem_map.mp mem
    split at id
    · rw [if_pos ‹_›] at off
      exact .inl (.calledOff hz id off)
    · rw [if_neg ‹_›] at off
      exact .inl (.calledOff hz id off)

theorem Refers.of_enter {p : P} (h : (l.enter p).1.Refers u) : l.Refers u := by
  cases h with
  | ready mem alarm => exact .ready mem alarm
  | gathering mem waiter => exact .gathering mem waiter
  | listener mem listens waiter =>
    rcases List.mem_append.mp mem with mem | mem
    · exact .listener mem listens waiter
    · cases List.mem_singleton.mp mem
      cases listens
  | calledOff mem id off =>
    rcases List.mem_append.mp mem with mem | mem
    · exact .calledOff mem id off
    · cases List.mem_singleton.mp mem
      cases off

theorem Refers.of_spawn {p : P} (h : (l.spawn p).1.Refers u) : l.Refers u :=
  Refers.of_enter (Refers.of_wake h)

theorem Refers.of_spawnIn {g : TaskGroup} {p : P} (h : (l.spawnIn g p).1.Refers u) : l.Refers u := by
  have listens : ((l.spawn p).1.listen l.fresh (.leave g)).Refers u :=
    h.mono (fun _ hc => hc) (fun _ hx => hx) fun _ hg => hg
  exact Refers.of_spawn ((Refers.of_listen listens).resolve_right (by simp [Listener.waiter?]))

theorem Refers.of_rest {k : Loop P} {c : Callback} (h : k.Refers u) (ready : l.ready = c :: k.ready)
    (tasks : k.tasks = l.tasks) (gatherings : k.gatherings = l.gatherings) : l.Refers u :=
  h.mono (fun _ hc => ready ▸ List.mem_cons_of_mem c hc) (fun _ hx => tasks ▸ hx)
    fun _ hg => gatherings ▸ hg

theorem Refers.of_sleep {seconds : Float} {p : P} (h : (l.sleep t seconds p).Refers u) :
    l.Refers u := by
  unfold sleep at h
  simp only at h
  split at h
  · exact Refers.of_wait (Refers.of_wake h)
  · exact Refers.of_wait (p := p) (h.mono (fun _ hc => hc) (fun _ hx => hx) fun _ hg => hg)

theorem Refers.of_gather {targets : List TaskId} {p : P} (h : (l.gather t targets p).Refers u) :
    l.Refers u ∨ u = t := by
  refine gather_induction (I := fun k => k.Refers u → l.Refers u ∨ u = t) l t targets p ?_ ?_ ?_ h
  · intro hk
    have waits : (l.wait t p).Refers u → l.Refers u ∨ u = t := fun hw => .inl (Refers.of_wait hw)
    cases hk with
    | ready mem alarm => exact waits (.ready mem alarm)
    | listener mem listens waiter => exact waits (.listener mem listens waiter)
    | calledOff mem id off => exact waits (.calledOff mem id off)
    | gathering mem waiter =>
      rcases List.mem_append.mp mem with mem | mem
      · exact .inl (.gathering mem waiter)
      · cases List.mem_singleton.mp mem
        exact .inr waiter.symm
  · exact fun k a o hk hr =>
      hk ((Refers.of_push hr).resolve_right (by simp [Callback.alarm?, Listener.waiter?]))
  · exact fun k a hk hr => hk ((Refers.of_listen hr).resolve_right (by simp [Listener.waiter?]))

theorem Refers.of_finish {o : Outcome} (h : (l.finish t o).Refers u) : l.Refers u := by
  unfold finish at h
  cases ht : l.task? t with
  | none =>
    rw [ht] at h
    exact h
  | some task =>
    rw [ht] at h
    have mapped : (l.mapTask t fun x => { x with outcome := some o, listeners := [] }).Refers u →
        l.Refers u :=
      Refers.of_mapTask fun x => ⟨rfl, List.nil_subset _, rfl⟩
    cases h with
    | ready mem alarm =>
      rcases List.mem_append.mp mem with mem | mem
      · exact .ready mem alarm
      · obtain ⟨y, hy, rfl⟩ := List.mem_map.mp mem
        exact .listener (List.mem_of_find?_eq_some ht) hy alarm
    | gathering mem waiter => exact .gathering mem waiter
    | listener mem listens waiter => exact mapped (.listener mem listens waiter)
    | calledOff mem id off => exact mapped (.calledOff mem id off)

theorem Refers.of_cancel (h : (l.cancel t).Refers u) : l.Refers u ∨ u = t := by
  have mapped : (l.mapTask t fun x => { x with calledOff := true }).Refers u →
      l.Refers u ∨ u = t := by
    intro hm
    cases hm with
    | ready mem alarm => exact .inl (.ready mem alarm)
    | gathering mem waiter => exact .inl (.gathering mem waiter)
    | listener mem listens waiter =>
      obtain ⟨z, hz, rfl⟩ := List.mem_map.mp mem
      split at listens <;> exact .inl (.listener hz listens waiter)
    | calledOff mem id off =>
      obtain ⟨z, hz, rfl⟩ := List.mem_map.mp mem
      by_cases hzt : z.id = t
      · rw [if_pos hzt] at id
        exact .inr (id.symm.trans hzt)
      · rw [if_neg hzt] at id off
        exact .inl (.calledOff hz id off)
  unfold cancel at h
  split at h
  · exact .inl h
  · simp only at h
    split at h
    · rcases Refers.of_push h with h | h
      · exact mapped (h.mono (fun _ hc => hc) (fun _ hx => hx) fun _ hg => hg)
      · exact .inr (Option.some.inj h).symm
    · exact mapped h

theorem Counted.refers {k : Loop P} (counted : l.Counted k) (h : k.Refers u) : l.Refers u := by
  have put (gatherings : List Gathering)
      (waiters : ∀ x ∈ gatherings, ∃ y ∈ l.gatherings, y.waiter = x.waiter)
      (h : Refers { l with gatherings := gatherings } u) : l.Refers u := by
    cases h with
    | ready mem alarm => exact .ready mem alarm
    | listener mem listens waiter => exact .listener mem listens waiter
    | calledOff mem id off => exact .calledOff mem id off
    | gathering mem waiter =>
      obtain ⟨y, hy, same⟩ := waiters _ mem
      exact .gathering hy (same.trans waiter)
  cases counted with
  | put gatherings waiters => exact put gatherings waiters h
  | wakes mem signal gatherings waiters =>
    refine (Refers.of_push h).elim (put gatherings waiters) fun alarm => ?_
    by_cases go : signal = .go
    · simp [Callback.alarm?, go] at alarm
    · exact .gathering mem (by simpa [Callback.alarm?, go] using alarm)

theorem Refers.of_count {id : Nat} {o : Outcome} (h : (l.count id o).Refers u) : l.Refers u :=
  (counted_count l id o).refers h

theorem Refers.of_advance? {k : Loop P} (ha : l.advance? = some k) (h : k.Refers u) :
    l.Refers u := by
  obtain ⟨time, -, rfl⟩ := Option.map_eq_some_iff.mp ha
  cases h with
  | ready mem alarm =>
    rcases List.mem_append.mp mem with mem | mem
    · exact .ready mem alarm
    · obtain ⟨s, -, rfl⟩ := List.mem_map.mp mem
      simp [Callback.alarm?] at alarm
  | listener mem listens waiter => exact .listener mem listens waiter
  | gathering mem waiter => exact .gathering mem waiter
  | calledOff mem id off => exact .calledOff mem id off

theorem go_of_alone {c : Callback} (alone : ¬ l.Refers t) (mem : c ∈ l.ready)
    (target : c.target? = some t) : c = .step t .go := by
  cases c with
  | step u signal =>
    obtain rfl := Option.some.inj target
    exact congrArg _ (Decidable.byContradiction fun other => alone (.ready mem (if_neg other)))
  | ended u o x => exact absurd (.ready mem target) alone

theorem calledOff_of_alone {x : Task P} (alone : ¬ l.Refers t) (found : l.task? t = some x) :
    x.calledOff = false := by
  have id : x.id = t := by simpa using List.find?_some found
  cases off : x.calledOff with
  | false => rfl
  | true => exact absurd (.calledOff (List.mem_of_find?_eq_some found) id off) alone

end Refers

def Passive (active : P → Bool) (l : Loop P) (t : TaskId) : Prop :=
  t < l.fresh ∧ ∀ p, l.standing t = some p → active p = false

/-- Only tasks that are not active may be made to go on out of turn, among them one that is known by
    name outside the loop, and an active task is due at most once. -/
structure Orderly (active : P → Bool) (named : Option TaskId) (l : Loop P) : Prop where
  below : ∀ x ∈ l.tasks, x.id < l.fresh
  due_below : ∀ t, 0 < l.due t → t < l.fresh
  once : ∀ t p, l.standing t = some p → active p = true → l.due t ≤ 1
  passive : ∀ t, l.Refers t ∨ named = some t → l.Passive active t

section Orderly

variable {active : P → Bool} {named : Option TaskId} {l : Loop P} {t : TaskId}

theorem orderly_empty : Loop.Orderly active none ({} : Loop P) where
  below _ hx := nomatch hx
  due_below _ hd := absurd hd (Nat.lt_irrefl 0)
  once _ _ hs := absurd hs.symm (Option.some_ne_none _)
  passive t ht := by
    rcases ht with ht | ht
    · cases ht with
      | ready mem => cases mem
      | listener mem => cases mem
      | gathering mem => cases mem
      | calledOff mem => cases mem
    · cases ht

theorem Orderly.new (h : l.Orderly active named) : l.task? l.fresh = none :=
  List.find?_eq_none.mpr fun x hx => by simpa using Nat.ne_of_lt (h.below x hx)

theorem Orderly.standing_fresh (h : l.Orderly active named) : l.standing l.fresh = none := by
  unfold standing
  rw [h.new]
  rfl

theorem Orderly.due_fresh (h : l.Orderly active named) : l.due l.fresh = 0 :=
  Nat.eq_zero_of_not_pos fun hd => Nat.lt_irrefl _ (h.due_below l.fresh hd)

theorem Orderly.standing_below (h : l.Orderly active named) {p : P} (hs : l.standing t = some p) :
    t < l.fresh := by
  unfold standing at hs
  obtain ⟨x, hx, -⟩ := Option.bind_eq_some_iff.mp hs
  have ht : x.id = t := by simpa using List.find?_some hx
  exact ht ▸ h.below x (List.mem_of_find?_eq_some hx)

theorem Passive.ne_of_active (h : l.Passive active t) {u : TaskId} {p : P}
    (hs : l.standing u = some p) (ha : active p = true) : u ≠ t := by
  rintro rfl
  simp [h.2 p hs] at ha

theorem Passive.change {k : Loop P} (h : l.Passive active t) (fresh : l.fresh ≤ k.fresh)
    (standing : ∀ p, k.standing t = some p → active p = true →
      l.fresh ≤ t ∨ ∃ q, l.standing t = some q ∧ active q = true) : k.Passive active t := by
  refine ⟨Nat.lt_of_lt_of_le h.1 fresh, fun p hs => ?_⟩
  cases ha : active p with
  | false => rfl
  | true =>
    rcases standing p hs ha with hge | ⟨q, hq, haq⟩
    · exact absurd h.1 (Nat.not_lt.mpr hge)
    · exact absurd haq (by simp [h.2 q hq])

/-- The order of a loop after a change: what was not active may not have become active, and what is
    referred to anew may not be active. -/
theorem Orderly.change {k : Loop P} (h : l.Orderly active named) (fresh : l.fresh ≤ k.fresh)
    (below : ∀ x ∈ k.tasks, x.id < k.fresh) (due_below : ∀ t, 0 < k.due t → t < k.fresh)
    (once : ∀ t p, k.standing t = some p → active p = true → k.due t ≤ 1)
    (refers : ∀ t, k.Refers t → l.Refers t ∨ k.Passive active t)
    (standing : ∀ t p, k.standing t = some p → active p = true →
      l.fresh ≤ t ∨ ∃ q, l.standing t = some q ∧ active q = true) : k.Orderly active named := by
  have passive (t : TaskId) (ht : l.Refers t ∨ named = some t) : k.Passive active t :=
    (h.passive t ht).change fresh (standing t)
  refine ⟨below, due_below, once, fun t ht => ?_⟩
  rcases ht with ht | ht
  · exact (refers t ht).elim (fun hr => passive t (.inl hr)) id
  · exact passive t (.inr ht)

theorem Orderly.rename (h : l.Orderly active named) {name : Option TaskId}
    (passive : ∀ t, name = some t → l.Passive active t) : l.Orderly active name :=
  ⟨h.below, h.due_below, h.once, fun t ht =>
    ht.elim (fun hr => h.passive t (.inl hr)) (passive t)⟩

theorem below_mapTask {f : Task P → Task P} (keeps : ∀ x, (f x).id = x.id)
    (h : ∀ x ∈ l.tasks, x.id < l.fresh) : ∀ x ∈ (l.mapTask t f).tasks, x.id < l.fresh := by
  intro x hx
  obtain ⟨y, hy, rfl⟩ := List.mem_map.mp hx
  split
  · exact keeps y ▸ h y hy
  · exact h y hy

def Yields (active : P → Bool) (l : Loop P) (t : TaskId) (p : P) : Prop :=
  active p = true → ∃ q, l.standing t = some q ∧ active q = true

theorem Orderly.wait (h : l.Orderly active named) {p : P} (yields : l.Yields active t p) :
    (l.wait t p).Orderly active named := by
  have hs : ∀ u q, (l.wait t p).standing u = some q → active q = true →
      ∃ r, l.standing u = some r ∧ active r = true := by
    intro u q hq ha
    rw [standing_wait] at hq
    split at hq
    · subst u
      obtain ⟨r, hr, rfl⟩ := Option.map_eq_some_iff.mp hq
      exact yields ha
    · exact ⟨q, hq, ha⟩
  refine h.change (Nat.le_refl _) (below_mapTask (fun _ => rfl) h.below) h.due_below ?_
    (fun u hu => .inl (Refers.of_wait hu)) fun u q hq ha => .inr (hs u q hq ha)
  intro u q hq ha
  obtain ⟨r, hr, har⟩ := hs u q hq ha
  exact h.once u r hr har

theorem Orderly.sleep (h : l.Orderly active named) {seconds : Float} {p : P}
    (yields : l.Yields active t p) (live : ∃ q, l.standing t = some q)
    (idle : active p = true → l.due t = 0) : (l.sleep t seconds p).Orderly active named := by
  have hw := h.wait yields
  have hlt : t < l.fresh := h.standing_below live.choose_spec
  have hs : ∀ u, (l.sleep t seconds p).standing u = (l.wait t p).standing u := by
    intro u
    rw [standing_sleep, standing_wait]
  have hf : (l.sleep t seconds p).fresh = l.fresh := by
    unfold Loop.sleep
    simp only
    split <;> rfl
  have ht : (l.sleep t seconds p).tasks = (l.wait t p).tasks := by
    unfold Loop.sleep
    simp only
    split <;> rfl
  refine h.change (Nat.le_of_eq hf.symm) ?_ ?_ ?_ (fun u hu => .inl (Refers.of_sleep hu)) ?_
  · rw [ht, hf]
    exact hw.below
  · intro u hu
    rw [due_sleep] at hu
    rw [hf]
    split at hu
    · subst u
      exact hlt
    · exact h.due_below u hu
  · intro u q hq ha
    rw [hs] at hq
    rw [due_sleep]
    split
    · subst u
      rw [standing_wait, if_pos rfl] at hq
      obtain ⟨r, -, rfl⟩ := Option.map_eq_some_iff.mp hq
      exact Nat.le_of_eq (congrArg (· + 1) (idle ha))
    · exact hw.once u q hq ha
  · intro u q hq ha
    rw [hs, standing_wait] at hq
    split at hq
    · subst u
      obtain ⟨r, -, rfl⟩ := Option.map_eq_some_iff.mp hq
      exact .inr (yields ha)
    · exact .inr ⟨q, hq, ha⟩

theorem below_gather {targets : List TaskId} {p : P} (h : ∀ x ∈ l.tasks, x.id < l.fresh) :
    ∀ x ∈ (l.gather t targets p).tasks, x.id < (l.gather t targets p).fresh := by
  refine gather_induction (I := fun k => ∀ x ∈ k.tasks, x.id < k.fresh) l t targets p ?_
    (fun _ _ _ hk => hk) fun k a hk => below_mapTask (fun _ => rfl) hk
  exact fun x hx => Nat.lt_succ_of_lt (below_mapTask (l := l) (f := fun x => { x with point := p })
    (fun _ => rfl) h x hx)

theorem fresh_gather (l : Loop P) (t : TaskId) (targets : List TaskId) (p : P) :
    (l.gather t targets p).fresh = l.fresh + 1 :=
  gather_induction (I := fun k => k.fresh = l.fresh + 1) l t targets p rfl (fun _ _ _ hk => hk)
    fun _ _ hk => hk

theorem Orderly.join (h : l.Orderly active named) {target : TaskId} {p : P} (idle : active p = false)
    (live : ∃ q, l.standing t = some q) : (l.join t target p).Orderly active named := by
  have hw : (l.wait t p).Orderly active named := h.wait fun ha => by simp [idle] at ha
  have hs : ∀ u, (l.join t target p).standing u = (l.wait t p).standing u := fun u =>
    standing_listen _ _ _ _
  refine hw.change (Nat.le_refl _) (below_mapTask (fun _ => rfl) hw.below) hw.due_below
    (fun u q hq => hw.once u q (hs u ▸ hq)) (fun u hu => ?_)
    fun u q hq ha => .inr ⟨q, hs u ▸ hq, ha⟩
  rcases Refers.of_listen hu with hu | hu
  · exact .inl hu
  · obtain rfl : t = u := Option.some.inj hu
    refine .inr ⟨h.standing_below live.choose_spec, fun q hq => ?_⟩
    rw [standing_join, if_pos rfl] at hq
    obtain ⟨r, -, rfl⟩ := Option.map_eq_some_iff.mp hq
    exact idle

theorem Orderly.gather (h : l.Orderly active named) {targets : List TaskId} {p : P}
    (idle : active p = false) (live : ∃ q, l.standing t = some q) :
    (l.gather t targets p).Orderly active named := by
  have hf := fresh_gather l t targets p
  have hs : ∀ u q, (l.gather t targets p).standing u = some q → active q = true →
      l.standing u = some q := by
    intro u q hq ha
    rw [standing_gather] at hq
    split at hq
    · obtain ⟨r, -, rfl⟩ := Option.map_eq_some_iff.mp hq
      simp [idle] at ha
    · exact hq
  refine h.change (by omega) (below_gather h.below) (fun u hu => ?_) (fun u q hq ha => ?_)
    (fun u hu => ?_) fun u q hq ha => .inr ⟨q, hs u q hq ha, ha⟩
  · rw [due_gather] at hu
    exact hf ▸ Nat.lt_succ_of_lt (h.due_below u hu)
  · rw [due_gather]
    exact h.once u q (hs u q hq ha) ha
  · rcases Refers.of_gather hu with hu | rfl
    · exact .inl hu
    · refine .inr ⟨hf ▸ Nat.lt_succ_of_lt (h.standing_below live.choose_spec), fun q hq => ?_⟩
      rw [standing_gather, if_pos rfl] at hq
      obtain ⟨r, -, rfl⟩ := Option.map_eq_some_iff.mp hq
      exact idle

theorem Orderly.finish (h : l.Orderly active named) {o : Outcome} : (l.finish t o).Orderly active named := by
  have hf : (l.finish t o).fresh = l.fresh := by
    unfold Loop.finish
    cases l.task? t <;> rfl
  have hb : ∀ x ∈ (l.finish t o).tasks, x.id < l.fresh := by
    unfold Loop.finish
    cases l.task? t with
    | none => exact h.below
    | some task => exact below_mapTask (fun _ => rfl) h.below
  have hs : ∀ u q, (l.finish t o).standing u = some q → l.standing u = some q := by
    intro u q hq
    rw [standing_finish] at hq
    split at hq
    · cases hq
    · exact hq
  refine h.change (Nat.le_of_eq hf.symm) (fun x hx => hf ▸ hb x hx) (fun u hu => ?_)
    (fun u q hq ha => ?_) (fun u hu => .inl (Refers.of_finish hu))
    fun u q hq ha => .inr ⟨q, hs u q hq, ha⟩
  · rw [due_finish] at hu
    exact hf ▸ h.due_below u hu
  · rw [due_finish]
    exact h.once u q (hs u q hq) ha

theorem fresh_cancel (l : Loop P) (t : TaskId) : (l.cancel t).fresh = l.fresh := by
  unfold Loop.cancel
  split
  · rfl
  · simp only
    split <;> rfl

theorem Orderly.cancel (h : l.Orderly active named) (idle : l.Passive active t) :
    (l.cancel t).Orderly active named := by
  have hf := fresh_cancel l t
  have hb : ∀ x ∈ (l.cancel t).tasks, x.id < l.fresh := by
    have hm := below_mapTask (l := l) (t := t) (f := fun x => { x with calledOff := true })
      (fun _ => rfl) h.below
    unfold Loop.cancel
    split
    · exact h.below
    · simp only
      split <;> exact hm
  refine h.change (Nat.le_of_eq hf.symm) (fun x hx => hf ▸ hb x hx) (fun u hu => ?_)
    (fun u q hq ha => ?_) (fun u hu => ?_)
    fun u q hq ha => .inr ⟨q, (standing_cancel l t u).symm.trans hq, ha⟩
  · rw [hf]
    by_cases hut : u = t
    · exact hut ▸ idle.1
    · rw [due_cancel l hut] at hu
      exact h.due_below u hu
  · rw [standing_cancel] at hq
    by_cases hut : u = t
    · simp [idle.2 q (hut ▸ hq)] at ha
    · rw [due_cancel l hut]
      exact h.once u q hq ha
  · rcases Refers.of_cancel hu with hu | rfl
    · exact .inl hu
    · exact .inr ⟨hf ▸ idle.1, fun q hq => idle.2 q ((standing_cancel l u u).symm.trans hq)⟩

theorem Orderly.enter (h : l.Orderly active named) (p : P) : (l.enter p).1.Orderly active named := by
  refine h.change (Nat.le_succ _) (fun x hx => ?_) (fun u hu => Nat.lt_succ_of_lt (h.due_below u hu))
    (fun u q hq ha => ?_) (fun u hu => .inl (Refers.of_enter hu)) fun u q hq ha => ?_
  · rcases List.mem_append.mp hx with hx | hx
    · exact Nat.lt_succ_of_lt (h.below x hx)
    · cases List.mem_singleton.mp hx
      exact Nat.lt_succ_self _
  · rw [standing_enter l p u h.new] at hq
    split at hq
    · subst u
      exact Nat.le_trans (Nat.le_of_eq h.due_fresh) (Nat.zero_le _)
    · exact h.once u q hq ha
  · rw [standing_enter l p u h.new] at hq
    split at hq
    · subst u
      exact .inl (Nat.le_refl _)
    · exact .inr ⟨q, hq, ha⟩

theorem Orderly.wake (h : l.Orderly active named) (known : t < l.fresh)
    (idle : ∀ p, l.standing t = some p → active p = true → l.due t = 0) :
    (l.wake t).Orderly active named := by
  refine h.change (Nat.le_refl _) h.below (fun u hu => ?_) (fun u q hq ha => ?_)
    (fun u hu => .inl (Refers.of_wake hu)) fun u q hq ha => .inr ⟨q, hq, ha⟩
  · unfold Loop.wake at hu
    rw [due_push_step] at hu
    split at hu
    · subst u
      exact known
    · exact h.due_below u hu
  · unfold Loop.wake
    rw [due_push_step]
    split
    · subst u
      exact Nat.le_of_eq (congrArg (· + 1) (idle q hq ha))
    · exact h.once u q hq ha

theorem Orderly.spawn (h : l.Orderly active named) (p : P) : (l.spawn p).1.Orderly active named :=
  (h.enter p).wake (Nat.lt_succ_self _) fun _ _ _ => h.due_fresh

theorem Orderly.spawnIn (h : l.Orderly active named) (g : TaskGroup) (p : P) :
    (l.spawnIn g p).1.Orderly active named := by
  have hs := h.spawn p
  refine hs.change (Nat.le_refl _) (below_mapTask (fun _ => rfl) hs.below) hs.due_below
    (fun u q hq ha => ?_) (fun u hu => ?_) fun u q hq ha => .inr ⟨q, ?_, ha⟩
  · rw [standing_spawnIn l g p u h.new, ← standing_spawn l p u h.new] at hq
    exact hs.once u q hq ha
  · refine .inl ((Refers.of_listen (t := l.fresh) (y := .leave g) ?_).resolve_right
      (by simp [Listener.waiter?]))
    exact hu.mono (fun _ hc => hc) (fun _ hx => hx) fun _ hg => hg
  · rw [standing_spawn l p u h.new, ← standing_spawnIn l g p u h.new]
    exact hq

theorem Orderly.due_count_of_active (h : l.Orderly active named) (id : Nat) (o : Outcome) {p : P}
    (hs : l.standing t = some p) (ha : active p = true) : (l.count id o).due t = l.due t :=
  due_count l id o fun _ hg hw =>
    (h.passive _ (.inl (.gathering hg rfl))).ne_of_active hs ha hw.symm

theorem Orderly.count (h : l.Orderly active named) (id : Nat) (o : Outcome) :
    (l.count id o).Orderly active named := by
  have hp : ∀ g ∈ l.gatherings, l.Passive active g.waiter := fun g hg =>
    h.passive _ (.inl (.gathering hg rfl))
  have ht := (counted_count l id o).tasks
  have hd : ∀ u, (¬ ∃ g ∈ l.gatherings, g.waiter = u) → (l.count id o).due u = l.due u := by
    intro u hu
    exact due_count l id o fun g hg hw => hu ⟨g, hg, hw⟩
  refine h.change (Nat.le_of_eq ht.2.symm) (fun x hx => ?_) (fun u hu => ?_) (fun u q hq ha => ?_)
    (fun u hu => .inl (Refers.of_count hu))
    fun u q hq ha => .inr ⟨q, (standing_count l id o u).symm.trans hq, ha⟩
  · rw [ht.1] at hx
    exact ht.2 ▸ h.below x hx
  · rw [ht.2]
    by_cases hg : ∃ g ∈ l.gatherings, g.waiter = u
    · obtain ⟨g, hg, rfl⟩ := hg
      exact (hp g hg).1
    · rw [hd u hg] at hu
      exact h.due_below u hu
  · rw [standing_count] at hq
    by_cases hg : ∃ g ∈ l.gatherings, g.waiter = u
    · obtain ⟨g, hg, rfl⟩ := hg
      simp [(hp g hg).2 q hq] at ha
    · rw [hd u hg]
      exact h.once u q hq ha

theorem Orderly.advance? {k : Loop P} (h : l.Orderly active named) (ha : l.advance? = some k) :
    k.Orderly active named := by
  have ht : k.tasks = l.tasks ∧ k.fresh = l.fresh := by
    obtain ⟨time, -, rfl⟩ := Option.map_eq_some_iff.mp ha
    exact ⟨rfl, rfl⟩
  refine h.change (Nat.le_of_eq ht.2.symm) (fun x hx => ?_) (fun u hu => ?_) (fun u q hq hq' => ?_)
    (fun u hu => .inl (Refers.of_advance? ha hu))
    fun u q hq hq' => .inr ⟨q, (standing_advance? ha u).symm.trans hq, hq'⟩
  · rw [ht.1] at hx
    exact ht.2 ▸ h.below x hx
  · rw [due_advance? ha] at hu
    exact ht.2 ▸ h.due_below u hu
  · rw [due_advance? ha]
    exact h.once u q ((standing_advance? ha u).symm.trans hq) hq'

theorem Orderly.regroup (h : l.Orderly active named) (groups : List (TaskGroup × TaskId)) :
    Loop.Orderly active named { l with groups := groups } :=
  h.change (Nat.le_refl _) h.below h.due_below h.once
    (fun _ hu => .inl (hu.mono (fun _ hc => hc) (fun _ hx => hx) fun _ hg => hg))
    fun _ q hq ha => .inr ⟨q, hq, ha⟩

theorem Orderly.pop (h : l.Orderly active named) {c : Callback} {rest : List Callback}
    (hr : l.ready = c :: rest) : Loop.Orderly active named { l with ready := rest } := by
  have hd := due_takeUp hr
  refine h.change (Nat.le_refl _) h.below (fun u hu => h.due_below u (Nat.lt_of_lt_of_le hu (hd u)))
    (fun u q hq ha => Nat.le_trans (hd u) (h.once u q hq ha)) (fun u hu => .inl ?_)
    fun u q hq ha => .inr ⟨q, hq, ha⟩
  exact hu.mono (fun _ hc => hr ▸ List.mem_cons_of_mem _ hc) (fun _ hx => hx) fun _ hg => hg

theorem Orderly.steps_of_active (h : l.Orderly active named) {c : Callback} {p : P}
    (hc : c ∈ l.ready) (target : c.target? = some t) (hs : l.standing t = some p)
    (ha : active p = true) : c.steps t = true := by
  cases c with
  | step u signal => exact decide_eq_true (Option.some.inj target)
  | ended u o x => simp [(h.passive t (.inl (.ready hc target))).2 p hs] at ha

theorem Orderly.due_pop (h : l.Orderly active named) {c : Callback} {rest : List Callback} {p : P}
    (hr : l.ready = c :: rest) (target : c.target? = some t) (hs : l.standing t = some p)
    (ha : active p = true) : Loop.due { l with ready := rest } t = 0 := by
  have hd := h.once t p hs ha
  have hc := h.steps_of_active (hr ▸ List.mem_cons_self) target hs ha
  unfold due at hd ⊢
  rw [hr, List.countP_cons_of_pos hc] at hd
  change rest.countP _ + l.sleepers.countP _ = 0
  omega

theorem Orderly.signal_of_active (h : l.Orderly active named) {signal : Signal} {p : P}
    (hr : .step t signal ∈ l.ready) (hs : l.standing t = some p) (ha : active p = true) :
    signal = .go := by
  refine Decidable.byContradiction fun hn => ?_
  have hp := (h.passive t (.inl (.ready hr (by simp [Callback.alarm?, hn])))).2 p hs
  simp [hp] at ha

theorem Orderly.calledOff_of_active (h : l.Orderly active named) {x : Task P} (hx : l.task? t = some x)
    (hs : l.standing t = some x.point) (ha : active x.point = true) : x.calledOff = false := by
  cases hc : x.calledOff with
  | false => rfl
  | true =>
    have ht : x.id = t := by simpa using List.find?_some hx
    have hp := (h.passive t (.inl (.calledOff (List.mem_of_find?_eq_some hx) ht hc))).2 _ hs
    simp [hp] at ha

end Orderly

end Loop

namespace LoopHost

variable {S P : Type} {t : TaskId}

theorem step_of_gone (host : LoopHost S P) {s : S} (gone : (host.loop s).standing t = none)
    (signal : Signal) : host.step t signal s = s := by
  unfold step
  cases found : (host.loop s).task? t with
  | none => rfl
  | some task =>
    cases ended : task.outcome with
    | some o => simp [ended]
    | none => simp [Loop.standing, found, ended] at gone

/-- A task goes on from where it stands, as cancelled if it was called off. -/
theorem step_of_standing (host : LoopHost S P) {s : S} {p : P}
    (stands : (host.loop s).standing t = some p) (signal : Signal) :
    ∃ task, (host.loop s).task? t = some task ∧ task.point = p ∧
      host.step t signal s = host.resume t p (if task.calledOff then .cancelled else signal) s := by
  unfold step
  cases found : (host.loop s).task? t with
  | none => simp [Loop.standing, found] at stands
  | some task =>
    cases ended : task.outcome with
    | some o => simp [Loop.standing, found, ended] at stands
    | none =>
      have point : task.point = p := by simpa [Loop.standing, found, ended] using stands
      subst point
      exact ⟨task, rfl, rfl, by simp [ended]⟩

theorem run_of_target (host : LoopHost S P) {c : Callback} (target : c.target? = some t) :
    ∃ signal, (c.steps t = true → c = .step t signal) ∧
      ∀ s, host.run c s = host.step t signal s := by
  cases c with
  | step u signal =>
    obtain rfl := Option.some.inj target
    exact ⟨signal, fun _ => rfl, fun _ => rfl⟩
  | ended u outcome x =>
    cases x with
    | resume waiter =>
      obtain rfl := Option.some.inj target
      exact ⟨outcome.signal, nofun, fun _ => rfl⟩
    | leave _ | gather _ => cases target

end LoopHost

end SchemaDiagram
