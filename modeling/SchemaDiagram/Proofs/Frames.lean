import Mathlib.Data.List.Basic
import SchemaDiagram.Proofs.Scheduling

/-!
What the work of a task leaves alone. An operation of a loop touches the tasks that it names: the
others stand where they stood, are due and wake when they were, nothing that was ready goes away, and
no end of a task is forgotten.
-/

set_option autoImplicit false

namespace SchemaDiagram

namespace Loop

variable {P B : Type}

def CalledOff (l : Loop P) (t : TaskId) : Prop := ∃ x, l.task? t = some x ∧ x.calledOff = true

def alarms (l : Loop P) (t : TaskId) : List Float :=
  (l.sleepers.filter fun s => s.task = t).map Sleeper.wakeAt

/-- Meanwhile, behind all that was ready or asleep, only turns of some tasks have been given out. -/
structure Grows (l k : Loop P) (who : TaskId → Prop) : Prop where
  ready : ∃ more, k.ready = l.ready ++ more ∧ ∀ c ∈ more, ∀ t, c.steps t = true → who t
  sleepers : ∀ s ∈ k.sleepers, s ∈ l.sleepers ∨ who s.task

theorem due_pos_of_mem {l : Loop P} {t : TaskId} {signal : Signal} (h : .step t signal ∈ l.ready) :
    0 < l.due t := by
  have ready : 0 < l.ready.countP (Callback.steps t) :=
    List.countP_pos_iff.mpr ⟨_, h, decide_eq_true rfl⟩
  unfold due
  omega

section Grows

variable {l k n : Loop P} {who whom : TaskId → Prop}

theorem Grows.of_same (ready : k.ready = l.ready) (sleepers : k.sleepers = l.sleepers) :
    l.Grows k who :=
  ⟨⟨[], by rw [ready, List.append_nil], fun _ hc => nomatch hc⟩, fun _ hs => .inl (sleepers ▸ hs)⟩

theorem Grows.mono (h : l.Grows k who) (more : ∀ u, who u → whom u) : l.Grows k whom := by
  obtain ⟨new, ready, turns⟩ := h.ready
  exact ⟨⟨new, ready, fun c hc t ht => more t (turns c hc t ht)⟩,
    fun s hs => (h.sleepers s hs).imp id (more s.task)⟩

theorem Grows.trans (h : l.Grows k who) (h' : k.Grows n who) : l.Grows n who := by
  obtain ⟨more, ready, turns⟩ := h.ready
  obtain ⟨more', ready', turns'⟩ := h'.ready
  refine ⟨⟨more ++ more', by rw [ready', ready, List.append_assoc], fun c hc => ?_⟩, fun s hs => ?_⟩
  · exact (List.mem_append.mp hc).elim (turns c) (turns' c)
  · exact (h'.sleepers s hs).elim (h.sleepers s) .inr

theorem grows_push_step (l : Loop P) (t : TaskId) (signal : Signal) :
    l.Grows (l.push (.step t signal)) (· = t) := by
  refine ⟨⟨[.step t signal], rfl, fun c hc u hu => ?_⟩, fun _ hs => .inl hs⟩
  obtain rfl := List.mem_singleton.mp hc
  exact (of_decide_eq_true hu).symm

theorem grows_wait (l : Loop P) (t : TaskId) (p : P) : l.Grows (l.wait t p) fun _ => False :=
  .of_same rfl rfl

theorem grows_join (l : Loop P) (t target : TaskId) (p : P) :
    l.Grows (l.join t target p) fun _ => False :=
  .of_same rfl rfl

theorem grows_sleep (l : Loop P) (t : TaskId) (seconds : Float) (p : P) :
    l.Grows (l.sleep t seconds p) (· = t) := by
  unfold sleep
  simp only
  split
  · have waits : l.Grows (l.wait t p) (· = t) := .of_same rfl rfl
    exact waits.trans (grows_push_step (l.wait t p) t .go)
  · refine ⟨⟨[], (List.append_nil _).symm, fun _ hc => nomatch hc⟩, fun s hs => ?_⟩
    exact (List.mem_append.mp hs).imp id fun hs => congrArg Sleeper.task (List.mem_singleton.mp hs)

theorem grows_finish (l : Loop P) (t : TaskId) (o : Outcome) :
    l.Grows (l.finish t o) fun _ => False := by
  unfold finish
  cases l.task? t with
  | none => exact .of_same rfl rfl
  | some task =>
    refine ⟨⟨_, rfl, fun c hc u hu => ?_⟩, fun _ hs => .inl hs⟩
    obtain ⟨_, -, rfl⟩ := List.mem_map.mp hc
    cases hu

theorem grows_gather (l : Loop P) (t : TaskId) (targets : List TaskId) (p : P) :
    l.Grows (l.gather t targets p) fun _ => False := by
  refine gather_induction (I := fun k => l.Grows k fun _ => False) l t targets p (.of_same rfl rfl)
    (fun k a o hk => hk.trans ⟨⟨_, rfl, fun c hc u hu => ?_⟩, fun _ hs => .inl hs⟩)
    fun k a hk => hk.trans (.of_same rfl rfl)
  obtain rfl := List.mem_singleton.mp hc
  cases hu

theorem grows_cancel (l : Loop P) (t : TaskId) : l.Grows (l.cancel t) (· = t) := by
  unfold cancel
  split
  · exact .of_same rfl rfl
  · simp only
    split
    · obtain ⟨ready, -⟩ := grows_push_step l t .cancelled
      exact ⟨ready, fun s hs => .inl (List.mem_filter.mp hs).1⟩
    · exact .of_same rfl rfl

theorem grows_count (l : Loop P) (id : Nat) (o : Outcome) :
    l.Grows (l.count id o) fun t => ∃ g ∈ l.gatherings, g.waiter = t := by
  have counted := counted_count l id o
  generalize l.count id o = k at counted ⊢
  cases counted with
  | put => exact .of_same rfl rfl
  | wakes mem signal gatherings =>
    have put : l.Grows { l with gatherings := gatherings } fun t => ∃ g ∈ l.gatherings, g.waiter = t :=
      .of_same rfl rfl
    refine put.trans ((grows_push_step _ _ signal).mono ?_)
    rintro u rfl
    exact ⟨_, mem, rfl⟩

theorem grows_advance? (h : l.advance? = some k) :
    l.Grows k fun t => ∃ s ∈ l.sleepers, s.task = t := by
  obtain ⟨time, -, rfl⟩ := Option.map_eq_some_iff.mp h
  refine ⟨⟨_, rfl, fun c hc t ht => ?_⟩, fun s hs => .inl (List.mem_filter.mp hs).1⟩
  obtain ⟨s, hs, rfl⟩ := List.mem_map.mp hc
  exact ⟨s, (List.mem_filter.mp hs).1, of_decide_eq_true ht⟩

end Grows

theorem due_eq (l : Loop P) (t : TaskId) :
    l.due t = l.ready.countP (Callback.steps t) + (l.alarms t).length := by
  unfold due alarms
  rw [List.length_map, ← List.countP_eq_length_filter]

def Recalls (l k : Loop P) : Prop :=
  ∀ u x, l.task? u = some x → ∃ y, k.task? u = some y ∧
    (x.outcome.isSome = true → y.outcome = x.outcome) ∧ (x.calledOff = true → y.calledOff = true)

section Recalls

variable {l k n : Loop P} {t u : TaskId}

theorem Recalls.of_tasks (h : k.tasks = l.tasks) : l.Recalls k := fun u x hx => by
  refine ⟨x, ?_, fun _ => rfl, id⟩
  unfold task? at hx ⊢
  rw [h, hx]

theorem Recalls.trans (h : l.Recalls k) (h' : k.Recalls n) : l.Recalls n := by
  intro u x hx
  obtain ⟨y, hy, outcome, off⟩ := h u x hx
  obtain ⟨z, hz, outcome', off'⟩ := h' u y hy
  refine ⟨z, hz, fun ended => ?_, off' ∘ off⟩
  have same := outcome ended
  exact (outcome' (same ▸ ended)).trans same

theorem recalls_mapTask (l : Loop P) (t : TaskId) {f : Task P → Task P}
    (keeps : ∀ x, (f x).id = x.id)
    (recalls : ∀ x, l.task? t = some x → (x.outcome.isSome = true → (f x).outcome = x.outcome) ∧
      (x.calledOff = true → (f x).calledOff = true)) : l.Recalls (l.mapTask t f) := by
  intro u x hx
  rw [task?_mapTask l t u keeps, hx]
  split
  · subst u
    exact ⟨f x, rfl, recalls x hx⟩
  · exact ⟨x, rfl, fun _ => rfl, id⟩

theorem alarms_advance? (moves : l.advance? = some k) (t : TaskId) :
    k.alarms t = (l.alarms t).filter fun r => ¬ r ≤ k.now := by
  obtain ⟨time, -, rfl⟩ := Option.map_eq_some_iff.mp moves
  unfold alarms
  simp only [List.filter_filter, List.filter_map]
  refine congrArg _ (List.filter_congr fun s _ => ?_)
  exact Bool.and_comm _ _

theorem recalls_enter (l : Loop P) (p : P) : l.Recalls (l.enter p).1 := by
  intro u x hx
  rw [task?_enter, hx]
  exact ⟨x, rfl, fun _ => rfl, id⟩

theorem recalls_wait (l : Loop P) (t : TaskId) (p : P) : l.Recalls (l.wait t p) :=
  recalls_mapTask (f := fun x => { x with point := p }) l t (fun _ => rfl) fun _ _ => ⟨fun _ => rfl, id⟩

theorem recalls_listen (l : Loop P) (t : TaskId) (y : Listener) : l.Recalls (l.listen t y) :=
  recalls_mapTask (f := fun x => { x with listeners := x.listeners ++ [y] }) l t (fun _ => rfl)
    fun _ _ => ⟨fun _ => rfl, id⟩

theorem recalls_cancel (l : Loop P) (t : TaskId) : l.Recalls (l.cancel t) := by
  have off : l.Recalls (l.mapTask t fun x => { x with calledOff := true }) :=
    recalls_mapTask (f := fun x => { x with calledOff := true }) l t (fun _ => rfl)
      fun _ _ => ⟨fun _ => rfl, fun _ => rfl⟩
  unfold cancel
  split
  · exact .of_tasks rfl
  · simp only
    split
    · exact off.trans (.of_tasks rfl)
    · exact off

theorem sleepers_cancel (l : Loop P) (t : TaskId) : (l.cancel t).sleepers ⊆ l.sleepers := by
  unfold cancel
  split
  · exact fun _ hs => hs
  · simp only
    split
    · exact fun _ hs => (List.mem_filter.mp hs).1
    · exact fun _ hs => hs

theorem calledOff_cancel {p : P} (stands : l.standing t = some p) : (l.cancel t).CalledOff t := by
  obtain ⟨task, found, open_⟩ := Option.bind_eq_some_iff.mp stands
  have off : (l.mapTask t fun x => { x with calledOff := true }).CalledOff t := by
    refine ⟨{ task with calledOff := true }, ?_, rfl⟩
    rw [task?_mapTask (f := fun x => { x with calledOff := true }) l t t fun _ => rfl, if_pos rfl,
      found]
    rfl
  unfold cancel
  split
  · rename_i ended
    cases outcome : task.outcome <;> simp_all [outcome?]
  · simp only
    split <;> exact off

theorem recalls_finish {p : P} (stands : l.standing t = some p) (o : Outcome) :
    l.Recalls (l.finish t o) := by
  obtain ⟨task, found, open_⟩ := Option.bind_eq_some_iff.mp stands
  unfold finish
  rw [found]
  refine Recalls.trans (recalls_mapTask (f := fun x => { x with outcome := some o, listeners := [] })
    l t (fun _ => rfl) fun x hx => ⟨fun ended => ?_, id⟩) (.of_tasks rfl)
  obtain rfl := Option.some.inj (found.symm.trans hx)
  cases outcome : task.outcome with
  | none => simp [outcome] at ended
  | some _ => simp [outcome] at open_

theorem Recalls.outcome? (h : l.Recalls k) {o : Outcome} (ended : l.outcome? u = some o) :
    k.outcome? u = some o := by
  obtain ⟨x, hx, outcome⟩ := Option.bind_eq_some_iff.mp ended
  obtain ⟨y, hy, same, -⟩ := h u x hx
  unfold Loop.outcome?
  rw [hy]
  exact (same (by simp [outcome])).trans outcome

theorem Recalls.calledOff (h : l.Recalls k) (off : l.CalledOff u) : k.CalledOff u := by
  obtain ⟨x, hx, off⟩ := off
  obtain ⟨y, hy, -, called⟩ := h u x hx
  exact ⟨y, hy, called off⟩

end Recalls

/-- Only some tasks are touched. -/
structure Touches (l k : Loop P) (who : TaskId → Prop) : Prop where
  now : k.now = l.now
  fresh : l.fresh ≤ k.fresh
  groups : l.groups ⊆ k.groups
  recalls : l.Recalls k
  grows : l.Grows k who
  /-- Who is to leave a group has ended. -/
  leaves : ∀ t o g, .ended t o (.leave g) ∈ k.ready →
    .ended t o (.leave g) ∈ l.ready ∨ (k.outcome? t).isSome = true
  standing : ∀ u, ¬ who u → k.standing u = l.standing u
  due : ∀ u, ¬ who u → k.due u = l.due u
  alarms : ∀ u, ¬ who u → k.alarms u = l.alarms u
  refers : ∀ u, ¬ who u → k.Refers u → l.Refers u

section Touches

variable {l k n : Loop P} {t u : TaskId} {who whom : TaskId → Prop}

namespace Touches

theorem mono (h : l.Touches k who) (more : ∀ u, who u → whom u) : l.Touches k whom where
  now := h.now
  fresh := h.fresh
  groups := h.groups
  recalls := h.recalls
  grows := h.grows.mono more
  leaves := h.leaves
  standing u hu := h.standing u (hu ∘ more u)
  due u hu := h.due u (hu ∘ more u)
  alarms u hu := h.alarms u (hu ∘ more u)
  refers u hu := h.refers u (hu ∘ more u)

theorem trans (h : l.Touches k who) (h' : k.Touches n who) : l.Touches n who where
  now := h'.now.trans h.now
  fresh := Nat.le_trans h.fresh h'.fresh
  groups _ hg := h'.groups (h.groups hg)
  recalls := h.recalls.trans h'.recalls
  grows := h.grows.trans h'.grows
  leaves t o g hc := by
    refine (h'.leaves t o g hc).elim (fun hc => (h.leaves t o g hc).imp id fun ended => ?_) .inr
    obtain ⟨v, hv⟩ := Option.isSome_iff_exists.mp ended
    rw [h'.recalls.outcome? hv]
    rfl
  standing u hu := (h'.standing u hu).trans (h.standing u hu)
  due u hu := (h'.due u hu).trans (h.due u hu)
  alarms u hu := (h'.alarms u hu).trans (h.alarms u hu)
  refers u hu refers := h.refers u hu (h'.refers u hu refers)

theorem of_same (now : k.now = l.now) (fresh : l.fresh ≤ k.fresh) (groups : l.groups ⊆ k.groups)
    (tasks : k.tasks = l.tasks) (ready : k.ready = l.ready) (sleepers : k.sleepers = l.sleepers)
    (refers : ∀ u, ¬ who u → k.Refers u → l.Refers u) : l.Touches k who where
  now := now
  fresh := fresh
  groups := groups
  recalls := .of_tasks tasks
  grows := .of_same ready sleepers
  leaves _ _ _ hc := .inl (ready ▸ hc)
  standing u _ := by
    unfold Loop.standing task?
    rw [tasks]
  due u _ := by
    unfold Loop.due
    rw [ready, sleepers]
  alarms u _ := by
    unfold Loop.alarms
    rw [sleepers]
  refers := refers

theorem refl (l : Loop P) (who : TaskId → Prop) : l.Touches l who :=
  .of_same rfl (Nat.le_refl _) (fun _ hg => hg) rfl rfl rfl fun _ _ => id

end Touches

theorem touches_wait (l : Loop P) (t : TaskId) (p : P) : l.Touches (l.wait t p) (· = t) where
  now := rfl
  fresh := Nat.le_refl _
  groups _ hg := hg
  recalls := recalls_wait l t p
  grows := .of_same rfl rfl
  leaves _ _ _ := .inl
  standing u hu := (standing_wait l t u p).trans (if_neg hu)
  due _ _ := rfl
  alarms _ _ := rfl
  refers _ _ := Refers.of_wait

theorem touches_listen (l : Loop P) (a : TaskId) {y : Listener}
    (hears : ∀ u, y.waiter? = some u → u = t) : l.Touches (l.listen a y) (· = t) where
  now := rfl
  fresh := Nat.le_refl _
  groups _ hg := hg
  recalls := recalls_listen l a y
  grows := .of_same rfl rfl
  leaves _ _ _ := .inl
  standing u _ := standing_listen l a u y
  due _ _ := rfl
  alarms _ _ := rfl
  refers u hu refers := (Refers.of_listen refers).resolve_right fun same => hu (hears u same)

theorem touches_push_step (l : Loop P) (t : TaskId) (signal : Signal) :
    l.Touches (l.push (.step t signal)) (· = t) where
  now := rfl
  fresh := Nat.le_refl _
  groups _ hg := hg
  recalls := .of_tasks rfl
  grows := grows_push_step l t signal
  leaves _ _ _ hc := .inl ((List.mem_append.mp hc).resolve_right (by simp))
  standing _ _ := rfl
  due u hu := (due_push_step l t u signal).trans (by rw [if_neg hu, Nat.add_zero])
  alarms _ _ := rfl
  refers u hu refers := by
    refine (Refers.of_push refers).resolve_right fun same => hu ?_
    have same : (if signal = .go then none else some t) = some u := same
    split at same
    · cases same
    · exact (Option.some.inj same).symm

theorem touches_join (l : Loop P) (t target : TaskId) (p : P) :
    l.Touches (l.join t target p) (· = t) := by
  refine (touches_wait l t p).trans (touches_listen _ target fun u same => ?_)
  cases same
  rfl

theorem touches_sleep (l : Loop P) (t : TaskId) (seconds : Float) (p : P) :
    l.Touches (l.sleep t seconds p) (· = t) := by
  refine (touches_wait l t p).trans ?_
  unfold sleep
  simp only
  split
  · exact touches_push_step (l.wait t p) t .go
  · refine ⟨rfl, Nat.le_refl _, fun _ hg => hg, .of_tasks rfl,
      ⟨⟨[], (List.append_nil _).symm, nofun⟩, ?_⟩, fun _ _ _ => .inl, fun _ _ => rfl,
      fun u hu => ?_, fun u hu => ?_, fun u _ refers => ?_⟩
    · exact fun s hs => (List.mem_append.mp hs).imp id fun hs =>
        congrArg Sleeper.task (List.mem_singleton.mp hs)
    · unfold due
      simp [List.countP_append, Ne.symm hu]
    · unfold alarms
      simp [List.filter_append, Ne.symm hu]
    · exact refers.mono (fun _ hc => hc) (fun _ hx => hx) fun _ hg => hg

theorem touches_finish {p : P} (stands : l.standing t = some p) (o : Outcome) :
    l.Touches (l.finish t o) (· = t) := by
  obtain ⟨task, found, -⟩ := Option.bind_eq_some_iff.mp stands
  have shape : l.finish t o =
      { l.mapTask t fun x => { x with outcome := some o, listeners := [] } with
        ready := l.ready ++ task.listeners.map fun y => .ended t o y } := by
    unfold finish
    rw [found]
    rfl
  have grows : l.Grows (l.finish t o) (· = t) := (grows_finish l t o).mono fun _ => False.elim
  refine ⟨by rw [shape]; rfl, by rw [shape]; exact Nat.le_refl _, by rw [shape]; exact fun _ hg => hg,
    recalls_finish stands o, grows, fun v o' g hc => ?_,
    fun u hu => (standing_finish l t u o).trans (if_neg hu), fun u _ => due_finish l t u o,
    fun _ _ => by rw [shape]; rfl, fun u _ => Refers.of_finish⟩
  rw [shape] at hc
  refine (List.mem_append.mp hc).imp id fun hc => ?_
  obtain ⟨y, -, same⟩ := List.mem_map.mp hc
  cases same
  rw [outcome?_finish stands]
  rfl

theorem groups_finish (l : Loop P) (t : TaskId) (o : Outcome) :
    (l.finish t o).groups = l.groups := by
  unfold finish
  cases l.task? t <;> rfl

theorem sleepers_finish (l : Loop P) (t : TaskId) (o : Outcome) :
    (l.finish t o).sleepers = l.sleepers := by
  unfold finish
  cases l.task? t <;> rfl

theorem sleepers_gather (l : Loop P) (t : TaskId) (targets : List TaskId) (p : P) :
    (l.gather t targets p).sleepers = l.sleepers :=
  gather_induction (I := fun k => k.sleepers = l.sleepers) l t targets p rfl (fun _ _ _ => id)
    fun _ _ => id

theorem ready_gather (l : Loop P) (t : TaskId) {targets : List TaskId} (p : P)
    (open_ : ∀ u ∈ targets, l.outcome? u = none) : (l.gather t targets p).ready = l.ready := by
  have same {k : Loop P} {t : TaskId} {f : Task P → Task P}
      (keeps : ∀ x, (f x).id = x.id ∧ (f x).outcome = x.outcome) (u : TaskId) :
      (k.mapTask t f).outcome? u = k.outcome? u := by
    unfold outcome?
    rw [task?_mapTask k t u fun x => (keeps x).1]
    cases k.task? u with
    | none => split <;> rfl
    | some x =>
      split
      · exact (keeps x).2
      · rfl
  suffices h : (l.gather t targets p).ready = l.ready ∧
      ∀ u ∈ targets, (l.gather t targets p).outcome? u = none from h.1
  unfold gather
  refine List.foldlRecOn (motive := fun k : Loop P => k.ready = l.ready ∧
    ∀ u ∈ targets, k.outcome? u = none) targets _ ⟨rfl, fun u hu => ?_⟩ ?_
  · exact (same (f := fun x => { x with point := p }) (fun _ => ⟨rfl, rfl⟩) u).trans (open_ u hu)
  · rintro k ⟨ready, open_⟩ u hu
    rw [open_ u hu]
    exact ⟨ready, fun v hv => (same (f := fun x => { x with listeners := x.listeners ++ _ })
      (fun _ => ⟨rfl, rfl⟩) v).trans (open_ v hv)⟩

theorem sleepers_count (l : Loop P) (id : Nat) (o : Outcome) :
    (l.count id o).sleepers = l.sleepers := by
  have counted := counted_count l id o
  generalize l.count id o = k at counted ⊢
  cases counted <;> rfl

theorem touches_gather (l : Loop P) (t : TaskId) (targets : List TaskId) (p : P) :
    l.Touches (l.gather t targets p) (· = t) := by
  refine gather_induction (I := fun k => l.Touches k (· = t)) l t targets p ?_
    (fun k a o hk => hk.trans ?_) fun k a hk => hk.trans (touches_listen k a nofun)
  · refine (touches_wait l t p).trans
      (.of_same rfl (Nat.le_succ _) (fun _ hg => hg) rfl rfl rfl fun u hu refers => ?_)
    cases refers with
    | ready mem alarm => exact .ready mem alarm
    | listener mem listens waiter => exact .listener mem listens waiter
    | calledOff mem id off => exact .calledOff mem id off
    | gathering mem waiter =>
      rcases List.mem_append.mp mem with mem | mem
      · exact .gathering mem waiter
      · cases List.mem_singleton.mp mem
        exact absurd waiter.symm hu
  · refine ⟨rfl, Nat.le_refl _, fun _ hg => hg, .of_tasks rfl,
      ⟨⟨[.ended a o (.gather l.fresh)], rfl, ?_⟩, fun _ => .inl⟩,
      fun _ _ _ hc => .inl ((List.mem_append.mp hc).resolve_right (by simp)), fun _ _ => rfl,
      fun u _ => due_push_ended k a u o _, fun _ _ => rfl, fun u _ refers => ?_⟩
    · simp [Callback.steps]
    · exact (Refers.of_push refers).resolve_right (by simp [Callback.alarm?, Listener.waiter?])

theorem alarms_sleep (l : Loop P) (t : TaskId) (seconds : Float) (p : P) :
    (l.sleep t seconds p).alarms t =
      l.alarms t ++ if seconds ≤ 0 then [] else [l.now + seconds] := by
  unfold sleep
  simp only
  split
  · exact (List.append_nil _).symm
  · unfold alarms
    simp only [List.filter_append, List.map_append]
    exact congrArg _ (by simp [wait, mapTask])

theorem alarms_cancel (l : Loop P) (h : u ≠ t) : (l.cancel t).alarms u = l.alarms u := by
  unfold cancel
  split
  · rfl
  · simp only
    split
    · unfold alarms push mapTask
      simp only [List.filter_filter]
      refine congrArg _ (List.filter_congr fun s _ => ?_)
      by_cases hs : s.task = u <;> simp [hs, h]
    · rfl

theorem touches_cancel (l : Loop P) (t : TaskId) : l.Touches (l.cancel t) (· = t) := by
  have same : (l.cancel t).now = l.now ∧ (l.cancel t).groups = l.groups ∧
      ∀ u o g, Callback.ended u o (.leave g) ∈ (l.cancel t).ready → .ended u o (.leave g) ∈ l.ready := by
    unfold cancel
    split
    · exact ⟨rfl, rfl, fun _ _ _ => id⟩
    · simp only
      split
      · exact ⟨rfl, rfl, fun _ _ _ hc => (List.mem_append.mp hc).resolve_right (by simp)⟩
      · exact ⟨rfl, rfl, fun _ _ _ => id⟩
  exact {
    now := same.1
    fresh := Nat.le_of_eq (fresh_cancel l t).symm
    groups := same.2.1 ▸ fun _ hg => hg
    recalls := recalls_cancel l t
    grows := grows_cancel l t
    leaves := fun u o g hc => .inl (same.2.2 u o g hc)
    standing := fun u _ => standing_cancel l t u
    due := fun u hu => due_cancel l hu
    alarms := fun u hu => alarms_cancel l hu
    refers := fun u hu refers => (Refers.of_cancel refers).resolve_right hu }

theorem touches_count (l : Loop P) (id : Nat) (o : Outcome) :
    l.Touches (l.count id o) fun u => ∃ g ∈ l.gatherings, g.waiter = u := by
  have counted := counted_count l id o
  generalize l.count id o = k at counted ⊢
  have put (gatherings : List Gathering)
      (waiters : ∀ x ∈ gatherings, ∃ y ∈ l.gatherings, y.waiter = x.waiter) :
      l.Touches { l with gatherings := gatherings } fun u => ∃ g ∈ l.gatherings, g.waiter = u :=
    .of_same rfl (Nat.le_refl _) (fun _ hg => hg) rfl rfl rfl fun _ _ =>
      (Counted.put gatherings waiters).refers
  cases counted with
  | put gatherings waiters => exact put gatherings waiters
  | wakes mem signal gatherings waiters =>
    refine (put gatherings waiters).trans ((touches_push_step _ _ signal).mono ?_)
    rintro u rfl
    exact ⟨_, mem, rfl⟩

theorem touches_enter (l : Loop P) (p : P) (new : l.task? l.fresh = none) :
    l.Touches (l.enter p).1 (· = l.fresh) where
  now := rfl
  fresh := Nat.le_succ _
  groups _ hg := hg
  recalls := recalls_enter l p
  grows := .of_same rfl rfl
  leaves _ _ _ := .inl
  standing u hu := (standing_enter l p u new).trans (if_neg hu)
  due _ _ := rfl
  alarms _ _ := rfl
  refers _ _ := Refers.of_enter

theorem touches_spawn (l : Loop P) (p : P) (new : l.task? l.fresh = none) :
    l.Touches (l.spawn p).1 (· = l.fresh) :=
  (touches_enter l p new).trans (touches_push_step _ l.fresh .go)

theorem touches_spawnIn (l : Loop P) (g : TaskGroup) (p : P) (new : l.task? l.fresh = none) :
    l.Touches (l.spawnIn g p).1 (· = l.fresh) := by
  have listens := (touches_spawn l p new).trans
    (touches_listen (t := l.fresh) (l.spawn p).1 l.fresh (y := .leave g) nofun)
  refine listens.trans (.of_same rfl (Nat.le_refl _) (fun _ hg => List.mem_append_left _ hg) rfl rfl rfl
    fun u _ refers => ?_)
  exact refers.mono (fun _ hc => hc) (fun _ hx => hx) fun _ hg => hg

end Touches

section Coming

variable {f : P → Option B} {l k : Loop P} {t : TaskId} {who : TaskId → Prop}

/-- What a task begins when it goes on, with `f` what is begun at a point. -/
def begins (f : P → Option B) (l : Loop P) (t : TaskId) : Option B := (l.standing t).bind f

def heralds (f : P → Option B) (l : Loop P) : Callback → Option B
  | .step t _ => l.begins f t
  | .ended _ _ _ => none

def coming (f : P → Option B) (l : Loop P) : List B := l.ready.filterMap (l.heralds f)

theorem begins_of_stands {p : P} (stands : l.standing t = some p) : l.begins f t = f p := by
  unfold begins
  rw [stands]
  rfl

theorem begins_congr (same : k.standing t = l.standing t) : k.begins f t = l.begins f t := by
  unfold begins
  rw [same]

theorem coming_of_grows (grows : l.Grows k who) (silent : ∀ u, who u → k.begins f u = none)
    (same : ∀ u, k.begins f u = l.begins f u ∨
      k.begins f u = none ∧ ∀ signal, .step u signal ∈ l.ready → l.begins f u = none) :
    k.coming f = l.coming f := by
  obtain ⟨more, ready, turns⟩ := grows.ready
  have old : l.ready.filterMap (k.heralds f) = l.ready.filterMap (l.heralds f) := by
    refine List.filterMap_congr fun c hc => ?_
    cases c with
    | step u signal =>
      rcases same u with same | ⟨gone, unready⟩
      · exact same
      · exact gone.trans (unready signal hc).symm
    | ended => rfl
  have new : more.filterMap (k.heralds f) = [] := by
    refine List.filterMap_eq_nil_iff.mpr fun c hc => ?_
    cases c with
    | step u signal => exact silent u (turns _ hc u (decide_eq_true rfl))
    | ended => rfl
  unfold coming
  rw [ready, List.filterMap_append, old, new, List.append_nil]

theorem Touches.coming (h : l.Touches k who)
    (silent : ∀ u, who u → k.begins f u = none ∧ (l.due u = 0 ∨ l.begins f u = none)) :
    k.coming f = l.coming f := by
  refine coming_of_grows h.grows (fun u hu => (silent u hu).1) fun u => ?_
  by_cases hu : who u
  · obtain ⟨quiet, idle | before⟩ := silent u hu
    · exact .inr ⟨quiet, fun signal ready => absurd (due_pos_of_mem ready) (by omega)⟩
    · exact .inl (quiet.trans before.symm)
  · exact .inl (begins_congr (h.standing u hu))

theorem Touches.awake (h : l.Touches k who) (silent : ∀ u, who u → k.begins f u = none)
    (awake : ∀ s ∈ l.sleepers, l.begins f s.task = none) :
    ∀ s ∈ k.sleepers, k.begins f s.task = none := by
  intro s hs
  by_cases hu : who s.task
  · exact silent s.task hu
  · exact (begins_congr (h.standing s.task hu)).trans
      (awake s ((h.grows.sleepers s hs).resolve_right hu))

theorem coming_of_spawn {p : P} (ready : k.ready = l.ready ++ [.step t .go]) (idle : l.due t = 0)
    (standing : ∀ u, k.standing u = if u = t then some p else l.standing u) :
    k.coming f = l.coming f ++ (f p).toList := by
  have old : l.ready.filterMap (k.heralds f) = l.ready.filterMap (l.heralds f) := by
    refine List.filterMap_congr fun c hc => ?_
    cases c with
    | step u signal =>
      refine begins_congr ((standing u).trans (if_neg ?_))
      rintro rfl
      exact absurd (due_pos_of_mem hc) (by omega)
    | ended => rfl
  have new : k.heralds f (.step t .go) = f p :=
    begins_of_stands ((standing t).trans (if_pos rfl))
  unfold coming
  rw [ready, List.filterMap_append, old]
  cases hp : f p with
  | none => simp [new, hp]
  | some b => simp [new, hp]

theorem awake_of_spawn {p : P} (sleepers : k.sleepers = l.sleepers) (idle : l.due t = 0)
    (standing : ∀ u, k.standing u = if u = t then some p else l.standing u)
    (awake : ∀ s ∈ l.sleepers, l.begins f s.task = none) :
    ∀ s ∈ k.sleepers, k.begins f s.task = none := by
  intro s hs
  rw [sleepers] at hs
  refine (begins_congr ((standing s.task).trans (if_neg ?_))).trans (awake s hs)
  rintro rfl
  have sleeps : 0 < l.sleepers.countP fun u => u.task = s.task :=
    List.countP_pos_iff.mpr ⟨s, hs, decide_eq_true rfl⟩
  unfold due at idle
  omega

theorem coming_pop {c : Callback} {rest : List Callback} (ready : l.ready = c :: rest) :
    l.coming f = (l.heralds f c).toList ++ Loop.coming f { l with ready := rest } := by
  have same : Loop.heralds f { l with ready := rest } = l.heralds f := rfl
  unfold coming
  rw [ready, List.filterMap_cons, same]
  cases l.heralds f c <;> rfl

end Coming

end Loop

end SchemaDiagram
