import SchemaDiagram.Proofs.Scheduling

/-!
Members of groups. Whoever is in a group of tasks leaves it after its end: either it has not ended and
is listened to for the group, or its end is ready to be heard. No operation of a loop changes that.
-/

set_option autoImplicit false

namespace SchemaDiagram

namespace Loop

variable {P : Type}

inductive Leaves (l : Loop P) (g : TaskGroup) (t : TaskId) : Prop where
  | ends {x : Task P} (found : l.task? t = some x) (open_ : x.outcome = none)
      (listens : .leave g ∈ x.listeners)
  | now {o : Outcome} (ready : .ended t o (.leave g) ∈ l.ready)

def Attended (l : Loop P) : Prop := ∀ p ∈ l.groups, l.Leaves p.1 p.2

section Attended

variable {l k : Loop P} {t : TaskId} {g : TaskGroup}

theorem Leaves.mono (leaves : l.Leaves g t)
    (tasks : ∀ x, l.task? t = some x → x.outcome = none →
      ∃ y, k.task? t = some y ∧ y.outcome = none ∧ x.listeners ⊆ y.listeners)
    (ready : l.ready ⊆ k.ready) : k.Leaves g t := by
  cases leaves with
  | ends found open_ listens =>
    obtain ⟨y, found, still, more⟩ := tasks _ found open_
    exact .ends found still (more listens)
  | now mem => exact .now (ready mem)

theorem Attended.of_tasks (attended : l.Attended) (tasks : k.tasks = l.tasks)
    (groups : k.groups = l.groups) (ready : l.ready ⊆ k.ready) : k.Attended := by
  intro p hp
  refine (attended p (groups ▸ hp)).mono (fun x hx open_ => ⟨x, ?_, open_, fun _ => id⟩) ready
  unfold task? at hx ⊢
  rw [tasks, hx]

theorem Attended.push (attended : l.Attended) (c : Callback) : (l.push c).Attended :=
  attended.of_tasks rfl rfl fun _ => List.mem_append_left _

theorem Attended.mapTask (attended : l.Attended) (t : TaskId) {f : Task P → Task P}
    (keeps : ∀ x, (f x).id = x.id ∧ (f x).outcome = x.outcome ∧ x.listeners ⊆ (f x).listeners) :
    (l.mapTask t f).Attended := by
  intro p hp
  refine (attended p hp).mono (fun x hx open_ => ?_) fun _ => id
  rw [task?_mapTask l t p.2 fun x => (keeps x).1, hx]
  split
  · exact ⟨f x, rfl, (keeps x).2.1.trans open_, (keeps x).2.2⟩
  · exact ⟨x, rfl, open_, fun _ => id⟩

theorem Attended.wait (attended : l.Attended) (t : TaskId) (p : P) : (l.wait t p).Attended :=
  attended.mapTask (f := fun x => { x with point := p }) t fun _ => ⟨rfl, rfl, fun _ => id⟩

theorem Attended.listen (attended : l.Attended) (t : TaskId) (y : Listener) :
    (l.listen t y).Attended :=
  attended.mapTask (f := fun x => { x with listeners := x.listeners ++ [y] }) t fun _ =>
    ⟨rfl, rfl, fun _ => List.mem_append_left _⟩

theorem Attended.sleep (attended : l.Attended) (t : TaskId) (seconds : Float) (p : P) :
    (l.sleep t seconds p).Attended := by
  unfold Loop.sleep
  simp only
  split
  · exact (attended.wait t p).push _
  · exact (attended.wait t p).of_tasks rfl rfl fun _ => id

theorem Attended.join (attended : l.Attended) (t target : TaskId) (p : P) :
    (l.join t target p).Attended :=
  (attended.wait t p).listen target _

theorem Attended.gather (attended : l.Attended) (t : TaskId) (targets : List TaskId) (p : P) :
    (l.gather t targets p).Attended :=
  gather_induction (I := Attended) l t targets p ((attended.wait t p).of_tasks rfl rfl fun _ => id)
    (fun _ _ _ hk => hk.push _) fun _ a hk => hk.listen a _

theorem Attended.cancel (attended : l.Attended) (t : TaskId) : (l.cancel t).Attended := by
  have off : (l.mapTask t fun x => { x with calledOff := true }).Attended :=
    attended.mapTask (f := fun x => { x with calledOff := true }) t fun _ => ⟨rfl, rfl, fun _ => id⟩
  unfold Loop.cancel
  split
  · exact attended
  · simp only
    split
    · exact off.of_tasks rfl rfl fun _ => List.mem_append_left _
    · exact off

theorem Attended.count (attended : l.Attended) (id : Nat) (o : Outcome) :
    (l.count id o).Attended := by
  have counted := counted_count l id o
  generalize l.count id o = k at counted ⊢
  cases counted with
  | put => exact attended.of_tasks rfl rfl fun _ mem => mem
  | wakes => exact attended.of_tasks rfl rfl fun _ => List.mem_append_left _

theorem Attended.advance? (attended : l.Attended) (moves : l.advance? = some k) : k.Attended := by
  obtain ⟨time, -, rfl⟩ := Option.map_eq_some_iff.mp moves
  exact attended.of_tasks rfl rfl fun _ => List.mem_append_left _

theorem Attended.finish (attended : l.Attended) (t : TaskId) (o : Outcome) :
    (l.finish t o).Attended := by
  unfold Loop.finish
  cases found : l.task? t with
  | none => exact attended
  | some task =>
    rintro ⟨g, u⟩ hp
    cases attended _ hp with
    | now mem => exact .now (List.mem_append_left _ mem)
    | @ends x hx open_ listens =>
      by_cases same : u = t
      · subst u
        obtain rfl := Option.some.inj (found.symm.trans hx)
        exact .now (List.mem_append_right _ (List.mem_map.mpr ⟨_, listens, rfl⟩))
      · refine .ends (x := x) ?_ open_ listens
        refine (task?_mapTask (f := fun x => { x with outcome := some o, listeners := [] }) l t u
          fun _ => rfl).trans ?_
        rw [if_neg same, hx]

theorem Attended.enter (attended : l.Attended) (p : P) : (l.enter p).1.Attended := by
  intro q hq
  refine (attended q hq).mono (fun x hx open_ => ⟨x, ?_, open_, fun _ => id⟩) fun _ => id
  rw [task?_enter, hx]
  rfl

theorem Attended.spawn (attended : l.Attended) (p : P) : (l.spawn p).1.Attended :=
  (attended.enter p).push _

theorem Attended.spawnIn (attended : l.Attended) (g : TaskGroup) (p : P)
    (new : l.task? l.fresh = none) : (l.spawnIn g p).1.Attended := by
  have listens := (attended.spawn p).listen l.fresh (.leave g)
  intro q hq
  rcases List.mem_append.mp hq with hq | hq
  · exact (listens q hq).mono (fun x hx open_ => ⟨x, hx, open_, fun _ => id⟩) fun _ => id
  · obtain rfl := List.mem_singleton.mp hq
    refine .ends (x := { id := l.fresh, point := p, listeners := [.leave g] }) ?_ rfl
      (List.mem_singleton.mpr rfl)
    refine (task?_mapTask (f := fun x => { x with listeners := x.listeners ++ [.leave g] })
      (l.spawn p).1 l.fresh l.fresh fun _ => rfl).trans ?_
    rw [if_pos rfl, show (l.spawn p).1.task? l.fresh = (l.enter p).1.task? l.fresh from rfl,
      task?_enter, new, if_pos rfl]
    rfl

end Attended

end Loop

end SchemaDiagram
