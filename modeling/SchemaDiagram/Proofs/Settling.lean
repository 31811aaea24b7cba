import SchemaDiagram.Proofs.Groups
import SchemaDiagram.Proofs.Passes

/-!
A debouncer that is left to itself comes to rest. In each pass less is left to be done: of the work
of tasks, of the tasks that sleep, of what is ready until the last of those that have ended has left
its group, or of what is ready at all. Until then a task that waits for quiet may find that those it
waits for have ended, and go on at once to wait for them again.
-/

set_option autoImplicit false

namespace SchemaDiagram.Debounce.Job

def effort : Option (Point Stage Unit) → Nat
  | none => 0
  | some (.quiet _) | some (.pause true _) | some (.own (.work _)) | some (.own .flush) => 1
  | some (.own (.start _)) | some (.pause false _) => 2
  | some (.window true) => 3
  | some (.window false) => 4

/-- What is left of the work of all tasks. -/
def labour (l : Loop (Point Stage Unit)) : Nat :=
  ∑ t ∈ Finset.range l.fresh, effort (l.standing t)

def leaves : Callback → Bool
  | .ended _ _ (.leave _) => true
  | .step _ _ | .ended _ _ (.resume _) | .ended _ _ (.gather _) => false

def ahead : List Callback → Nat
  | [] => 0
  | c :: cs => if leaves c ∨ 0 < ahead cs then ahead cs + 1 else 0

def load : Callback → Nat
  | .ended _ _ (.gather _) => 2
  | .step _ _ | .ended _ _ (.leave _) | .ended _ _ (.resume _) => 1

/-- What is left to be done. -/
def remaining (l : Loop (Point Stage Unit)) : ℕ ×ₗ ℕ ×ₗ ℕ ×ₗ ℕ :=
  toLex (labour l, toLex (l.sleepers.length, toLex (ahead l.ready, (l.ready.map load).sum)))

section Labour

variable {l k : Loop (Point Stage Unit)} {t : TaskId} {p : Point Stage Unit} {named : Option TaskId}

theorem labour_congr (orderly : l.Orderly active named) (fresh : l.fresh ≤ k.fresh)
    (same : ∀ u, effort (k.standing u) = effort (l.standing u)) : labour k = labour l := by
  unfold labour
  rw [← Finset.sum_subset (Finset.range_subset_range.mpr fresh) fun u _ beyond => ?_]
  · exact Finset.sum_congr rfl fun u _ => same u
  · rw [same]
    cases stands : l.standing u with
    | none => rfl
    | some p => exact absurd (Finset.mem_range.mpr (orderly.standing_below stands)) beyond

theorem labour_change (fresh : k.fresh = l.fresh) (below : t < l.fresh)
    (others : ∀ u, u ≠ t → k.standing u = l.standing u) :
    labour k + effort (l.standing t) = labour l + effort (k.standing t) := by
  have mem : (t : ℕ) ∈ Finset.range l.fresh := Finset.mem_range.mpr below
  have split (f : ℕ → ℕ) := (Finset.add_sum_erase (Finset.range l.fresh) f mem).symm
  have rest : ∑ u ∈ (Finset.range l.fresh).erase t, effort (k.standing u) =
      ∑ u ∈ (Finset.range l.fresh).erase t, effort (l.standing u) :=
    Finset.sum_congr rfl fun u hu => congrArg effort (others u (Finset.ne_of_mem_erase hu))
  unfold labour
  rw [fresh, split fun u => effort (k.standing u), split fun u => effort (l.standing u), rest]
  omega

theorem labour_finish (below : t < l.fresh) (o : Outcome) :
    labour (l.finish t o) + effort (l.standing t) = labour l := by
  have fresh : (l.finish t o).fresh = l.fresh := by
    unfold Loop.finish
    cases l.task? t <;> rfl
  have change := labour_change fresh below fun u other =>
    (Loop.standing_finish l t u o).trans (if_neg other)
  rw [Loop.standing_finish, if_pos rfl] at change
  exact change

theorem labour_sleep (below : t < l.fresh) (stands : l.standing t = some p) (seconds : Float)
    (q : Point Stage Unit) :
    labour (l.sleep t seconds q) + effort (some p) = labour l + effort (some q) := by
  have fresh : (l.sleep t seconds q).fresh = l.fresh := by
    unfold Loop.sleep
    simp only
    split <;> rfl
  have change := labour_change fresh below fun u other =>
    (Loop.standing_sleep l t u seconds q).trans (if_neg other)
  rw [Loop.standing_sleep, if_pos rfl, stands] at change
  exact change

theorem labour_spawnIn (orderly : l.Orderly active named) (p : Point Stage Unit) :
    labour (l.spawnIn .fired p).1 = labour l + effort (some p) := by
  have standing (u : TaskId) := Loop.standing_spawnIn l .fired p u orderly.new
  unfold labour
  rw [show (l.spawnIn .fired p).1.fresh = l.fresh + 1 from rfl, Finset.sum_range_succ, standing,
    if_pos rfl]
  refine congrArg (· + _) (Finset.sum_congr rfl fun u hu => congrArg effort ?_)
  exact (standing u).trans (if_neg (Nat.ne_of_lt (Finset.mem_range.mp hu)))

end Labour

/-- What the turn of a task does to the loop: less is left of its work, or it waits on. -/
inductive Worked (l : Loop (Point Stage Unit)) (t : TaskId) (p : Point Stage Unit) :
    Loop (Point Stage Unit) → Prop where
  | ends (o : Outcome) : Worked l t p (l.finish t o)
  | sleeps (seconds : Float) {q : Point Stage Unit} (less : effort (some q) < effort (some p)) :
      Worked l t p (l.sleep t seconds q)
  | fires (j : Job) (elapsed : p = .window true) :
      Worked l t p ((l.spawnIn .fired (.own (.start j))).1.finish t (.returned .null))
  | joins (w : TaskId) (quiet : p = .quiet ()) : Worked l t p (l.join t w p)
  | gathers (quiet : p = .quiet ()) : Worked l t p (l.gather t (l.members .fired) p)

section Worked

variable {m : Machine} {l k : Loop (Point Stage Unit)} {t : TaskId} {p : Point Stage Unit}
  {named : Option TaskId}

theorem worked_complete (m : Machine) (t : TaskId) (p : Point Stage Unit) (j : Job) :
    Worked m.loop t p (complete t j m).loop := by
  unfold complete
  cases j.failure <;> exact .ends _

theorem worked_begin (m : Machine) (t : TaskId) {p : Point Stage Unit} (j : Job)
    (start : effort (some (.own (.work j))) < effort (some p)) :
    Worked m.loop t p (begin t j m).loop := by
  unfold begin
  cases j.work with
  | some seconds => exact .sleeps seconds start
  | none => exact worked_complete (record m _) t p j

theorem worked_awaitQuiet (m : Machine) (t : TaskId) :
    Worked m.loop t (.quiet ()) (m.awaitQuiet use t ()).loop := by
  unfold Machine.awaitQuiet
  cases m.window? with
  | some w => exact .joins w rfl
  | none =>
    simp only
    split
    · exact .gathers rfl
    · exact .ends _

theorem worked_resume (m : Machine) (t : TaskId) (p : Point Stage Unit) (signal : Signal)
    (proper : p ≠ .own .flush) : Worked m.loop t p (m.resume use t p signal).loop := by
  cases p with
  | window begun =>
    cases signal with
    | cancelled | failed => cases begun <;> exact .ends _
    | go =>
      cases begun with
      | false => exact .sleeps m.debouncer.delay (by decide)
      | true =>
        change Worked m.loop t (.window true) (m.fire use t).loop
        unfold Machine.fire
        cases m.debouncer.pending with
        | none => exact .ends _
        | some j => exact .fires j rfl
  | quiet next =>
    cases signal with
    | failed => exact .ends _
    | go => exact worked_awaitQuiet m t
    | cancelled => exact worked_awaitQuiet (m.note _) t
  | pause begun seconds =>
    cases signal with
    | cancelled | failed => cases begun <;> exact .ends _
    | go =>
      cases begun with
      | false => exact .sleeps seconds (by simp [effort])
      | true => exact .ends _
  | own s =>
    cases signal with
    | cancelled | failed => exact .ends _
    | go =>
      cases s with
      | start j => exact worked_begin m t j (by simp [effort])
      | work j => exact worked_complete m t _ j
      | flush => exact absurd rfl proper

theorem Worked.attended (worked : Worked l t p k) (new : l.task? l.fresh = none)
    (attended : l.Attended) : k.Attended := by
  cases worked with
  | ends o => exact attended.finish t o
  | sleeps seconds => exact attended.sleep t seconds _
  | fires j => exact (attended.spawnIn .fired _ new).finish t _
  | joins w => exact attended.join t w p
  | gathers => exact attended.gather t _ p

structure Lulled (l k : Loop (Point Stage Unit)) : Prop where
  labour : labour k = labour l
  sleepers : k.sleepers = l.sleepers
  ready : ∃ more, k.ready = l.ready ++ more ∧ (∀ c ∈ more, leaves c = false) ∧
    ((∀ c ∈ l.ready, leaves c = false) → more = [])

theorem labour_waits (orderly : l.Orderly active named) (stands : l.standing t = some p)
    (fresh : l.fresh ≤ k.fresh)
    (standing : ∀ u, k.standing u = if u = t then (l.standing t).map fun _ => p else l.standing u) :
    labour k = labour l := by
  refine labour_congr orderly fresh fun u => congrArg effort ((standing u).trans ?_)
  split
  · subst u
    rw [stands]
    rfl
  · rfl

theorem lulled_join (orderly : l.Orderly active named) (stands : l.standing t = some p) (w : TaskId) :
    Lulled l (l.join t w p) where
  labour := labour_waits orderly stands (Nat.le_refl _) fun u => Loop.standing_join l t w u p
  sleepers := rfl
  ready := ⟨[], (List.append_nil _).symm, nofun, fun _ => rfl⟩

theorem lulled_gather (orderly : l.Orderly active named) (attended : l.Attended)
    (stands : l.standing t = some p) : Lulled l (l.gather t (l.members .fired) p) where
  labour := labour_waits orderly stands (Loop.fresh_gather l t _ p ▸ Nat.le_succ _)
    fun u => Loop.standing_gather l t u _ p
  sleepers := Loop.sleepers_gather l t _ p
  ready := by
    -- a member that has ended wakes who gathers, but then its leaving is ready before that
    by_cases quiet : ∀ c ∈ l.ready, leaves c = false
    · refine ⟨[], ?_, nofun, fun _ => rfl⟩
      rw [List.append_nil]
      refine Loop.ready_gather l t p fun u hu => ?_
      obtain ⟨q, hq, rfl⟩ := List.mem_map.mp hu
      cases attended q (List.mem_filter.mp hq).1 with
      | ends found open_ =>
        unfold Loop.outcome?
        rw [found]
        exact open_
      | now mem => cases quiet _ mem
    · refine Loop.gather_induction (I := fun k => ∃ more, k.ready = l.ready ++ more ∧
        (∀ c ∈ more, leaves c = false) ∧ ((∀ c ∈ l.ready, leaves c = false) → more = []))
        l t _ p ⟨[], (List.append_nil _).symm, nofun, fun _ => rfl⟩ ?_ fun _ _ => id
      rintro k u o ⟨more, ready, silent, -⟩
      refine ⟨more ++ [.ended u o (.gather l.fresh)], ?_, fun c hc => ?_, fun h => absurd h quiet⟩
      · unfold Loop.push
        rw [ready, List.append_assoc]
      · rcases List.mem_append.mp hc with hc | hc
        · exact silent c hc
        · obtain rfl := List.mem_singleton.mp hc
          rfl

theorem Worked.lessens (worked : Worked l t p k) (orderly : l.Orderly active named)
    (attended : l.Attended) (stands : l.standing t = some p) : labour k < labour l ∨ Lulled l k := by
  have below := orderly.standing_below stands
  have pos : 0 < effort (some p) := by
    match p with
    | .window false | .window true | .quiet _ | .pause false _ | .pause true _ | .own (.start _)
    | .own (.work _) | .own .flush => simp [effort]
  cases worked with
  | ends o =>
    have spent := labour_finish below o
    rw [stands] at spent
    exact .inl (by omega)
  | @sleeps seconds q less =>
    have spent := labour_sleep below stands seconds q
    exact .inl (by omega)
  | fires j elapsed =>
    subst elapsed
    have more := labour_spawnIn orderly (.own (.start j))
    have still : (l.spawnIn .fired (.own (.start j))).1.standing t = some (.window true) :=
      (Loop.standing_spawnIn l .fired _ t orderly.new).trans
        ((if_neg (Nat.ne_of_lt below)).trans stands)
    have spent := labour_finish (l := (l.spawnIn .fired (.own (.start j))).1)
      (Nat.lt_succ_of_lt below) (.returned .null)
    rw [still] at spent
    simp only [effort] at spent more
    exact .inl (by omega)
  | joins w => exact .inr (lulled_join orderly stands w)
  | gathers => exact .inr (lulled_gather orderly attended stands)

end Worked

section Remaining

variable {l k : Loop (Point Stage Unit)} {c : Callback} {cs more rest : List Callback}

theorem remaining_lt_of_labour (less : labour k < labour l) : remaining k < remaining l :=
  Prod.Lex.toLex_lt_toLex.mpr (.inl less)

theorem ahead_cons (c : Callback) (cs : List Callback) :
    ahead (c :: cs) = if leaves c ∨ 0 < ahead cs then ahead cs + 1 else 0 := rfl

theorem ahead_eq_zero_iff : ahead cs = 0 ↔ ∀ c ∈ cs, leaves c = false := by
  induction cs with
  | nil => simp [ahead]
  | cons c cs ih =>
    rw [List.forall_mem_cons, ← ih, ahead_cons]
    split
    · rename_i busy
      refine ⟨nofun, fun ⟨silent, nothing⟩ => ?_⟩
      simp [silent, nothing] at busy
    · rename_i nothing
      simpa [not_or] using nothing

theorem ahead_append (silent : ∀ c ∈ more, leaves c = false) : ahead (cs ++ more) = ahead cs := by
  induction cs with
  | nil => exact ahead_eq_zero_iff.mpr silent
  | cons c cs ih => rw [List.cons_append, ahead_cons, ahead_cons, ih]

theorem remaining_lt_of_taken (ready : l.ready = c :: rest) (after : k.ready = rest ++ more)
    (labour : labour k = labour l) (sleepers : k.sleepers = l.sleepers)
    (silent : ∀ d ∈ more, leaves d = false)
    (lighter : (∀ d ∈ l.ready, leaves d = false) → (more.map load).sum < load c) :
    remaining k < remaining l := by
  unfold remaining
  rw [labour, sleepers, after, ahead_append silent]
  refine Prod.Lex.toLex_lt_toLex.mpr (.inr ⟨rfl, Prod.Lex.toLex_lt_toLex.mpr (.inr ⟨rfl, ?_⟩)⟩)
  refine Prod.Lex.toLex_lt_toLex.mpr ?_
  -- while a member is about to leave, it does not matter how much has become ready behind it
  by_cases quiet : ∀ d ∈ l.ready, leaves d = false
  · refine .inr ⟨?_, ?_⟩
    · rw [ahead_eq_zero_iff.mpr quiet, ahead_eq_zero_iff]
      exact fun d hd => quiet d (ready ▸ List.mem_cons_of_mem c hd)
    · rw [ready, List.map_append, List.sum_append, List.map_cons, List.sum_cons]
      have := lighter quiet
      omega
  · left
    have busy : ahead (c :: rest) ≠ 0 := ready ▸ quiet ∘ ahead_eq_zero_iff.mp
    rw [ahead_cons] at busy
    rw [ready, ahead_cons]
    split at busy
    · rw [if_pos ‹_›]
      exact Nat.lt_succ_self _
    · exact absurd rfl busy

end Remaining

section Pass

variable {delay : Float} {m : Machine} {a : Ledger} {t : TaskId} {p : Point Stage Unit}
  {c : Callback} {rest : List Callback}

theorem attended_takeUp (attended : m.loop.Attended) (ready : m.loop.ready = c :: rest)
    (silent : leaves c = false) : (takeUp rest m).loop.Attended := by
  intro p hp
  cases attended p hp with
  | ends found open_ listens => exact .ends found open_ listens
  | now mem =>
    rcases List.mem_cons.mp (ready ▸ mem) with same | mem
    · subst c
      cases silent
    · exact .now mem

theorem load_pos (c : Callback) : 0 < load c := by
  unfold load
  split <;> decide

theorem Sound.turn_lessens (sound : Sound delay m a) (attended : m.loop.Attended)
    (ready : m.loop.ready = c :: rest) (target : c.target? = some t)
    (stands : m.loop.standing t = some p) :
    (use.host.run c (takeUp rest m)).loop.Attended ∧
      remaining (use.host.run c (takeUp rest m)).loop < remaining m.loop := by
  have silent : leaves c = false := by
    cases c with
    | step => rfl
    | ended u o y =>
      cases y with
      | resume => rfl
      | leave | gather => cases target
  have orderly := sound.agrees.orderly.pop ready
  have attended' := attended_takeUp attended ready silent
  have proper : p ≠ .own .flush := by
    rintro rfl
    exact (sound.agrees.proper t _ stands).resolve_left nofun
  obtain ⟨x, signal, -, -, -, run⟩ := run_of_target rest target stands
  have worked := worked_resume (takeUp rest m) t p (if x.calledOff then .cancelled else signal) proper
  rw [run]
  refine ⟨worked.attended orderly.new attended', ?_⟩
  rcases worked.lessens orderly attended' stands with less | lulled
  · exact remaining_lt_of_labour less
  · obtain ⟨more, after, quiet, nothing⟩ := lulled.ready
    refine remaining_lt_of_taken ready after lulled.labour lulled.sleepers quiet fun still => ?_
    rw [nothing fun d hd => still d (ready ▸ List.mem_cons_of_mem c hd)]
    exact load_pos c

theorem Sound.leave_lessens (sound : Sound delay m a) (attended : m.loop.Attended)
    (ready : m.loop.ready = c :: rest)
    (gone : ∀ t, c.target? = some t → m.loop.standing t = none) :
    (use.host.run c (takeUp rest m)).loop.Attended ∧
      remaining (use.host.run c (takeUp rest m)).loop < remaining m.loop := by
  have orderly := sound.agrees.orderly.pop ready
  have still (silent : leaves c = false)
      (run : use.host.run c (takeUp rest m) = takeUp rest m) :
      (use.host.run c (takeUp rest m)).loop.Attended ∧
        remaining (use.host.run c (takeUp rest m)).loop < remaining m.loop := by
    rw [run]
    exact ⟨attended_takeUp attended ready silent, remaining_lt_of_taken ready
      (List.append_nil rest).symm rfl rfl nofun fun _ => load_pos c⟩
  cases c with
  | step t signal => exact still rfl (use.host.step_of_gone (s := takeUp rest m) (gone t rfl) signal)
  | ended t o y =>
    cases y with
    | resume waiter =>
      exact still rfl (use.host.step_of_gone (s := takeUp rest m) (gone waiter rfl) o.signal)
    | leave g =>
      refine ⟨fun p hp => ?_, remaining_lt_of_taken ready (List.append_nil rest).symm rfl rfl nofun
        fun _ => load_pos _⟩
      obtain ⟨hp, other⟩ := List.mem_filter.mp hp
      cases attended p hp with
      | ends found open_ listens => exact .ends found open_ listens
      | now mem =>
        rcases List.mem_cons.mp (ready ▸ mem) with same | mem
        · cases same
          simp at other
        · exact .now mem
    | gather id =>
      refine ⟨(attended_takeUp attended ready rfl).count id o, ?_⟩
      have standing := Loop.standing_count (takeUp rest m).loop id o
      have counted := Loop.counted_count (takeUp rest m).loop id o
      have labour : labour ((takeUp rest m).loop.count id o) = labour (takeUp rest m).loop :=
        labour_congr orderly (Nat.le_of_eq counted.tasks.2.symm) fun u => congrArg effort (standing u)
      change remaining ((takeUp rest m).loop.count id o) < _
      generalize (takeUp rest m).loop.count id o = k at counted labour
      cases counted with
      | put =>
        exact remaining_lt_of_taken ready (List.append_nil rest).symm labour rfl nofun fun _ =>
          load_pos _
      | wakes mem signal =>
        refine remaining_lt_of_taken ready (show _ = rest ++ [_] from rfl) labour rfl
          (fun d hd => ?_) fun _ => Nat.lt_succ_self 1
        obtain rfl := List.mem_singleton.mp hd
        rfl

/-- As long as anything is to be done, a pass does some of it. -/
theorem Sound.pass_lessens (sound : Sound delay m a) (attended : m.loop.Attended)
    (busy : m.loop.ready ≠ [] ∨ m.loop.sleepers ≠ []) :
    (Job.pass m).loop.Attended ∧ remaining (Job.pass m).loop < remaining m.loop := by
  cases ready : m.loop.ready with
  | nil =>
    obtain ⟨l, moves, fewer⟩ :=
      Loop.advance?_wakes sound.agrees.alarms (busy.resolve_left (absurd ready))
    have same : Job.pass m = { m with loop := l } := by rw [pass_of_nothing ready, moves]; rfl
    rw [same]
    refine ⟨attended.advance? moves, Prod.Lex.toLex_lt_toLex.mpr (.inr ⟨?_, ?_⟩)⟩
    · obtain ⟨time, -, rfl⟩ := Option.map_eq_some_iff.mp moves
      rfl
    · exact Prod.Lex.toLex_lt_toLex.mpr (.inl fewer)
  | cons c rest =>
    rw [pass_of_ready ready]
    by_cases gone : ∀ t, c.target? = some t → m.loop.standing t = none
    · exact sound.leave_lessens attended ready gone
    · obtain ⟨t, target, p, stands⟩ : ∃ t, c.target? = some t ∧ ∃ p, m.loop.standing t = some p := by
        simpa [Option.ne_none_iff_exists'] using gone
      exact sound.turn_lessens attended ready target stands

/-- Left to itself, a debouncer comes to rest. -/
theorem Sound.settles (sound : Sound delay m a) (attended : m.loop.Attended) (nonneg : 0 ≤ delay) :
    ∃ n k b, (List.replicate n Operation.pass).foldl (fun r o => (perform r.1 o, r.2.next r.1 o))
        (m, a) = (k, b) ∧ Sound delay k b ∧ k.loop.ready = [] ∧ k.loop.sleepers = [] := by
  generalize left : remaining m.loop = r
  induction r using WellFoundedLT.induction generalizing m a with
  | ind r ih =>
    by_cases rest : m.loop.ready = [] ∧ m.loop.sleepers = []
    · exact ⟨0, m, a, rfl, sound, rest⟩
    · obtain ⟨attended', less⟩ := sound.pass_lessens attended (not_and_or.mp rest)
      obtain ⟨n, k, b, run, settled⟩ :=
        ih _ (left ▸ less) (sound.pass nonneg).1 attended' rfl
      exact ⟨n + 1, k, b, run, settled⟩

end Pass

end SchemaDiagram.Debounce.Job
