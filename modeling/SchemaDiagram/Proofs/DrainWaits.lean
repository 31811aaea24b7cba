import Mathlib.Data.List.Induction
import SchemaDiagram.Proofs.Duties
import SchemaDiagram.Proofs.SaveStatus
import SchemaDiagram.Proofs.SerialSaves

/-!
What a drain, a flush and a close have waited for when they return. Every task that saves was begun for
a save or a flush, or is in a group until after its end; so when nothing is pending and the groups are
empty, only saves that were asked for directly, and those of flushes, may still be under way.
-/

set_option autoImplicit false

namespace SchemaDiagram.Sync.Coordinator

def errand (m : Coordinator) (o : Operation) : List (TaskId × Errand) :=
  o.errand?.toList.map fun e => (m.loop.fresh, e)

def errands : List Operation → Coordinator → List (TaskId × Errand)
  | [], _ => []
  | o :: rest, m => errand m o ++ errands rest (perform m o)

theorem mem_errand {m : Coordinator} {o : Operation} {t : TaskId} {e : Errand} :
    (t, e) ∈ errand m o ↔ o.errand? = some e ∧ t = m.loop.fresh := by
  simp [errand, eq_comm]

theorem errands_append (operations : List Operation) (o : Operation) (m : Coordinator) :
    errands (operations ++ [o]) m = errands operations m ++ errand (performAll operations m) o := by
  induction operations generalizing m with
  | nil => simp [errands, performAll]
  | cons p rest ih =>
    rw [List.cons_append, errands, ih, errands, List.append_assoc]
    rfl

/-- How a task has come to stand where it does after an operation. -/
inductive Arrives (m : Coordinator) (o : Operation) (k : Coordinator) (t : TaskId)
    (p : Debounce.Point Point Wait) : Prop where
  | stays (stood : m.loop.standing t = some p)
  | goesOn {q : Debounce.Point Point Wait} {n : Coordinator} (resumes : Resumes m o t q n)
  | spawned {e : Errand} (spawns : o = .spawn e) (new : t = m.loop.fresh) (point : p = e.point)
  | enlisted (new : m.loop.fresh ≤ t) (unasked : ∀ e, (t, e) ∉ errand m o)
      (enlisted : Enlisted k.loop t p)

section Arrivals

variable {m k n : Coordinator} {o : Operation} {t u : TaskId} {p q : Debounce.Point Point Wait}

theorem Enrols.arrives (enrols : Enrols u m.loop k.loop) (other : t ≠ u)
    (unasked : ∀ e, (t, e) ∉ errand m o) (stands : k.loop.standing t = some p) :
    Arrives m o k t p := by
  rcases enrols.others t other with same | ⟨new, q, hq, enlisted⟩
  · exact .stays (same.symm.trans stands)
  · obtain rfl := Option.some.inj (hq.symm.trans stands)
    exact .enlisted new unasked enlisted

theorem Proceeds.arrives (h : Proceeds m o k) (sound : Sound .idle m)
    (stands : k.loop.standing t = some p) : Arrives m o k t p := by
  cases h with
  | rests unasked enrols =>
    refine (enrols (t + 1)).arrives (Nat.ne_of_lt (Nat.lt_succ_self t)) (fun e mem => ?_) stands
    cases unasked.symm.trans (mem_errand.mp mem).1
  | spawns e =>
    have standing := Loop.standing_spawn m.loop e.point t sound.orderly.new
    by_cases new : t = m.loop.fresh
    · exact .spawned rfl new (Option.some.inj (stands.symm.trans (standing.trans (if_pos new))))
    · exact .stays ((standing.trans (if_neg new)).symm.trans stands)
  | @goesOn _ u q n resumes =>
    by_cases own : t = u
    · exact .goesOn (own ▸ resumes)
    · refine (resumes.enrols sound).arrives own (fun e mem => ?_) stands
      obtain ⟨asked, new⟩ := mem_errand.mp mem
      cases resumes with
      | enter => exact own new
      | turn => cases asked
  | leaves => exact .stays stands

theorem Proceeds.recalls (h : Proceeds m o k) (sound : Sound .idle m) :
    m.loop.Recalls k.loop := by
  cases h with
  | rests _ enrols => exact (enrols 0).recalls
  | spawns e => exact (Loop.touches_spawn m.loop e.point sound.orderly.new).recalls
  | goesOn resumes => exact (resumes.enrols sound).recalls
  | leaves => exact .of_tasks rfl

theorem Proceeds.posted (h : Proceeds m o k) (sound : Sound .idle m) (posted : Posted m.loop) :
    Posted k.loop := by
  refine posted.recall (h.recalls sound) fun u v g mem => ?_
  cases h with
  | rests _ enrols => exact (enrols 0).leaves u v g mem
  | spawns e => exact (Loop.touches_spawn m.loop e.point sound.orderly.new).leaves u v g mem
  | goesOn resumes => exact (resumes.enrols sound).leaves u v g mem
  | leaves ready => exact .inl (ready ▸ List.mem_cons_of_mem _ mem)

theorem Proceeds.groups (h : Proceeds m o k) (sound : Sound .idle m) (posted : Posted m.loop)
    {g : TaskGroup} (mem : (g, t) ∈ m.loop.groups) (stands : k.loop.standing t = some p) :
    (g, t) ∈ k.loop.groups := by
  cases h with
  | rests _ enrols => exact (enrols 0).groups mem
  | spawns e => exact mem
  | goesOn resumes => exact (resumes.enrols sound).groups mem
  | @leaves u v g' rest ready =>
    refine List.mem_filter.mpr ⟨mem, decide_eq_true fun same => ?_⟩
    cases same
    have ended := posted t v g (ready ▸ List.mem_cons_self)
    have runs : m.loop.outcome? t = none := Loop.outcome?_of_stands stands
    simp [runs] at ended

theorem Proceeds.firing (h : Proceeds m o k) (sound : Sound .idle m)
    (idle : m.debouncer.pending = none) (none : m.loop.members .fired = []) :
    k.loop.members .fired = [] := by
  cases h with
  | rests _ _ fired => exact fired.trans none
  | spawns e => exact none
  | goesOn resumes =>
    have fired := (resumes.turned sound).fired (resumes.debouncer ▸ idle)
    cases resumes <;> exact fired.trans none
  | @leaves u v g rest ready =>
    refine List.eq_nil_iff_forall_not_mem.mpr fun t mem => ?_
    have before : t ∈ m.loop.members .fired :=
      Loop.mem_members.mpr (List.mem_filter.mp (Loop.mem_members.mp mem)).1
    rw [none] at before
    cases before

theorem Proceeds.ended (h : Proceeds m o k) (sound : Sound .idle m) {v : Outcome}
    (stands : m.loop.standing t = some p) (ended : k.loop.outcome? t = some v) :
    ∃ n, Resumes m o t p n := by
  have below := sound.orderly.standing_below stands
  have gone := Loop.standing_of_ended ended
  have lasting {u : TaskId} (enrols : Enrols u m.loop k.loop) (other : t ≠ u) : False := by
    rcases enrols.others t other with same | ⟨new, -⟩
    · cases gone.symm.trans (same.trans stands)
    · exact absurd below (Nat.not_lt.mpr new)
  cases h with
  | rests _ enrols => exact (lasting (enrols (t + 1)) (Nat.ne_of_lt (Nat.lt_succ_self t))).elim
  | spawns e =>
    have standing := Loop.standing_spawn m.loop e.point t sound.orderly.new
    cases gone.symm.trans ((standing.trans (if_neg (Nat.ne_of_lt below))).trans stands)
  | @goesOn _ u q n resumes =>
    by_cases own : t = u
    · subst own
      cases resumes with
      | enter e => exact absurd below (Nat.lt_irrefl _)
      | turn ready target stood =>
        obtain rfl := Option.some.inj (stood.symm.trans stands)
        exact ⟨_, .turn ready target stood⟩
    · exact (lasting (resumes.enrols sound) own).elim
  | leaves => cases gone.symm.trans stands

end Arrivals

/-- Of each task that stands anywhere it is known what it was begun for, or it is in a group, or it has
    nothing to save. -/
structure Accounted (begun : List (TaskId × Errand)) (m : Coordinator) : Prop where
  posted : Posted m.loop
  made : ∀ t e, (t, e) ∈ begun → ∃ x, m.loop.task? t = some x
  duty : ∀ t e p, (t, e) ∈ begun → m.loop.standing t = some p →
    (dutyOf e.point).Becomes (dutyOf p)
  saves : ∀ t p, m.loop.standing t = some p → (dutyOf p).saves = true →
    (∃ e, (t, e) ∈ begun) ∨ ∃ g, (g, t) ∈ m.loop.groups

section Accounted

variable {begun : List (TaskId × Errand)} {m k n : Coordinator} {o : Operation} {t : TaskId}
  {e : Errand} {p q : Debounce.Point Point Wait}

theorem Accounted.resumed (h : Accounted begun m) (sound : Sound .idle m)
    (mem : (t, e) ∈ begun ++ errand m o) (resumes : Resumes m o t p n) :
    (dutyOf e.point).Becomes (dutyOf p) := by
  rcases List.mem_append.mp mem with old | new
  · obtain ⟨x, found⟩ := h.made t e old
    cases resumes with
    | enter => cases sound.orderly.new.symm.trans found
    | turn ready target stands => exact h.duty t e p old stands
  · obtain ⟨own, rfl⟩ := mem_errand.mp new
    cases resumes with
    | enter e' =>
      cases own
      exact .same _
    | turn => cases own

theorem Proceeds.made (h : Proceeds m o k) (sound : Sound .idle m) (own : o.errand? = some e) :
    ∃ x, k.loop.task? m.loop.fresh = some x := by
  have entered (p : Debounce.Point Point Wait) :
      (m.loop.enter p).1.task? m.loop.fresh = some { id := m.loop.fresh, point := p } := by
    rw [Loop.task?_enter, sound.orderly.new, if_pos rfl]
    rfl
  cases h with
  | rests unasked => cases unasked.symm.trans own
  | spawns e => exact ⟨_, entered e.point⟩
  | goesOn resumes =>
    cases resumes with
    | enter e =>
      obtain ⟨x, found, -⟩ := ((Resumes.enter e).turned sound).enrols.recalls _ _ (entered e.point)
      exact ⟨x, found⟩
    | turn => cases own
  | leaves => cases own

theorem Accounted.ended (h : Accounted begun m) (sound : Sound .idle m)
    (mem : (t, e) ∈ begun ++ errand m o) (open_ : m.loop.outcome? t = none) {v : Outcome}
    (ended : (perform m o).loop.outcome? t = some v) : ∃ p n, Resumes m o t p n := by
  rcases List.mem_append.mp mem with old | new
  · obtain ⟨x, found⟩ := h.made t e old
    exact ⟨_, (proceeds sound o).ended sound (Loop.standing_of_open found open_) ended⟩
  · obtain ⟨own, rfl⟩ := mem_errand.mp new
    cases o with
    | enter e => exact ⟨_, _, .enter e⟩
    | spawn e =>
      have stands := Loop.standing_spawn m.loop e.point m.loop.fresh sound.orderly.new
      cases (Loop.standing_of_ended ended).symm.trans (stands.trans (if_pos rfl))
    | start | parse _ | deliver _ | setConnected _ | edit _ | moveTable _ _ | postpone _ | turn
    | advance => cases own

theorem Accounted.becomes (h : Accounted begun m) (sound : Sound .idle m)
    (stands : (perform m o).loop.standing t = some p)
    (mem : (t, e) ∈ begun ++ errand m o) : (dutyOf e.point).Becomes (dutyOf p) := by
  have old (mem : (t, e) ∈ begun) : t < m.loop.fresh := by
    obtain ⟨x, found⟩ := h.made t e mem
    exact sound.orderly.task?_below found
  cases (proceeds sound o).arrives sound stands with
  | stays stood =>
    rcases List.mem_append.mp mem with mem | mem
    · exact h.duty t e p mem stood
    · obtain ⟨-, rfl⟩ := mem_errand.mp mem
      exact absurd (sound.orderly.standing_below stood) (Nat.lt_irrefl _)
  | goesOn resumes =>
    exact (h.resumed sound mem resumes).trans ((resumes.turned sound).stops.stands p stands)
  | spawned spawns new point =>
    subst spawns point
    rcases List.mem_append.mp mem with mem | mem
    · exact absurd (old mem) (new ▸ Nat.lt_irrefl _)
    · cases (mem_errand.mp mem).1
      exact .same _
  | enlisted new unasked =>
    rcases List.mem_append.mp mem with mem | mem
    · exact absurd (old mem) (Nat.not_lt.mpr new)
    · exact absurd mem (unasked e)

theorem Accounted.kept (h : Accounted begun m) (sound : Sound .idle m)
    (stands : (perform m o).loop.standing t = some p) (saves : (dutyOf p).saves = true) :
    (∃ e, (t, e) ∈ begun ++ errand m o) ∨ ∃ g, (g, t) ∈ (perform m o).loop.groups := by
  have happens := proceeds sound o
  have lasts {q : Debounce.Point Point Wait} (stood : m.loop.standing t = some q)
      (saved : (dutyOf q).saves = true) :
      (∃ e, (t, e) ∈ begun ++ errand m o) ∨ ∃ g, (g, t) ∈ (perform m o).loop.groups :=
    (h.saves t q stood saved).imp (fun ⟨e, mem⟩ => ⟨e, List.mem_append_left _ mem⟩)
      fun ⟨g, mem⟩ => ⟨g, happens.groups sound h.posted mem stands⟩
  cases happens.arrives sound stands with
  | stays stood => exact lasts stood saves
  | goesOn resumes =>
    have saved := ((resumes.turned sound).stops.stands p stands).saves saves
    cases resumes with
    | enter e => exact .inl ⟨e, List.mem_append_right _ (mem_errand.mpr ⟨rfl, rfl⟩)⟩
    | turn _ _ stood => exact lasts stood saved
  | @spawned e spawns new =>
    exact .inl ⟨e, List.mem_append_right _ (mem_errand.mpr ⟨spawns ▸ rfl, new⟩)⟩
  | enlisted _ _ enlisted =>
    cases enlisted with
    | window => cases saves
    | save member => exact .inr ⟨_, member⟩

theorem Accounted.perform (h : Accounted begun m) (sound : Sound .idle m) (o : Operation) :
    Accounted (begun ++ errand m o) (perform m o) where
  posted := (proceeds sound o).posted sound h.posted
  made t e mem := by
    rcases List.mem_append.mp mem with mem | mem
    · obtain ⟨x, found⟩ := h.made t e mem
      obtain ⟨y, found, -⟩ := (proceeds sound o).recalls sound t x found
      exact ⟨y, found⟩
    · obtain ⟨own, rfl⟩ := mem_errand.mp mem
      exact (proceeds sound o).made sound own
  duty _ _ _ mem stands := h.becomes sound stands mem
  saves _ _ stands saves := h.kept sound stands saves

theorem accounted_fresh (settings : Settings) (delay : Float) (session : Session)
    (channel : Channel Inbound Unit) (notifier : Notifier Unit) (backend : Backend) :
    Accounted [] (fresh settings delay session channel notifier backend) where
  posted _ _ _ mem := nomatch mem
  made _ _ mem := nomatch mem
  duty _ _ _ mem := nomatch mem
  saves _ p stands := absurd stands.symm (Option.some_ne_none p)

theorem accounted (settings : Settings) (delay : Float) (session : Session)
    (channel : Channel Inbound Unit) (notifier : Notifier Unit) (backend : Backend)
    (operations : List Operation) :
    let m₀ := fresh settings delay session channel notifier backend
    Accounted (errands operations m₀) (performAll operations m₀) := by
  intro m₀
  induction operations using List.reverseRecOn with
  | nil => exact accounted_fresh ..
  | append_singleton passed o ih =>
    rw [errands_append, performAll_append]
    exact ih.perform ((sound_fresh ..).performAll passed) o

end Accounted

section Paired

variable {asks : Overrides → Prop} {m k n : Coordinator} {o : Operation} {t : TaskId}
  {p : Debounce.Point Point Wait}

def Paired (m : Coordinator) : Prop := m.debouncer.pending = none → m.debouncer.window = none

theorem Paired.talk (h : Paired m) (talk : Talk asks m k) : Paired k := by
  induction talk with
  | told told =>
    unfold Paired
    rw [told.debouncer]
    exact h
  | schedule => exact nofun
  | spawn => exact h
  | trans _ _ ih ih' => exact ih' (ih h)

theorem paired_kept : Kept (fun _ => True) fun _ m => Paired m where
  talk _ _ talk h := h.talk talk
  spawn _ _ h := h
  enter _ _ h := h
  advance _ h := h
  move {φ m ψ k} sound move h := by
    cases move with
    | flush | cancel | load | fire => exact fun _ => rfl
    | hear t call =>
      unfold Paired
      rw [(hearing_same call m).2.1]
      exact h
    | release t =>
      unfold release
      simp only
      split <;> exact h
    | unsubscribe t =>
      unfold unsubscribe
      split <;> exact h
    | fill t id reply =>
      obtain ⟨n, -, same, -, talk⟩ := fill_talk id _ m
      exact Paired.talk (fun idle => same ▸ h (same ▸ idle)) talk
    | skip | leaveGroup | count | resume | dequeue | reply | note | notify | free | save | request
    | loading | finish | sleep | join | gather | take | lineUp | drop | call | await | awaitLoad
    | refuse => exact h

theorem Paired.pending (h : Paired m) (idle : m.debouncer.pending = none) : m.pending = false := by
  unfold Debounce.Machine.pending Debounce.Machine.window?
  rw [h idle]
  rfl

/-- Whether a task that closes has found quiet and waits for the saves of edits. -/
def lingers (m : Coordinator) (t : TaskId) : Bool :=
  match m.loop.standing t with
  | some (.own (.spawned .close)) => true
  | _ => false

/-- While a task that closes waits for the saves of edits, no payload is left to wait. -/
def LeftAlone (t : TaskId) (m : Coordinator) (_ : Operation) : Prop :=
  lingers m t = true → m.debouncer.pending = none

instance (t : TaskId) (m : Coordinator) (o : Operation) : Decidable (LeftAlone t m o) :=
  inferInstanceAs (Decidable (_ → _))

def Cleared (t : TaskId) (m : Coordinator) : Prop :=
  m.loop.standing t = some (.own (.spawned .close)) → m.loop.members .fired = []

theorem LeftAlone.idle (h : LeftAlone t m o)
    (stands : m.loop.standing t = some (.own (.spawned .close))) : m.debouncer.pending = none := by
  refine h ?_
  unfold lingers
  rw [stands]

theorem Resumes.calm (h : Resumes m o t p n) (paired : Paired m) (alone : LeftAlone t m o)
    (cleared : Cleared t m) : Calm n p := by
  intro lingers
  cases h with
  | enter e => cases e <;> cases lingers
  | turn _ _ stands =>
    subst lingers
    exact ⟨paired.pending (alone.idle stands), cleared stands⟩

theorem Cleared.perform (cleared : Cleared t m) (sound : Sound .idle m) (paired : Paired m)
    (alone : LeftAlone t m o) : Cleared t (perform m o) := by
  intro stands
  have happens := proceeds sound o
  cases happens.arrives sound stands with
  | stays stood => exact happens.firing sound (alone.idle stood) (cleared stood)
  | goesOn resumes =>
    exact (resumes.turned sound).stops.cleared stands (resumes.calm paired alone cleared)
  | @spawned e _ _ point => cases e <;> cases point
  | enlisted _ _ enlisted => cases enlisted

theorem cleared_performAll {operations : List Operation} (sound : Sound .idle m) (paired : Paired m)
    (cleared : Cleared t m) (alone : Throughout (LeftAlone t) m operations) :
    Cleared t (performAll operations m) := by
  induction operations using List.reverseRecOn with
  | nil => exact cleared
  | append_singleton passed o ih =>
    rw [performAll_append]
    exact (ih (alone.earlier (List.prefix_append _ _))).perform (sound.performAll passed)
      (paired_kept.performAll (fun _ _ => trivial) sound paired) alone.last

end Paired

/-- Nothing is pending and no group has members. Whoever has a save to make, or under way, was begun
    for a save or a flush. -/
structure Finished (begun : List (TaskId × Errand)) (m : Coordinator) : Prop extends Drained m where
  asked : ∀ t p, m.loop.standing t = some p → (dutyOf p).saves = true →
    (∃ members, (t, .save members) ∈ begun) ∨ (t, .flush) ∈ begun

theorem Accounted.finished {begun : List (TaskId × Errand)} {m : Coordinator}
    (h : Accounted begun m) (drained : Drained m) : Finished begun m := by
  refine ⟨drained, fun t p stands saves => ?_⟩
  rcases h.saves t p stands saves with ⟨e, mem⟩ | ⟨g, mem⟩
  · have own : (dutyOf e.point).saves = true := (h.duty t e p mem stands).saves saves
    cases e with
    | save members => exact .inl ⟨members, mem⟩
    | flush => exact .inr mem
    | drain | close | load _ | pause _ => cases own
  · have member : t ∈ m.loop.members g := Loop.mem_members.mpr mem
    have nobody : m.loop.members g = [] := by
      cases g with
      | fired => exact drained.fired
      | spawned => exact drained.spawned
    rw [nobody] at member
    cases member

/-- At the moment at which a drain or a flush returns, in any run, no payload waits and no save goes on,
    is queued or is to begin that an edit or the end of a window has started. A save that was asked for
    directly, or that another flush makes, may go on, since no group has it. A close has waited for the
    saves of edits; it leaves as little behind if no payload was postponed while it waited for them. -/
theorem waits_finish (settings : Settings) (delay : Float) (session : Session)
    (channel : Channel Inbound Unit) (notifier : Notifier Unit) (backend : Backend)
    (operations : List Operation) (o : Operation) :
    let m₀ := fresh settings delay session channel notifier backend
    let m := performAll operations m₀
    let k := perform m o
    let begun := errands (operations ++ [o]) m₀
    ∀ t e v, (t, e) ∈ begun → m.loop.outcome? t = none → k.loop.outcome? t = some (.returned v) →
      (e = .drain ∨ e = .flush → Finished begun k) ∧
      (e = .close → k.loop.members .spawned = [] ∧
        (Throughout (LeftAlone t) m₀ (operations ++ [o]) → Finished begun k)) := by
  intro m₀ m k begun t e v mem open_ ended
  have sound₀ : Sound .idle m₀ := sound_fresh ..
  have sound : Sound .idle m := sound₀.performAll operations
  have known : Accounted (errands operations m₀) m := accounted ..
  have more : begun = errands operations m₀ ++ errand m o := errands_append operations o m₀
  have account : Accounted begun k := by
    rw [more]
    exact known.perform sound o
  rw [more] at mem
  obtain ⟨p, n, resumes⟩ := known.ended sound mem open_ ended
  have becomes := known.resumed sound mem resumes
  have found (waits : (dutyOf e.point).waits = true) :=
    (resumes.turned sound).stops.found v ended (becomes.waits waits)
  refine ⟨fun drains => ?_, fun closes => ?_⟩
  · have waits : (dutyOf e.point).waits = true := by rcases drains with rfl | rfl <;> rfl
    have calm : Calm n p := by
      rintro rfl
      rcases drains with rfl | rfl <;> cases becomes
    exact account.finished ((found waits).2 calm)
  · subst closes
    obtain ⟨spawned, drained⟩ := found rfl
    refine ⟨spawned, fun alone => account.finished (drained (resumes.calm ?_ alone.last ?_))⟩
    · exact paired_kept.performAll (fun _ _ => trivial) sound₀ fun _ => rfl
    · refine cleared_performAll sound₀ (fun _ => rfl) (fun stands => ?_)
        (alone.earlier (List.prefix_append _ _))
      exact absurd stands.symm (Option.some_ne_none _)

def editThenSave (e : Errand) : List Operation :=
  [.edit (.addTable .null), .turn, .enter (.save []), .enter e, .advance, .turn, .turn, .turn, .turn]

/-- Both waits return when the save of the edit has ended; the one that was asked for goes on. -/
theorem waits_finish_after_edit :
    let m₀ := fresh {} 1.0 {} {} { capacity := 50 }
      { saves := [{ delay := some 1.0 }, { delay := some 5.0 }] }
    let drained := perform (performAll (editThenSave .drain) m₀) .turn
    let closed := perform (performAll (editThenSave .close) m₀) .turn
    drained.loop.outcome? 2 = some (.returned .null) ∧
      Finished [(1, .save []), (2, .drain)] drained ∧
      closed.loop.outcome? 2 = some (.returned .null) ∧
      Finished [(1, .save []), (2, .close)] closed := by
  have finish (e : Errand) := waits_finish {} 1.0 {} {} { capacity := 50 }
    { saves := [{ delay := some 1.0 }, { delay := some 5.0 }] } (editThenSave e) .turn
  intro m₀ drained closed
  have drain := finish .drain
  have close := finish .close
  dsimp only at drain close
  have begun (e : Errand) (which : e = .drain ∨ e = .close) :
      errands (editThenSave e ++ [.turn]) m₀ = [(1, .save []), (2, e)] := by
    rcases which with rfl | rfl <;> decide +kernel
  have open_ : (performAll (editThenSave .drain) m₀).loop.outcome? 2 = none ∧
      (performAll (editThenSave .close) m₀).loop.outcome? 2 = none := by decide +kernel
  have ended : drained.loop.outcome? 2 = some (.returned .null) ∧
      closed.loop.outcome? 2 = some (.returned .null) := by decide +kernel
  have alone : Throughout (LeftAlone 2) m₀ (editThenSave .close ++ [.turn]) := by decide +kernel
  rw [begun .drain (.inl rfl)] at drain
  rw [begun .close (.inr rfl)] at close
  refine ⟨ended.1, (drain 2 .drain .null (by simp) open_.1 ended.1).1 (.inl rfl), ended.2, ?_⟩
  exact ((close 2 .close .null (by simp) open_.2 ended.2).2 rfl).2 alone

/-- A drain returns while a save is under way that was asked for directly, and so does a close. -/
theorem waits_miss_direct_save :
    let m := perform (fresh {} 1.0 {} {} { capacity := 50 } slowSave) (.enter (.save []))
    let drained := perform m (.enter .drain)
    let closed := perform m (.enter .close)
    drained.loop.outcome? 1 = some (.returned .null) ∧ InSave drained.loop 0 ∧
      calls drained.world.trace = 1 ∧ answers drained.world.trace = 0 ∧
      closed.loop.outcome? 1 = some (.returned .null) ∧ InSave closed.loop 0 ∧
      calls closed.world.trace = 1 ∧ answers closed.world.trace = 0 := by
  intro m drained closed
  have waits : saves drained.loop 0 = true ∧ saves closed.loop 0 = true := by decide +kernel
  exact ⟨by decide +kernel, saves_iff.mp waits.1, by decide +kernel, by decide +kernel,
    by decide +kernel, saves_iff.mp waits.2, by decide +kernel, by decide +kernel⟩

end SchemaDiagram.Sync.Coordinator
