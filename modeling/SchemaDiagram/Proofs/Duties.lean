import SchemaDiagram.Proofs.Frames
import SchemaDiagram.Proofs.SaveTurns

/-!
What tasks have to do until their end, and who is kept in the groups of running tasks. A task that saves
ends with its save, unless it is a flush, which then waits as a drain does. A turn makes no other tasks
than those that time a window and those that save and are in a group, and lets nobody out of a group.
-/

set_option autoImplicit false

namespace SchemaDiagram

namespace Loop

variable {P : Type} {l k : Loop P}

theorem members_congr (groups : k.groups = l.groups) (g : TaskGroup) : k.members g = l.members g := by
  unfold members
  rw [groups]

theorem mem_members {g : TaskGroup} {t : TaskId} : t ∈ l.members g ↔ (g, t) ∈ l.groups := by
  simp [members]

theorem Orderly.task?_below {active : P → Bool} {named : Option TaskId}
    (h : l.Orderly active named) {t : TaskId} {x : Task P} (found : l.task? t = some x) :
    t < l.fresh := by
  have same : x.id = t := by simpa using List.find?_some found
  exact same ▸ h.below x (List.mem_of_find?_eq_some found)

theorem standing_of_open {t : TaskId} {x : Task P} (found : l.task? t = some x)
    (open_ : l.outcome? t = none) : l.standing t = some x.point := by
  have none : x.outcome = none := by
    rw [← open_, outcome?, found]
    rfl
  simp [standing, found, none]

theorem members_spawnIn (l : Loop P) (g g' : TaskGroup) (p : P) :
    (l.spawnIn g p).1.members g' = l.members g' ++ if g = g' then [l.fresh] else [] := by
  have groups : (l.spawnIn g p).1.groups = l.groups ++ [(g, l.fresh)] := rfl
  unfold members
  rw [groups, List.filter_append, List.map_append]
  by_cases same : g = g' <;> simp [same]

theorem groups_sleep (l : Loop P) (t : TaskId) (seconds : Float) (p : P) :
    (l.sleep t seconds p).groups = l.groups := by
  unfold sleep
  simp only
  split <;> rfl

theorem groups_count (l : Loop P) (id : Nat) (o : Outcome) : (l.count id o).groups = l.groups := by
  have counted := counted_count l id o
  generalize l.count id o = k at counted ⊢
  cases counted <;> rfl

theorem groups_gather (l : Loop P) (t : TaskId) (targets : List TaskId) (p : P) :
    (l.gather t targets p).groups = l.groups :=
  gather_induction (I := fun k => k.groups = l.groups) l t targets p rfl (fun _ _ _ => id)
    fun _ _ => id

end Loop

namespace Sync

def Operation.errand? : Operation → Option Errand
  | spawn e | enter e => some e
  | _ => none

namespace Coordinator

/-- What a task has to do about saves until its end. -/
inductive Duty where
  | none
  | save
  /-- A save, and then a wait for every save. -/
  | flush
  | wait (wait : Wait)
  deriving DecidableEq

namespace Duty

inductive Becomes : Duty → Duty → Prop where
  | same (d : Duty) : Becomes d d
  | saved : Becomes .flush (.wait .drain)

def saves : Duty → Bool
  | save | flush => true
  | none | wait _ => false

def waits : Duty → Bool
  | flush | wait _ => true
  | none | save => false

section Becomes

variable {d d' d'' : Duty}

theorem Becomes.trans (h : d.Becomes d') (h' : d'.Becomes d'') : d.Becomes d'' := by
  cases h with
  | same => exact h'
  | saved =>
    cases h'
    exact .saved

theorem Becomes.saves (h : d.Becomes d') (saves : d'.saves = true) : d.saves = true := by
  cases h with
  | same => exact saves
  | saved => cases saves

theorem Becomes.waits (h : d.Becomes d') (waits : d.waits = true) : d'.waits = true := by
  cases h with
  | same => exact waits
  | saved => rfl

end Becomes

end Duty

def dutyAfter : AfterSave → Duty
  | .answer => .save
  | .drain => .flush

def dutyOf : Debounce.Point Point Wait → Duty
  | .own (.request _) => .save
  | .own (.save _ after) | .own (.queued _ _ after) | .own (.sending _ after) => dutyAfter after
  | .own .flush => .flush
  | .own .drain => .wait .drain
  | .own .close => .wait .close
  | .own (.spawned wait) | .quiet wait => .wait wait
  | .own (.load _) | .own (.loading _ _) | .window _ | .pause _ _ => .none

inductive Enlisted (l : TaskLoop) (t : TaskId) : Debounce.Point Point Wait → Prop where
  | window : Enlisted l t (.window false)
  | save {g : TaskGroup} {o : Overrides} (member : (g, t) ∈ l.groups) :
      Enlisted l t (.own (.save o .answer))

/-- Whoever is about to leave a group has ended. -/
def Posted (l : TaskLoop) : Prop :=
  ∀ t o g, .ended t o (.leave g) ∈ l.ready → (l.outcome? t).isSome = true

structure Enrols (t : TaskId) (l k : TaskLoop) : Prop where
  fresh : l.fresh ≤ k.fresh
  groups : l.groups ⊆ k.groups
  recalls : l.Recalls k
  leaves : ∀ u o g, .ended u o (.leave g) ∈ k.ready →
    .ended u o (.leave g) ∈ l.ready ∨ (k.outcome? u).isSome = true
  others : ∀ u, u ≠ t → k.standing u = l.standing u ∨
    l.fresh ≤ u ∧ ∃ p, k.standing u = some p ∧ Enlisted k u p

section Enrols

variable {asks : Overrides → Prop} {φ : Phase} {t u : TaskId} {l k n : TaskLoop}
  {p : Debounce.Point Point Wait}

theorem Enlisted.mono (h : Enlisted l t p) (groups : l.groups ⊆ k.groups) : Enlisted k t p := by
  cases h with
  | window => exact .window
  | save member => exact .save (groups member)

theorem Posted.recall (posted : Posted l) (recalls : l.Recalls k)
    (leaves : ∀ u o g, .ended u o (.leave g) ∈ k.ready →
      .ended u o (.leave g) ∈ l.ready ∨ (k.outcome? u).isSome = true) : Posted k := by
  intro u o g mem
  rcases leaves u o g mem with before | ended
  · obtain ⟨v, ended⟩ := Option.isSome_iff_exists.mp (posted u o g before)
    rw [recalls.outcome? ended]
    rfl
  · exact ended

namespace Enrols

theorem of_touches {who : TaskId → Prop} (h : l.Touches k who)
    (others : ∀ u, u ≠ t → k.standing u = l.standing u) : Enrols t l k :=
  ⟨h.fresh, h.groups, h.recalls, h.leaves, fun u hu => .inl (others u hu)⟩

theorem refl (t : TaskId) (l : TaskLoop) : Enrols t l l :=
  of_touches (.refl l (· = t)) fun _ _ => rfl

theorem own (h : l.Touches k (· = t)) : Enrols t l k := of_touches h h.standing

theorem trans (h : Enrols t l k) (h' : Enrols t k n) : Enrols t l n where
  fresh := Nat.le_trans h.fresh h'.fresh
  groups _ mem := h'.groups (h.groups mem)
  recalls := h.recalls.trans h'.recalls
  leaves u o g mem := by
    rcases h'.leaves u o g mem with before | ended
    · refine (h.leaves u o g before).imp id fun ended => ?_
      obtain ⟨v, ended⟩ := Option.isSome_iff_exists.mp ended
      rw [h'.recalls.outcome? ended]
      rfl
    · exact .inr ended
  others u hu := by
    rcases h'.others u hu with same | ⟨new, enlisted⟩
    · refine (h.others u hu).imp same.trans fun ⟨new, p, stands, enlisted⟩ => ?_
      exact ⟨new, p, same.trans stands, enlisted.mono h'.groups⟩
    · exact .inr ⟨Nat.le_trans h.fresh new, enlisted⟩

theorem spawned {who : TaskId → Prop} (h : l.Touches k who)
    (standing : ∀ u, k.standing u = if u = l.fresh then some p else l.standing u)
    (enlisted : Enlisted k l.fresh p) (t : TaskId) : Enrols t l k := by
  refine ⟨h.fresh, h.groups, h.recalls, h.leaves, fun u _ => ?_⟩
  by_cases hu : u = l.fresh
  · exact .inr ⟨Nat.le_of_eq hu.symm, p, (standing u).trans (if_pos hu), hu ▸ enlisted⟩
  · exact .inl ((standing u).trans (if_neg hu))

end Enrols

theorem cancel_enrols (t : TaskId) (m : Coordinator) : Enrols t m.loop m.cancel.loop := by
  have touched : m.loop.Touches m.cancel.loop fun _ => True := by
    unfold Debounce.Machine.cancel
    cases m.debouncer.window with
    | none => exact .refl _ _
    | some w => exact (Loop.touches_cancel _ _).mono fun _ _ => trivial
  exact .of_touches touched fun u _ => standing_cancel m u

theorem spawnIn_enrols {m : Coordinator} (sound : Sound φ m) (g : TaskGroup) (o : Overrides)
    (t : TaskId) : Enrols t m.loop (m.loop.spawnIn g (.own (.save o .answer))).1 :=
  .spawned (Loop.touches_spawnIn _ g _ sound.orderly.new)
    (fun u => Loop.standing_spawnIn _ g _ u sound.orderly.new)
    (.save (List.mem_append_right _ (List.mem_singleton.mpr rfl))) t

theorem Talk.enrols {m k : Coordinator} (h : Talk asks m k) (sound : Sound φ m) (t : TaskId) :
    Enrols t m.loop k.loop := by
  induction h with
  | told h =>
    rw [h.loop]
    exact .refl t _
  | @schedule m o _ =>
    have new := sound.cancel.orderly.new
    exact (cancel_enrols t m).trans (.spawned (Loop.touches_spawn m.cancel.loop (.window false) new)
      (fun u => Loop.standing_spawn m.cancel.loop (.window false) u new) .window t)
  | spawn m _ => exact spawnIn_enrols sound .spawned _ t
  | trans h _ ih ih' => exact (ih sound).trans (ih' (sound.talk h))

theorem cancel_groups (m : Coordinator) : m.cancel.loop.groups = m.loop.groups := by
  unfold Debounce.Machine.cancel
  cases m.debouncer.window with
  | none => rfl
  | some w =>
    simp only [Loop.cancel]
    split
    · rfl
    · split <;> rfl

theorem Talk.firing {m k : Coordinator} (h : Talk asks m k) :
    k.loop.members .fired = m.loop.members .fired := by
  induction h with
  | told h => rw [h.loop]
  | schedule m _ => exact Loop.members_congr (cancel_groups m) _
  | spawn m _ => exact (Loop.members_spawnIn m.loop .spawned .fired _).trans (List.append_nil _)
  | trans _ _ ih ih' => exact ih'.trans ih

end Enrols

/-- No payload waits, and nobody is left in a group. -/
structure Drained (m : Coordinator) : Prop where
  pending : m.pending = false
  fired : m.loop.members .fired = []
  spawned : m.loop.members .spawned = []

structure Works (t : TaskId) (m k : Coordinator) : Prop where
  enrols : Enrols t m.loop k.loop
  fired : k.loop.members .fired = m.loop.members .fired
  stands : k.loop.standing t = m.loop.standing t

/-- A task with a duty has ended its turn. If it has returned from a wait, it has found what it waited
    for. Who only waits for the saves of edits does not look at what is pending or fired: that was so
    before. -/
structure Stops (quiet : Prop) (t : TaskId) (d : Duty) (k : Coordinator) : Prop where
  stands : ∀ p, k.loop.standing t = some p → d.Becomes (dutyOf p)
  cleared : k.loop.standing t = some (.own (.spawned .close)) → quiet →
    k.loop.members .fired = []
  found : ∀ v, k.loop.outcome? t = some (.returned v) → d.waits = true →
    k.loop.members .spawned = [] ∧ (quiet → Drained k)

structure Ends (quiet : Prop) (t : TaskId) (d : Duty) (m k : Coordinator) : Prop
    extends Stops quiet t d k where
  enrols : Enrols t m.loop k.loop
  fired : k.loop.members .fired = m.loop.members .fired

section Turns

variable {quiet : Prop} {φ : Phase} {t : TaskId} {d d' : Duty} {m n k : Coordinator}
  {p : Debounce.Point Point Wait}

theorem Works.of_loop (same : k.loop = m.loop) : Works t m k := by
  refine ⟨?_, ?_, ?_⟩ <;> rw [same]
  exact .refl t _

theorem Works.refl (t : TaskId) (m : Coordinator) : Works t m m := .of_loop rfl

theorem Works.trans (h : Works t m n) (h' : Works t n k) : Works t m k :=
  ⟨h.enrols.trans h'.enrols, h'.fired.trans h.fired, h'.stands.trans h.stands⟩

theorem works_cancel (t : TaskId) (m : Coordinator) : Works t m m.cancel :=
  ⟨cancel_enrols t m, Loop.members_congr (cancel_groups m) _, standing_cancel m t⟩

theorem works_release (t : TaskId) (m : Coordinator) : Works t m (release m) := by
  unfold release
  simp only
  split
  · exact .of_loop rfl
  · exact ⟨.of_touches (Loop.touches_push_step m.loop _ .go) fun _ _ => rfl, rfl, rfl⟩

theorem Ends.from (works : Works t m n) (h : Ends quiet t d n k) : Ends quiet t d m k :=
  ⟨h.toStops, works.enrols.trans h.enrols, h.fired.trans works.fired⟩

theorem Ends.becomes (h : Ends quiet t d' m k) (becomes : d.Becomes d') : Ends quiet t d m k where
  stands p hp := becomes.trans (h.stands p hp)
  cleared := h.cleared
  found v ended waits := h.found v ended (becomes.waits waits)
  enrols := h.enrols
  fired := h.fired

theorem Drained.finish (drained : Drained m) (stands : m.loop.standing t = some p) (o : Outcome) :
    Drained (m.finish t o) where
  pending := by
    have ended := drained.pending
    unfold Debounce.Machine.pending Debounce.Machine.window? at ended ⊢
    change (m.debouncer.window.filter fun w => ((m.loop.finish t o).outcome? w).isNone).isSome = false
    cases window : m.debouncer.window with
    | none => rfl
    | some w =>
      rw [window] at ended
      cases outcome : m.loop.outcome? w with
      | none => simp [outcome] at ended
      | some v => simp [(Loop.recalls_finish stands o).outcome? outcome]
  fired := (Loop.members_congr (Loop.groups_finish m.loop t o) _).trans drained.fired
  spawned := (Loop.members_congr (Loop.groups_finish m.loop t o) _).trans drained.spawned

theorem ends_finish (stands : m.loop.standing t = some p) {o : Outcome}
    (found : ∀ v, o = .returned v → d.waits = true →
      m.loop.members .spawned = [] ∧ (quiet → Drained m)) :
    Ends quiet t d m (m.finish t o) := by
  have gone : (m.finish t o).loop.standing t = none :=
    (Loop.standing_finish m.loop t t o).trans (if_pos rfl)
  have groups (g : TaskGroup) : (m.finish t o).loop.members g = m.loop.members g :=
    Loop.members_congr (Loop.groups_finish m.loop t o) g
  refine ⟨⟨fun q hq => ?_, fun hq => ?_, fun v ended waits => ?_⟩, .own ?_, groups .fired⟩
  · cases gone.symm.trans hq
  · cases gone.symm.trans hq
  · have same := Option.some.inj ((Loop.outcome?_finish stands o).symm.trans ended)
    obtain ⟨spawned, drained⟩ := found v same waits
    exact ⟨(groups .spawned).trans spawned, fun calm => (drained calm).finish stands o⟩
  · exact Loop.touches_finish stands o

theorem ends_wait (stands : ∃ q, m.loop.standing t = some q) {l : TaskLoop}
    (touches : m.loop.Touches l (· = t)) (groups : l.groups = m.loop.groups)
    (standing : l.standing t = (m.loop.standing t).map fun _ => p) (becomes : d.Becomes (dutyOf p))
    (cleared : p = .own (.spawned .close) → quiet → m.loop.members .fired = []) :
    Ends quiet t d m { m with loop := l } := by
  have there : l.standing t = some p := by
    obtain ⟨q, stands⟩ := stands
    rw [standing, stands]
    rfl
  have fired : l.members .fired = m.loop.members .fired := Loop.members_congr groups _
  refine ⟨⟨fun q hq => ?_, fun hq calm => ?_, fun v ended => ?_⟩, .own touches, fired⟩
  · obtain rfl := Option.some.inj (there.symm.trans hq)
    exact becomes
  · exact fired.trans (cleared (Option.some.inj (there.symm.trans hq)) calm)
  · cases (Loop.standing_of_ended ended).symm.trans there

theorem ends_join (stands : ∃ q, m.loop.standing t = some q) (target : TaskId)
    (becomes : d.Becomes (dutyOf p))
    (cleared : p = .own (.spawned .close) → quiet → m.loop.members .fired = []) :
    Ends quiet t d m { m with loop := m.loop.join t target p } :=
  ends_wait stands (Loop.touches_join _ _ _ _) rfl
    ((Loop.standing_join _ _ _ _ _).trans (if_pos rfl)) becomes cleared

theorem ends_gather (stands : ∃ q, m.loop.standing t = some q) (targets : List TaskId)
    (becomes : d.Becomes (dutyOf p))
    (cleared : p = .own (.spawned .close) → quiet → m.loop.members .fired = []) :
    Ends quiet t d m { m with loop := m.loop.gather t targets p } :=
  ends_wait stands (Loop.touches_gather _ _ _ _) (Loop.groups_gather _ _ _ _)
    ((Loop.standing_gather _ _ _ _ _).trans (if_pos rfl)) becomes cleared

theorem ends_sleep (stands : ∃ q, m.loop.standing t = some q) (seconds : Float)
    (becomes : d.Becomes (dutyOf p)) (apart : p ≠ .own (.spawned .close)) :
    Ends quiet t d m { m with loop := m.loop.sleep t seconds p } :=
  ends_wait stands (Loop.touches_sleep _ _ _ _) (Loop.groups_sleep _ _ _ _)
    ((Loop.standing_sleep _ _ _ _ _).trans (if_pos rfl)) becomes fun same => absurd same apart

theorem fired_of_idle (idle : ¬ m.running = true) : m.loop.members .fired = [] := by
  have empty : (m.loop.members .fired).isEmpty = true := by
    unfold Debounce.Machine.running Debounce.Machine.fired at idle
    simpa using idle
  exact List.isEmpty_iff.mp empty

theorem waitSpawned_ends (stands : ∃ q, m.loop.standing t = some q) (wait : Wait)
    (calm : wait = .close → quiet → m.pending = false ∧ m.loop.members .fired = []) :
    Ends quiet t (.wait wait) m (waitSpawned t wait m) := by
  unfold waitSpawned
  simp only
  split
  · rename_i spawned
    cases wait with
    | close =>
      refine ends_finish stands.choose_spec fun _ _ _ => ⟨spawned, fun quiet => ?_⟩
      exact ⟨(calm rfl quiet).1, (calm rfl quiet).2, spawned⟩
    | drain =>
      simp only
      cases window : m.window? with
      | some w => exact ends_join stands w (.same _) nofun
      | none =>
        simp only
        split
        · exact ends_gather stands _ (.same _) nofun
        · rename_i idle
          refine ends_finish stands.choose_spec fun _ _ _ => ⟨spawned, fun _ => ?_⟩
          exact ⟨congrArg Option.isSome window, fired_of_idle idle, spawned⟩
  · refine ends_gather stands _ (.same _) fun same quiet => (calm ?_ quiet).2
    cases same
    rfl

theorem awaitQuiet_ends (stands : ∃ q, m.loop.standing t = some q) (wait : Wait) :
    Ends quiet t (.wait wait) m (m.awaitQuiet use t wait) := by
  unfold Debounce.Machine.awaitQuiet
  cases window : m.window? with
  | some w => exact ends_join stands w (.same _) nofun
  | none =>
    simp only
    split
    · exact ends_gather stands _ (.same _) nofun
    · rename_i idle
      exact waitSpawned_ends stands wait fun _ _ =>
        ⟨congrArg Option.isSome window, fired_of_idle idle⟩

theorem afterSave_ends (stands : ∃ q, m.loop.standing t = some q) (after : AfterSave)
    (result : Result Json) : Ends quiet t (dutyAfter after) m (afterSave t after result m) := by
  rcases result with f | v
  · exact ends_finish stands.choose_spec nofun
  · cases after with
    | answer => exact ends_finish stands.choose_spec nofun
    | drain => exact (awaitQuiet_ends stands .drain).becomes .saved

theorem leave_ends (stands : ∃ q, m.loop.standing t = some q) (after : AfterSave)
    (result : Result Json) : Ends quiet t (dutyAfter after) m (leave t after result m) := by
  have works : Works t m (endSave (release m)) :=
    (works_release t m).trans (.of_loop (endSave_loop _))
  exact .from works (afterSave_ends (works.stands ▸ stands) after result)

theorem receiveSave_ends (stands : ∃ q, m.loop.standing t = some q) (call : SaveCall)
    (after : AfterSave) : Ends quiet t (dutyAfter after) m (receiveSave t call after m) := by
  have leaves {n : Coordinator} (same : n.loop = m.loop) (result : Result Json) :
      Ends quiet t (dutyAfter after) m (leave t after result n) :=
    .from (.of_loop same) (leave_ends (same ▸ stands) after result)
  rw [receiveSave_eq]
  rcases (answerTo call m).2 with f | record
  · split
    · contradiction
    · exact leaves (n := (reportRefusal _ _ (answered call m)).1) rfl (.ok .null)
    · exact leaves (n := answered call m) rfl _
  · refine leaves ?_ _
    unfold recordSaved
    split
    · rfl
    · simp only
      split <;> rfl

theorem send_ends (stands : ∃ q, m.loop.standing t = some q) (o : Overrides) (epoch : Nat)
    (after : AfterSave) : Ends quiet t (dutyAfter after) m (send t o epoch after m) := by
  rw [send_eq]
  split
  · exact .from (n := logs m .debug _) (.of_loop rfl) (leave_ends (m := logs m .debug _) stands after _)
  · cases payloadOf o (session m) with
    | rejected ds => exact leave_ends stands after _
    | ok payload =>
      have called : Works t m (calling payload m) := .of_loop rfl
      simp only
      split
      · exact .from called (ends_sleep (m := calling payload m) stands _ (.same _) nofun)
      · exact .from called (receiveSave_ends (m := calling payload m) stands _ after)

theorem beginSave_ends (stands : ∃ q, m.loop.standing t = some q) (o : Overrides)
    (after : AfterSave) : Ends quiet t (dutyAfter after) m (beginSave t o after m) := by
  have same : (beginning m).loop = m.loop := by
    unfold beginning
    split <;> rfl
  have begun (saving : Bool) (queue : List TaskId) : Works t m ((beginning m).withWorld
      { (beginning m).world with saving := saving, queue := queue }) := .of_loop same
  have still : ∃ q, (beginning m).loop.standing t = some q := same ▸ stands
  rw [beginSave_eq]
  split
  · refine .from (begun true (beginning m).world.queue) (send_ends ?_ o _ after)
    exact still
  · refine .from (begun (beginning m).world.saving ((beginning m).world.queue ++ [t]))
      (ends_wait (p := .own (.queued o (beginning m).world.epoch after)) ?_ (Loop.touches_wait _ _ _) rfl
        ?_ (.same _) nofun)
    · exact still
    · exact (Loop.standing_wait _ _ _ _).trans (if_pos rfl)

theorem beginFlush_ends (stands : ∃ q, m.loop.standing t = some q) :
    Ends quiet t .flush m (beginFlush t m) := by
  have cancelled := works_cancel t m
  have still : ∃ q, m.cancel.loop.standing t = some q := cancelled.stands ▸ stands
  unfold beginFlush Debounce.Machine.takePending
  cases m.pending with
  | false => exact (awaitQuiet_ends stands .drain).becomes .saved
  | true =>
    cases m.debouncer.pending with
    | none => exact .from cancelled ((awaitQuiet_ends still .drain).becomes .saved)
    | some o => exact .from cancelled (beginSave_ends still o .drain)

theorem beginClose_ends (stands : ∃ q, m.loop.standing t = some q) :
    Ends quiet t (.wait .close) m (beginClose t m) := by
  have closed : Works t m (unsubscribe m) := by
    unfold unsubscribe
    split <;> exact .of_loop rfl
  have works := closed.trans (works_cancel t (unsubscribe m))
  exact .from works (awaitQuiet_ends (works.stands ▸ stands) .close)

theorem beginRequest_ends (stands : ∃ q, m.loop.standing t = some q)
    (members : List (String × Json)) : Ends quiet t .save m (beginRequest t members m) := by
  unfold beginRequest
  cases checkOverrides members with
  | error f => exact ends_finish stands.choose_spec nofun
  | ok _ => exact beginSave_ends stands _ .answer

theorem fill_talk (id record : Json) (m : Coordinator) :
    ∃ n : Coordinator, n.loop = m.loop ∧ n.debouncer = m.debouncer ∧ (∀ φ, Sound φ m → Sound φ n) ∧
      Talk (· = {}) n (fill id record m).1 := by
  unfold fill
  cases membersIn record with
  | error f => exact ⟨m, rfl, rfl, fun _ sound => sound, .told (Noted.refl m).toTold⟩
  | ok members =>
    refine ⟨entitled id members m, ?_, ?_, fun _ sound => sound.entitled id members,
      (@furnish_exchange (· = {}) rfl members _).talk⟩ <;>
    · unfold entitled
      split <;> rfl

theorem fill_works (sound : Sound φ m) (id record : Json) (turn : ∃ q, m.loop.standing t = some q) :
    Works t m (fill id record m).1 := by
  obtain ⟨n, same, -, entered, talk⟩ := fill_talk id record m
  refine (Works.of_loop same).trans ⟨talk.enrols (entered φ sound) t, talk.firing, ?_⟩
  rcases talk.placed (entered φ sound) t with stays | ⟨gone, -⟩
  · exact stays
  · obtain ⟨q, stands⟩ := turn
    cases (same ▸ gone).symm.trans stands

theorem receiveLoad_ends (id : Json) (reply : Reply) (sound : Sound (.fills t id reply) m) :
    Ends quiet t .none m (receiveLoad t id reply m) := by
  obtain ⟨p, stands, -⟩ := sound.stands
  have ends {n : Coordinator} (works : Works t m n) (o : Outcome) :
      Ends quiet t .none m (n.finish t o) :=
    .from works (ends_finish (works.stands.trans stands) nofun)
  unfold receiveLoad
  cases loaded id reply m with
  | error f =>
    dsimp only
    split
    · exact ends (n := (reportRefusal _ _ m).1) (.of_loop rfl) (.returned (.bool false))
    · exact ends (.refl t m) _
    · contradiction
  | ok record =>
    have filled := fill_works sound id record ⟨p, stands⟩
    dsimp only
    rcases hk : fill id record m with ⟨k, f⟩
    rw [hk] at filled
    cases f with
    | some f => exact ends filled _
    | none =>
      cases loadedName id with
      | error f => exact ends filled _
      | ok name => exact ends (n := logs k .info _) (filled.trans (.of_loop rfl)) (.returned (.bool true))

theorem beginLoad_ends (id : Json) (sound : Sound (.resumes t (.own (.load id))) m) :
    Ends quiet t .none m (beginLoad t id m) := by
  have blank : Works t m (blanking id m) := (works_cancel t m).trans (.of_loop rfl)
  unfold beginLoad
  split
  · refine .from blank (ends_sleep ?_ _ (.same _) nofun)
    exact ⟨_, blank.stands.trans sound.stands.1⟩
  · exact .from blank (receiveLoad_ends id _ ((Move.load t id m).sound sound))

def Calm (m : Coordinator) (p : Debounce.Point Point Wait) : Prop :=
  p = .own (.spawned .close) → m.pending = false ∧ m.loop.members .fired = []

/-- The turn of a task that goes on from a point. Only with a payload that waits does it start an
    action. -/
structure Turned (t : TaskId) (p : Debounce.Point Point Wait) (m k : Coordinator) : Prop where
  enrols : Enrols t m.loop k.loop
  fired : m.debouncer.pending = none → k.loop.members .fired = m.loop.members .fired
  stops : Stops (Calm m p) t (dutyOf p) k

theorem Ends.turned (h : Ends (Calm m p) t (dutyOf p) m k) : Turned t p m k :=
  ⟨h.enrols, fun _ => h.fired, h.toStops⟩

theorem fire_turned (sound : Sound (.resumes t (.window true)) m) :
    Turned t (.window true) m (m.fire use t) := by
  have enrols : Enrols t m.loop (fired m).loop := by
    unfold fired
    cases m.debouncer.pending with
    | none => exact .refl t _
    | some o => exact spawnIn_enrols sound .fired o t
  have stands : (fired m).loop.standing t = some (.window true) := by
    cases fired_placed sound t with
    | keeps same _ => exact same.trans sound.stands.1
    | changes left _ =>
      rcases left with ⟨-, gone⟩ | gone
      · cases gone
      · cases gone.symm.trans sound.stands.1
  have ends : Ends (Calm m (.window true)) t .none (fired m) (m.fire use t) := by
    rw [fire_eq]
    exact ends_finish stands nofun
  refine ⟨enrols.trans ends.enrols, fun idle => ends.fired.trans ?_, ends.toStops⟩
  unfold fired
  rw [idle]

theorem resume_turned (sound : inSave p = false → Sound (.resumes t p) m)
    (stands : m.loop.standing t = some p) {signal : Signal} (heard : active p = true → signal = .go) :
    Turned t p m (host.resume t p signal m) := by
  -- only those that are not active hear that something has failed or was called off
  have fails {q : Debounce.Point Point Wait} {o : Outcome} (bad : ∀ v, o ≠ .returned v) :
      Turned t q m (m.finish t o) :=
    (ends_finish stands fun v same => absurd same (bad v)).turned
  have there : ∃ q, m.loop.standing t = some q := ⟨p, stands⟩
  cases p with
  | window begun =>
    cases signal with
    | failed f => cases begun <;> exact fails nofun
    | cancelled => cases begun <;> exact fails nofun
    | go =>
      cases begun with
      | false => exact (ends_sleep (p := .window true) there _ (.same .none) nofun).turned
      | true => exact fire_turned (sound rfl)
  | quiet wait =>
    cases signal with
    | failed f => exact fails nofun
    | cancelled =>
      have noted : Works t m (m.note ⟨.debug, .debouncer, "Debounced call superseded while waiting"⟩) :=
        .of_loop rfl
      exact (Ends.from noted (awaitQuiet_ends (noted.stands ▸ there) wait)).turned
    | go => exact (awaitQuiet_ends there wait).turned
  | pause begun seconds =>
    cases signal with
    | failed f => cases begun <;> exact fails nofun
    | cancelled => cases begun <;> exact fails nofun
    | go =>
      cases begun with
      | false => exact (ends_sleep (p := .pause true seconds) there _ (.same .none) nofun).turned
      | true => exact (ends_finish (d := .none) stands nofun).turned
  | own a =>
    cases a with
    | spawned wait =>
      cases signal with
      | failed f => exact fails nofun
      | cancelled => exact fails nofun
      | go => exact (waitSpawned_ends there wait fun same calm => calm (same ▸ rfl)).turned
    | request members =>
      cases heard rfl
      exact (beginRequest_ends there members).turned
    | save o after =>
      cases heard rfl
      exact (beginSave_ends there o after).turned
    | queued o epoch after =>
      cases heard rfl
      have dequeued : Works t m
          (m.withWorld { m.world with saving := true, queue := m.world.queue.erase t }) := .of_loop rfl
      exact (Ends.from dequeued (send_ends (dequeued.stands ▸ there) o epoch after)).turned
    | sending call after =>
      cases heard rfl
      exact (receiveSave_ends there call after).turned
    | flush =>
      cases heard rfl
      exact (beginFlush_ends there).turned
    | drain =>
      cases heard rfl
      exact (awaitQuiet_ends there .drain).turned
    | close =>
      cases heard rfl
      exact (beginClose_ends there).turned
    | load id =>
      cases heard rfl
      exact (beginLoad_ends id (sound rfl)).turned
    | loading id reply =>
      cases heard rfl
      exact (receiveLoad_ends id reply ((Move.loading t id reply m).sound (sound rfl))).turned

variable {o : Operation} {u : TaskId} {q : Debounce.Point Point Wait}

theorem Resumes.turned (h : Resumes m o t p n) (sound : Sound .idle m) :
    Turned t p n (perform m o) := by
  obtain ⟨signal, heard, resume⟩ := h.resume sound
  rw [resume]
  exact resume_turned (h.sound sound) (h.stands sound) heard

theorem enrols_of_rest {c : Callback} {rest : List Callback} (ready : m.loop.ready = c :: rest)
    (t : TaskId) : Enrols t m.loop (takeUp rest m).loop where
  fresh := Nat.le_refl _
  groups _ mem := mem
  recalls := .of_tasks rfl
  leaves _ _ _ mem := .inl (ready ▸ List.mem_cons_of_mem c mem)
  others _ _ := .inl rfl

theorem Resumes.enrols (h : Resumes m o t p n) (sound : Sound .idle m) :
    Enrols t m.loop (perform m o).loop := by
  refine Enrols.trans ?_ (h.turned sound).enrols
  cases h with
  | enter e => exact .own (Loop.touches_enter _ _ sound.orderly.new)
  | turn ready => exact enrols_of_rest ready t

inductive Proceeds (m : Coordinator) : Operation → Coordinator → Prop where
  | rests {o : Operation} {k : Coordinator} (unasked : o.errand? = none)
      (enrols : ∀ t, Enrols t m.loop k.loop)
      (fired : k.loop.members .fired = m.loop.members .fired) : Proceeds m o k
  | spawns (e : Errand) : Proceeds m (.spawn e) { m with loop := (m.loop.spawn e.point).1 }
  | goesOn {o : Operation} {t : TaskId} {p : Debounce.Point Point Wait} {n : Coordinator}
      (resumes : Resumes m o t p n) : Proceeds m o (perform m o)
  | leaves {t : TaskId} {v : Outcome} {g : TaskGroup} {rest : List Callback}
      (ready : m.loop.ready = .ended t v (.leave g) :: rest) :
      Proceeds m .turn { takeUp rest m with loop :=
        { (takeUp rest m).loop with groups := m.loop.groups.filter fun q => q ≠ (g, t) } }

theorem turn_proceeds (m : Coordinator) : Proceeds m .turn (perform m .turn) := by
  cases ready : m.loop.ready with
  | nil =>
    rw [turn_of_nothing ready]
    exact .rests rfl (fun t => .refl t _) rfl
  | cons c rest =>
    have run := turn_of_callback ready
    by_cases somebody : ∃ t p, c.target? = some t ∧ m.loop.standing t = some p
    · obtain ⟨t, p, target, stands⟩ := somebody
      exact .goesOn (.turn ready target stands)
    · have nobody t (target : c.target? = some t) : m.loop.standing t = none :=
        Option.eq_none_iff_forall_ne_some.mpr fun p stands => somebody ⟨t, p, target, stands⟩
      cases target : c.target? with
      | some t =>
        obtain ⟨signal, -, step⟩ := host.run_of_target target
        rw [step, step_of_gone (nobody t target)] at run
        exact .rests rfl (fun t => run ▸ enrols_of_rest ready t) (by rw [run]; rfl)
      | none =>
        cases c with
        | step u signal => cases target
        | ended u v x =>
          cases x with
          | resume waiter => cases target
          | leave g => exact run ▸ .leaves ready
          | gather id =>
            refine run ▸ .rests rfl (fun t => (enrols_of_rest ready t).trans ?_) ?_
            · exact .of_touches (Loop.touches_count _ _ _) fun u _ => Loop.standing_count _ _ _ _
            · exact Loop.members_congr (Loop.groups_count (takeUp rest m).loop id v) _

theorem proceeds (sound : Sound .idle m) (o : Operation) : Proceeds m o (perform m o) := by
  cases works : o.works with
  | false =>
    have talk : Talk (asked m o) m (perform m o) := (perform_exchange works m).talk
    have unasked : o.errand? = none := by cases o <;> first | rfl | cases works
    exact .rests unasked (talk.enrols sound) talk.firing
  | true =>
    cases o with
    | start | parse _ | deliver _ | setConnected _ | edit _ | moveTable _ _ | postpone _ => cases works
    | spawn e => exact .spawns e
    | enter e => exact .goesOn (.enter e)
    | turn => exact turn_proceeds m
    | advance =>
      change Proceeds m .advance ((m.loop.advance?.map fun l => { m with loop := l }).getD m)
      cases ha : m.loop.advance? with
      | none => exact .rests rfl (fun t => .refl t _) rfl
      | some l =>
        obtain ⟨time, -, rfl⟩ := Option.map_eq_some_iff.mp ha
        refine .rests rfl (fun t => ⟨Nat.le_refl _, fun _ mem => mem, .of_tasks rfl, fun u v g mem => ?_,
          fun u _ => .inl rfl⟩) rfl
        refine .inl ((List.mem_append.mp mem).resolve_right fun woken => ?_)
        obtain ⟨_, -, other⟩ := List.mem_map.mp woken
        cases other

end Turns

end Coordinator

end Sync

end SchemaDiagram
