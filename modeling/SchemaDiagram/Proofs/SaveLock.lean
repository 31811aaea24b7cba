import SchemaDiagram.Proofs.Moves
import SchemaDiagram.Proofs.Talk

/-!
The lock under which saves call the backend. Who waits for it stands in the queue, and is woken only
when the lock is free and it is the first; who calls under it is alone. This holds in every phase of
every task's work, whatever else goes on.
-/

set_option autoImplicit false

namespace SchemaDiagram

namespace Sync.Coordinator

abbrev TaskLoop := Loop (Debounce.Point Point Wait)

def Queues (l : TaskLoop) (t : TaskId) : Prop :=
  ∃ o epoch after, l.standing t = some (.own (.queued o epoch after))

def Sends (l : TaskLoop) (t : TaskId) : Prop :=
  ∃ call after, l.standing t = some (.own (.sending call after))

def InSave (l : TaskLoop) (t : TaskId) : Prop :=
  ∃ p, l.standing t = some p ∧ inSave p = true

section TaskLoop

variable {l k : TaskLoop} {t : TaskId}

theorem Queues.inSave (h : Queues l t) : InSave l t := by
  obtain ⟨o, epoch, after, hs⟩ := h
  exact ⟨_, hs, rfl⟩

theorem Sends.inSave (h : Sends l t) : InSave l t := by
  obtain ⟨call, after, hs⟩ := h
  exact ⟨_, hs, rfl⟩

theorem Queues.congr (same : k.standing t = l.standing t) : Queues k t ↔ Queues l t := by
  unfold Queues
  rw [same]

theorem Sends.congr (same : k.standing t = l.standing t) : Sends k t ↔ Sends l t := by
  unfold Sends
  rw [same]

theorem InSave.congr (same : k.standing t = l.standing t) : InSave k t ↔ InSave l t := by
  unfold InSave
  rw [same]

theorem InSave.active (h : InSave l t) :
    ∃ p, l.standing t = some p ∧ active p = true := by
  obtain ⟨p, hs, hp⟩ := h
  refine ⟨p, hs, ?_⟩
  cases ha : Coordinator.active p with
  | true => rfl
  | false => simp [inSave_of_rests ha] at hp

end TaskLoop

/-- Where the task that has its turn still stands: at the point from which it went on, if it saves or
    loads at one where only its own turn could take it up. -/
def Phase.Stands (m : Coordinator) : Phase → Prop
  | idle => True
  | resumes t p => m.loop.standing t = some p ∧ (active p = true → m.loop.due t = 0)
  | free t => ∃ p, m.loop.standing t = some p
  | begins t _ | holds t _ _ | calls t _ | leaves t | fills t _ _ =>
    ∃ p, m.loop.standing t = some p ∧ active p = true ∧ m.loop.due t = 0

theorem Phase.Stands.standing {φ : Phase} {m : Coordinator} {t : TaskId} (h : φ.Stands m)
    (task : φ.task? = some t) : ∃ p, m.loop.standing t = some p := by
  cases φ with
  | idle => cases task
  | resumes u p => exact Option.some.inj task ▸ ⟨p, h.1⟩
  | free u => exact Option.some.inj task ▸ h
  | begins u _ | holds u _ _ | calls u _ | leaves u | fills u _ _ =>
    obtain ⟨p, hp, -⟩ := h
    exact Option.some.inj task ▸ ⟨p, hp⟩

theorem Phase.Stands.change {φ : Phase} {m k : Coordinator} (h : φ.Stands m)
    (same : ∀ u, φ.task? = some u → k.loop.standing u = m.loop.standing u ∧
      ∀ p, m.loop.standing u = some p → active p = true → k.loop.due u ≤ m.loop.due u) :
    φ.Stands k := by
  cases φ with
  | idle => trivial
  | resumes t p =>
    obtain ⟨hs, hd⟩ := same t rfl
    exact ⟨hs.trans h.1, fun ha => Nat.le_zero.mp (h.2 ha ▸ hd p h.1 ha)⟩
  | free t =>
    obtain ⟨p, hp⟩ := h
    exact ⟨p, (same t rfl).1.trans hp⟩
  | begins t _ | holds t _ _ | calls t _ | leaves t | fills t _ _ =>
    obtain ⟨p, hp, ha, hz⟩ := h
    obtain ⟨hs, hd⟩ := same t rfl
    exact ⟨p, hs.trans hp, ha, Nat.le_zero.mp (hz ▸ hd p hp ha)⟩

structure Sound (φ : Phase) (m : Coordinator) : Prop where
  orderly : m.loop.Orderly active m.debouncer.window
  stands : φ.Stands m
  nodup : m.world.queue.Nodup
  queued : ∀ t, t ∈ m.world.queue ↔ φ.task? ≠ some t ∧ Queues m.loop t
  head : ∀ t ∈ m.world.queue, 0 < m.loop.due t →
    m.world.saving = false ∧ m.world.queue.head? = some t
  locked : φ.locks = true → m.world.saving = true
  sends : ∀ t, Sends m.loop t → φ.task? ≠ some t → m.world.saving = true ∧ φ.locks = false
  sole : ∀ t u, Sends m.loop t → Sends m.loop u → φ.task? ≠ some t → φ.task? ≠ some u → t = u

namespace Sound

variable {φ ψ : Phase} {m k : Coordinator} {t : TaskId}

theorem world (h : Sound φ m) (loop : k.loop = m.loop)
    (window : k.debouncer.window = m.debouncer.window) (queue : k.world.queue = m.world.queue)
    (saving : k.world.saving = m.world.saving) : Sound φ k := by
  obtain ⟨l, d, log, w⟩ := k
  cases loop
  refine ⟨?_, ?_, ?_, ?_, ?_, ?_, ?_, h.sole⟩
  · exact window ▸ h.orderly
  · cases φ <;> exact h.stands
  · exact queue ▸ h.nodup
  · exact queue ▸ h.queued
  · exact queue ▸ saving ▸ h.head
  · exact saving ▸ h.locked
  · exact saving ▸ h.sends

theorem phase (h : Sound φ m) (task : ψ.task? = φ.task?) (locks : ψ.locks = φ.locks)
    (stands : ψ.Stands m) : Sound ψ m :=
  ⟨h.orderly, stands, h.nodup, task ▸ h.queued, h.head, locks ▸ h.locked,
    task ▸ locks ▸ h.sends, task ▸ h.sole⟩

/-- A change of the loop under which the saves that wait, but for that of the task that has its turn,
    stay where they are. -/
theorem loop (h : Sound φ m) (orderly : k.loop.Orderly active k.debouncer.window)
    (world : k.world = m.world) (stands : ψ.Stands k) (locks : ψ.locks = φ.locks)
    (gone : ∀ u, φ.task? = some u → ψ.task? = some u ∨ ¬ InSave k.loop u)
    (come : ∀ u, ψ.task? = some u → φ.task? = some u ∨ ¬ InSave m.loop u)
    (same : ∀ u, φ.task? ≠ some u → ψ.task? ≠ some u → InSave k.loop u ∨ InSave m.loop u →
      k.loop.standing u = m.loop.standing u ∧ k.loop.due u ≤ m.loop.due u) : Sound ψ k := by
  have back (u : TaskId) (hu : ψ.task? ≠ some u) (hs : InSave k.loop u) : φ.task? ≠ some u :=
    fun ht => (gone u ht).elim hu (absurd hs)
  have forth (u : TaskId) (hu : φ.task? ≠ some u) (hs : InSave m.loop u) : ψ.task? ≠ some u :=
    fun ht => (come u ht).elim hu (absurd hs)
  have queues (u : TaskId) : ψ.task? ≠ some u ∧ Queues k.loop u ↔ φ.task? ≠ some u ∧ Queues m.loop u := by
    constructor
    · rintro ⟨hu, hq⟩
      have ht := back u hu hq.inSave
      exact ⟨ht, (Queues.congr (same u ht hu (.inl hq.inSave)).1).mp hq⟩
    · rintro ⟨hu, hq⟩
      have ht := forth u hu hq.inSave
      exact ⟨ht, (Queues.congr (same u hu ht (.inr hq.inSave)).1).mpr hq⟩
  have sends (u : TaskId) (hs : Sends k.loop u) (hu : ψ.task? ≠ some u) :
      φ.task? ≠ some u ∧ Sends m.loop u := by
    have ht := back u hu hs.inSave
    exact ⟨ht, (Sends.congr (same u ht hu (.inl hs.inSave)).1).mp hs⟩
  refine ⟨orderly, stands, world ▸ h.nodup, fun u => ?_, fun u hu hd => ?_, ?_, fun u hs hu => ?_,
    fun u v hs hs' hu hv => ?_⟩
  · rw [world, h.queued, queues]
  · rw [world] at hu ⊢
    obtain ⟨ht, hq⟩ := (h.queued u).mp hu
    have hle := (same u ht (forth u ht hq.inSave) (.inr hq.inSave)).2
    exact h.head u hu (Nat.lt_of_lt_of_le hd hle)
  · rw [world, locks]
    exact h.locked
  · rw [world, locks]
    exact h.sends u (sends u hs hu).2 (sends u hs hu).1
  · exact h.sole u v (sends u hs hu).2 (sends v hs' hv).2 (sends u hs hu).1 (sends v hs' hv).1

theorem stay (h : Sound φ m) (orderly : k.loop.Orderly active k.debouncer.window)
    (world : k.world = m.world) (stands : φ.Stands k)
    (same : ∀ u, InSave k.loop u ∨ InSave m.loop u →
      k.loop.standing u = m.loop.standing u ∧ k.loop.due u ≤ m.loop.due u) : Sound φ k :=
  h.loop orderly world stands rfl (fun _ hu => .inl hu) (fun _ hu => .inl hu)
    fun u _ _ hs => same u hs

theorem rest (h : Sound (.free t) m) {place : Option (Debounce.Point Point Wait)}
    (apart : ∀ p, place = some p → inSave p = false)
    (orderly : k.loop.Orderly active k.debouncer.window) (world : k.world = m.world)
    (standing : ∀ u, k.loop.standing u = if u = t then place else m.loop.standing u)
    (due : ∀ u, u ≠ t → k.loop.due u ≤ m.loop.due u) : Sound .idle k := by
  refine h.loop orderly world trivial rfl (fun u hu => .inr ?_) nofun fun u hu _ _ => ?_
  · rintro ⟨p, hp, hs⟩
    obtain rfl : t = u := Option.some.inj hu
    rw [standing, if_pos rfl] at hp
    simp [apart p hp] at hs
  · have hne : u ≠ t := fun ht => hu (ht ▸ rfl)
    exact ⟨(standing u).trans (if_neg hne), due u hne⟩

theorem shift (h : Sound φ m) (orderly : k.loop.Orderly active k.debouncer.window)
    (world : k.world = m.world) (standing : ∀ u, k.loop.standing u = m.loop.standing u)
    (due : ∀ u p, m.loop.standing u = some p → active p = true → k.loop.due u ≤ m.loop.due u) :
    Sound φ k := by
  refine h.stay orderly world (h.stands.change fun u _ => ⟨standing u, due u⟩) fun u hu => ?_
  have hu' : InSave m.loop u := hu.elim (InSave.congr (standing u)).mp id
  obtain ⟨p, hp, ha⟩ := hu'.active
  exact ⟨standing u, due u p hp ha⟩

theorem more (h : Sound φ m) {p : Debounce.Point Point Wait} (apart : inSave p = false)
    (orderly : k.loop.Orderly active k.debouncer.window) (world : k.world = m.world)
    (standing : ∀ u, k.loop.standing u =
      if u = m.loop.fresh then some p else m.loop.standing u)
    (due : ∀ u, k.loop.due u = m.loop.due u + if u = m.loop.fresh then 1 else 0) : Sound φ k := by
  have old (u : TaskId) (hu : u ≠ m.loop.fresh) :
      k.loop.standing u = m.loop.standing u ∧ k.loop.due u ≤ m.loop.due u := by
    rw [standing, due, if_neg hu, if_neg hu]
    exact ⟨rfl, Nat.le_refl _⟩
  have known (u : TaskId) {q : Debounce.Point Point Wait} (hq : m.loop.standing u = some q) :
      u ≠ m.loop.fresh := Nat.ne_of_lt (h.orderly.standing_below hq)
  refine h.stay orderly world (h.stands.change fun u hu => ?_) fun u hu => old u ?_
  · obtain ⟨q, hq⟩ := h.stands.standing hu
    exact ⟨(old u (known u hq)).1, fun _ _ _ => (old u (known u hq)).2⟩
  · rcases hu with ⟨q, hq, hs⟩ | ⟨q, hq, hs⟩
    · rintro rfl
      rw [standing, if_pos rfl] at hq
      obtain rfl := Option.some.inj hq
      simp [apart] at hs
    · exact known u hq

theorem cancel (h : Sound φ m) : Sound φ m.cancel := by
  cases hw : m.debouncer.window with
  | none =>
    have hl : m.cancel.loop = m.loop := by simp only [Debounce.Machine.cancel, hw]
    refine h.shift ?_ rfl (fun u => by rw [hl]) fun u p _ _ => Nat.le_of_eq (by rw [hl])
    rw [hl]
    exact h.orderly.rename nofun
  | some w =>
    have passive := h.orderly.passive w (.inr hw)
    have hl : m.cancel.loop = m.loop.cancel w := by simp only [Debounce.Machine.cancel, hw]
    refine h.shift ?_ rfl (fun u => hl ▸ Loop.standing_cancel _ _ _) fun u p hp ha => ?_
    · rw [hl]
      exact (h.orderly.cancel passive).rename nofun
    · exact Nat.le_of_eq (by rw [hl, Loop.due_cancel _ (passive.ne_of_active hp ha)])

theorem schedule (h : Sound φ m) (o : Overrides) : Sound φ (m.schedule o) := by
  have hc := h.cancel
  have new := hc.orderly.new
  refine hc.more (p := .window false) rfl ?_ rfl (fun u => Loop.standing_spawn _ _ u new)
    fun u => Loop.due_spawn _ _ u
  refine (hc.orderly.spawn _).rename fun t ht => ?_
  obtain rfl : m.cancel.loop.fresh = t := Option.some.inj ht
  refine ⟨Nat.lt_succ_self _, fun p hp => ?_⟩
  rw [Loop.standing_spawn _ _ _ new, if_pos rfl] at hp
  exact Option.some.inj hp ▸ rfl

theorem spawnIn (h : Sound φ m) (group : TaskGroup) (o : Overrides) (after : AfterSave) :
    Sound φ { m with loop := (m.loop.spawnIn group (.own (.save o after))).1 } :=
  h.more rfl (h.orderly.spawnIn _ _) rfl (fun u => Loop.standing_spawnIn _ _ _ u h.orderly.new)
    fun u => Loop.due_spawnIn _ _ _ u

theorem talk {asks : Overrides → Prop} (h : Sound φ m) (talk : Talk asks m k) : Sound φ k := by
  induction talk with
  | told ht => exact h.world ht.loop (congrArg _ ht.debouncer) ht.world.queue ht.world.saving
  | schedule m _ => exact h.schedule _
  | spawn m _ => exact h.spawnIn _ _ _
  | trans _ _ ih ih' => exact ih' (ih h)

theorem fire (h : Sound φ m) : Sound φ (fired m) := by
  unfold fired
  cases m.debouncer.pending with
  | none => exact h.shift (h.orderly.rename nofun) rfl (fun _ => rfl) fun _ _ _ _ => Nat.le_refl _
  | some o =>
    exact h.more rfl ((h.orderly.spawnIn _ _).rename nofun) rfl
      (fun u => Loop.standing_spawnIn _ _ _ u h.orderly.new) fun u => Loop.due_spawnIn _ _ _ u

theorem finish (h : Sound (.free t) m) (o : Outcome) : Sound .idle (m.finish t o) :=
  h.rest (fun _ hp => by cases hp) h.orderly.finish rfl (fun u => Loop.standing_finish _ _ u _)
    fun _ _ => Nat.le_of_eq (Loop.due_finish _ _ _ _)

theorem apart_of_rests {p : Debounce.Point Point Wait} (rests : active p = false)
    {q : Option (Debounce.Point Point Wait)} :
    ∀ r, (q.map fun _ => p) = some r → inSave r = false := by
  intro r hr
  obtain ⟨_, -, rfl⟩ := Option.map_eq_some_iff.mp hr
  exact inSave_of_rests rests

theorem sleep (h : Sound (.free t) m) (seconds : Float) {p : Debounce.Point Point Wait}
    (rests : active p = false) : Sound .idle { m with loop := m.loop.sleep t seconds p } := by
  refine h.rest (apart_of_rests rests) (h.orderly.sleep (fun ha => ?_) h.stands fun ha => ?_) rfl
    (fun u => Loop.standing_sleep _ _ u _ _) fun u hu => ?_
  · simp [rests] at ha
  · simp [rests] at ha
  · rw [Loop.due_sleep, if_neg hu]
    exact Nat.le_refl _

theorem join (h : Sound (.free t) m) (target : TaskId) {p : Debounce.Point Point Wait}
    (rests : active p = false) : Sound .idle { m with loop := m.loop.join t target p } :=
  h.rest (apart_of_rests rests) (h.orderly.join rests h.stands) rfl
    (fun u => Loop.standing_join _ _ _ u _) fun _ _ => Nat.le_refl _

theorem gather (h : Sound (.free t) m) (targets : List TaskId) {p : Debounce.Point Point Wait}
    (rests : active p = false) : Sound .idle { m with loop := m.loop.gather t targets p } :=
  h.rest (apart_of_rests rests) (h.orderly.gather rests h.stands) rfl
    (fun u => Loop.standing_gather _ _ u _ _) fun u _ => Nat.le_of_eq (Loop.due_gather _ _ u _ _)

theorem take {o : Overrides} (h : Sound (.begins t o) m)
    (unlocked : m.world.saving = false ∧ m.world.queue = []) (epoch : Nat) :
    Sound (.holds t o epoch) (m.withWorld { m.world with saving := true }) where
  orderly := h.orderly
  stands := h.stands
  nodup := h.nodup
  queued := h.queued
  head u hu := by
    change u ∈ m.world.queue at hu
    simp [unlocked.2] at hu
  locked _ := rfl
  sends u hs hu := by simp [(h.sends u hs hu).1] at unlocked
  sole := h.sole

theorem lineUp {o : Overrides} (h : Sound (.begins t o) m) (epoch : Nat) (after : AfterSave) :
    Sound .idle { m.withWorld { m.world with queue := m.world.queue ++ [t] } with
      loop := m.loop.wait t (.own (.queued o epoch after)) } := by
  obtain ⟨p, hp, ha, hz⟩ := h.stands
  have new : t ∉ m.world.queue := fun ht => ((h.queued t).mp ht).1 rfl
  have hs (u : TaskId) : (m.loop.wait t (.own (.queued o epoch after))).standing u =
      if u = t then some (.own (.queued o epoch after)) else m.loop.standing u := by
    rw [Loop.standing_wait, hp]
    rfl
  have sender (u : TaskId) (hu : Sends (m.loop.wait t (.own (.queued o epoch after))) u) :
      Sends m.loop u ∧ some t ≠ some u := by
    obtain ⟨call, after, hu⟩ := hu
    rw [hs] at hu
    split at hu
    · cases hu
    · exact ⟨⟨call, after, hu⟩, fun h => ‹¬ u = t› (Option.some.inj h).symm⟩
  refine ⟨h.orderly.wait fun _ => ⟨p, hp, ha⟩, trivial, ?_, fun u => ?_, fun u hu hd => ?_, nofun,
    fun u hu _ => ?_, fun u v hu hv _ _ => ?_⟩
  · refine List.nodup_append.mpr ⟨h.nodup, by simp, fun a ha b hb hab => ?_⟩
    exact new (List.mem_singleton.mp hb ▸ hab ▸ ha)
  · change u ∈ m.world.queue ++ [t] ↔ none ≠ some u ∧ Queues (m.loop.wait t _) u
    unfold Queues
    rw [List.mem_append, List.mem_singleton, h.queued, hs]
    by_cases hu : u = t
    · subst u
      simp
    · rw [if_neg hu]
      simp [hu, Queues, Phase.task?, eq_comm (a := t)]
  · rcases List.mem_append.mp hu with hu | hu
    · obtain ⟨unlocked, first⟩ := h.head u hu hd
      exact ⟨unlocked, List.head?_append.trans (by rw [first]; rfl)⟩
    · obtain rfl := List.mem_singleton.mp hu
      exact absurd (show 0 < m.loop.due u from hd) (by simp [hz])
  · exact ⟨(h.sends u (sender u hu).1 (sender u hu).2).1, rfl⟩
  · exact h.sole u v (sender u hu).1 (sender v hv).1 (sender u hu).2 (sender v hv).2

theorem await {call : SaveCall} (h : Sound (.calls t call) m) (after : AfterSave)
    (seconds : Float) :
    Sound .idle { m with loop := m.loop.sleep t seconds (.own (.sending call after)) } := by
  obtain ⟨p, hp, ha, hz⟩ := h.stands
  have hs (u : TaskId) : (m.loop.sleep t seconds (.own (.sending call after))).standing u =
      if u = t then some (.own (.sending call after)) else m.loop.standing u := by
    rw [Loop.standing_sleep, hp]
    rfl
  -- nobody else calls while the task has the lock
  have alone (u : TaskId) (hu : Sends (m.loop.sleep t seconds (.own (.sending call after))) u) :
      u = t := by
    refine Decidable.byContradiction fun hne => ?_
    have hm : Sends m.loop u := (Sends.congr ((hs u).trans (if_neg hne))).mp hu
    simpa [Phase.locks] using (h.sends u hm fun ht => hne (Option.some.inj ht).symm).2
  have other (u : TaskId) (hu : u ∈ m.world.queue) : u ≠ t := fun ht =>
    ((h.queued u).mp hu).1 (ht ▸ rfl)
  refine ⟨h.orderly.sleep (fun _ => ⟨p, hp, ha⟩) ⟨p, hp⟩ fun _ => hz, trivial, h.nodup, fun u => ?_,
    fun u hu hd => ?_, nofun, fun u hu _ => ⟨h.locked rfl, rfl⟩, fun u v hu hv _ _ => ?_⟩
  · change u ∈ m.world.queue ↔ none ≠ some u ∧ Queues (m.loop.sleep t seconds _) u
    unfold Queues
    rw [h.queued, hs]
    by_cases hu : u = t
    · subst u
      simp [Phase.task?]
    · rw [if_neg hu]
      simp [hu, Queues, Phase.task?, eq_comm (a := t)]
  · rw [Loop.due_sleep, if_neg (other u hu)] at hd
    exact h.head u hu hd
  · exact (alone u hu).trans (alone v hv).symm

theorem dequeue (h : Sound .idle m) {rest : List Callback} {signal : Signal} {o : Overrides}
    {epoch : Nat} {after : AfterSave} (ready : m.loop.ready = .step t signal :: rest)
    (stands : m.loop.standing t = some (.own (.queued o epoch after))) :
    Sound (.holds t o epoch) ((takeUp rest m).withWorld
      { m.world with saving := true, queue := m.world.queue.erase t }) := by
  have waits : t ∈ m.world.queue := (h.queued t).mpr ⟨nofun, o, epoch, after, stands⟩
  obtain ⟨unlocked, first⟩ := h.head t waits (Loop.due_pos_of_ready ready)
  have silent (u : TaskId) : ¬ Sends m.loop u := fun hs => by simp [(h.sends u hs nofun).1] at unlocked
  refine ⟨h.orderly.pop ready, ⟨_, stands, rfl, h.orderly.due_pop ready rfl stands rfl⟩,
    h.nodup.erase t, fun u => ?_, fun u hu hd => ?_, fun _ => rfl, fun u hs => absurd hs (silent u),
    fun u _ hs => absurd hs (silent u)⟩
  · change u ∈ m.world.queue.erase t ↔ some t ≠ some u ∧ Queues m.loop u
    rw [h.nodup.mem_erase_iff, h.queued]
    simp [Phase.task?, eq_comm]
  · -- whoever is due and waits is the first, and that is the task itself
    obtain ⟨hne, hu⟩ := h.nodup.mem_erase_iff.mp hu
    have := (h.head u hu (Nat.lt_of_lt_of_le hd (Loop.due_takeUp ready u))).2
    exact absurd (Option.some.inj (this.symm.trans first)) hne

theorem reply (h : Sound .idle m) {rest : List Callback} {signal : Signal} {call : SaveCall}
    {after : AfterSave} (ready : m.loop.ready = .step t signal :: rest)
    (stands : m.loop.standing t = some (.own (.sending call after))) :
    Sound (.calls t call) (takeUp rest m) := by
  have sends : Sends m.loop t := ⟨call, after, stands⟩
  refine ⟨h.orderly.pop ready, ⟨_, stands, rfl, h.orderly.due_pop ready rfl stands rfl⟩, h.nodup,
    fun u => ?_, fun u hu hd => ?_, fun _ => (h.sends t sends nofun).1, fun u hs hu => ?_,
    fun u v hs hs' _ _ => h.sole u v hs hs' nofun nofun⟩
  · refine (h.queued u).trans ⟨fun ⟨_, hq⟩ => ⟨?_, hq⟩, fun ⟨_, hq⟩ => ⟨nofun, hq⟩⟩
    rintro ⟨⟩
    obtain ⟨_, _, _, hq⟩ := hq
    cases stands.symm.trans hq
  · exact h.head u hu (Nat.lt_of_lt_of_le hd (Loop.due_takeUp ready u))
  · exact absurd (h.sole t u sends hs nofun nofun ▸ rfl) hu

theorem release (h : Sound (.leaves t) m) : Sound (.free t) (release m) := by
  obtain ⟨p, hp, ha, hz⟩ := h.stands
  have silent (u : TaskId) (hu : some t ≠ some u) : ¬ Sends m.loop u := fun hs => by
    simpa [Phase.locks] using (h.sends u hs hu).2
  have idle (u : TaskId) (hu : u ∈ m.world.queue) : m.loop.due u = 0 := by
    refine Nat.eq_zero_of_not_pos fun hd => ?_
    simpa [h.locked rfl] using (h.head u hu hd).1
  unfold Coordinator.release
  simp only
  split
  · rename_i empty
    exact ⟨h.orderly, ⟨p, hp⟩, h.nodup, h.queued, fun u hu => by simp [empty] at hu, nofun,
      fun u hs hu => absurd hs (silent u hu), fun u _ hs _ hu => absurd hs (silent u hu)⟩
  · rename_i first others queue
    have waits : first ∈ m.world.queue := queue ▸ List.mem_cons_self
    obtain ⟨_, _, _, hf⟩ := ((h.queued first).mp waits).2
    refine ⟨h.orderly.wake (h.orderly.standing_below hf) fun _ _ _ => idle first waits, ⟨p, hp⟩,
      h.nodup, h.queued, fun u hu hd => ⟨rfl, ?_⟩, nofun, fun u hs hu => absurd hs (silent u hu),
      fun u _ hs _ hu => absurd hs (silent u hu)⟩
    unfold Loop.wake at hd
    rw [Loop.due_push_step] at hd
    split at hd
    · subst u
      exact queue ▸ rfl
    · exact absurd (idle u hu) (Nat.ne_of_gt hd)

theorem awaitLoad {id : Json} {reply : Reply} (h : Sound (.fills t id reply) m)
    (seconds : Float) :
    Sound .idle { m with loop := m.loop.sleep t seconds (.own (.loading id reply)) } := by
  obtain ⟨p, hp, ha, hz⟩ := h.stands
  refine h.loop (h.orderly.sleep (fun _ => ⟨p, hp, ha⟩) ⟨p, hp⟩ fun _ => hz) rfl trivial rfl
    (fun u hu => .inr ?_) nofun fun u hu _ _ => ?_
  · rintro ⟨q, hq, hs⟩
    obtain rfl : t = u := Option.some.inj hu
    rw [Loop.standing_sleep, if_pos rfl] at hq
    obtain ⟨_, -, rfl⟩ := Option.map_eq_some_iff.mp hq
    cases hs
  · have hne : u ≠ t := fun ht => hu (ht ▸ rfl)
    rw [Loop.standing_sleep, if_neg hne, Loop.due_sleep, if_neg hne]
    exact ⟨rfl, Nat.le_refl _⟩

theorem entitled (h : Sound φ m) (id : Json) (members : List (String × Json)) :
    Sound φ (entitled id members m) := by
  unfold Coordinator.entitled
  split <;> exact h.world rfl rfl rfl rfl

theorem fill (h : Sound φ m) (id record : Json) : Sound φ (fill id record m).1 := by
  unfold Coordinator.fill
  cases membersIn record with
  | error f => exact h
  | ok members => exact (h.entitled id _).talk (@furnish_exchange (fun _ => True) trivial _ _).talk

end Sound

theorem Move.sound {φ ψ : Phase} {m k : Coordinator} (h : Move φ m ψ k) (sound : Sound φ m) :
    Sound ψ k := by
  cases h with
  | skip ready gone =>
    exact sound.shift (sound.orderly.pop ready) rfl (fun _ => rfl) fun u _ _ _ =>
      Loop.due_takeUp ready u
  | leaveGroup ready nobody groups =>
    exact sound.shift ((sound.orderly.pop ready).regroup groups) rfl (fun _ => rfl) fun u _ _ _ =>
      Loop.due_takeUp ready u
  | count ready nobody id o =>
    have popped := sound.orderly.pop ready
    refine sound.shift (popped.count id o) rfl (fun u => Loop.standing_count _ _ _ _)
      fun u p hp ha => ?_
    exact Nat.le_trans (Nat.le_of_eq (popped.due_count_of_active id o hp ha))
      (Loop.due_takeUp ready u)
  | resume ready target stands apart =>
    refine sound.loop (sound.orderly.pop ready) rfl
      ⟨stands, sound.orderly.due_pop ready target stands⟩ rfl nofun (fun u hu => .inr ?_)
      fun u _ _ _ => ⟨rfl, Loop.due_takeUp ready u⟩
    rintro ⟨q, hq, hs⟩
    obtain rfl := Option.some.inj hu
    obtain rfl := Option.some.inj (stands.symm.trans hq)
    simp [apart] at hs
  | dequeue ready stands => exact sound.dequeue ready stands
  | reply ready stands => exact sound.reply ready stands
  | note | notify => exact sound.world rfl rfl rfl rfl
  | free t apart => exact sound.phase rfl rfl ⟨_, sound.stands.1⟩
  | save t o after => exact sound.phase rfl rfl ⟨_, sound.stands.1, rfl, sound.stands.2 rfl⟩
  | request t members => exact sound.phase rfl rfl ⟨_, sound.stands.1, rfl, sound.stands.2 rfl⟩
  | flush t waits =>
    exact Sound.cancel (sound.phase rfl rfl ⟨_, sound.stands.1, rfl, sound.stands.2 rfl⟩)
  | load t id =>
    have fills := sound.phase (ψ := .fills t id (loadReply m)) rfl rfl
      ⟨_, sound.stands.1, rfl, sound.stands.2 rfl⟩
    exact fills.cancel.world rfl rfl rfl rfl
  | loading t id reply => exact sound.phase rfl rfl ⟨_, sound.stands.1, rfl, sound.stands.2 rfl⟩
  | fire t => exact sound.fire
  | unsubscribe t =>
    unfold Coordinator.unsubscribe
    split
    · exact sound.world rfl rfl rfl rfl
    · exact sound
  | cancel t => exact sound.cancel
  | finish t o => exact sound.finish o
  | sleep t seconds rests => exact sound.sleep seconds rests
  | join t target rests => exact sound.join target rests
  | gather t targets rests => exact sound.gather targets rests
  | take t o unlocked => exact sound.take unlocked _
  | lineUp t o after locked => exact sound.lineUp _ after
  | drop t o epoch => exact sound.phase rfl rfl sound.stands
  | call t current built =>
    exact Sound.world (m := m) (sound.phase rfl rfl sound.stands) rfl rfl rfl rfl
  | await t call after seconds => exact sound.await after seconds
  | hear t call =>
    obtain ⟨loop, debouncer, _, _, same⟩ := hearing_same call m
    exact Sound.world (m := m) (sound.phase rfl rfl sound.stands) loop (congrArg _ debouncer)
      (by rw [same]; rfl) (by rw [same]; rfl)
  | release t => exact sound.release
  | awaitLoad t id reply seconds => exact sound.awaitLoad seconds
  | refuse t id reply failed =>
    obtain ⟨p, hp, -⟩ := sound.stands
    exact sound.phase rfl rfl ⟨p, hp⟩
  | fill t id reply found =>
    obtain ⟨p, hp, -⟩ := sound.stands
    have free : Sound (.free t) _ := sound.phase rfl rfl ⟨p, hp⟩
    exact free.fill id _

theorem Moves.sound {φ ψ : Phase} {m k : Coordinator} (h : Moves φ m ψ k) (sound : Sound φ m) :
    Sound ψ k := by
  induction h with
  | refl => exact sound
  | last h => exact h.sound sound
  | next h _ _ ih => exact ih (h.sound sound)

theorem Moves.busy_induction {J : Phase → Coordinator → Prop} {φ χ : Phase} {m n : Coordinator}
    (h : Moves φ m χ n) (sound : Sound φ m) (busy : φ.task?.isSome = true) (start : J φ m)
    (step : ∀ {φ m ψ k}, φ.task?.isSome = true → Sound φ m → Move φ m ψ k → J φ m → J ψ k) : J χ n := by
  induction h with
  | refl => exact start
  | last h => exact step busy sound h start
  | next h still _ ih => exact ih (h.sound sound) still (step busy sound h start)

theorem Sound.enter {m : Coordinator} (h : Sound .idle m) (e : Errand) :
    Sound (.resumes m.loop.fresh e.point) { m with loop := (m.loop.enter e.point).1 } := by
  have standing (u : TaskId) := Loop.standing_enter m.loop e.point u h.orderly.new
  have apart : inSave e.point = false := by cases e <;> rfl
  refine h.loop (h.orderly.enter _) rfl ⟨(standing _).trans (if_pos rfl), fun _ => ?_⟩ rfl nofun
    (fun u hu => .inr ?_) fun u _ hu _ => ?_
  · exact h.orderly.due_fresh
  · rintro ⟨p, hp, -⟩
    obtain rfl : m.loop.fresh = u := Option.some.inj hu
    exact absurd (h.orderly.standing_below hp) (Nat.lt_irrefl _)
  · exact ⟨(standing u).trans (if_neg fun ht : u = _ => hu (ht ▸ rfl)), Nat.le_refl _⟩

theorem Sound.spawn {m : Coordinator} (h : Sound .idle m) (e : Errand) :
    Sound .idle { m with loop := (m.loop.spawn e.point).1 } :=
  h.more (by cases e <;> rfl) (h.orderly.spawn _) rfl
    (fun u => Loop.standing_spawn _ _ u h.orderly.new) fun u => Loop.due_spawn _ _ u

theorem Sound.advance {m : Coordinator} (h : Sound .idle m) {l : TaskLoop}
    (ha : m.loop.advance? = some l) : Sound .idle { m with loop := l } :=
  h.shift (h.orderly.advance? ha) rfl (fun u => Loop.standing_advance? ha u) fun u _ _ _ =>
    Nat.le_of_eq (Loop.due_advance? ha u)

/-- What an operation comes to. -/
inductive Happens (m : Coordinator) : Operation → Coordinator → Prop where
  | exchange {o : Operation} {k : Coordinator} (talks : o.works = false)
      (h : Exchange (asked m o) m k) : Happens m o k
  | spawn (e : Errand) : Happens m (.spawn e) { m with loop := (m.loop.spawn e.point).1 }
  | enter {e : Errand} {k : Coordinator}
      (h : Moves (.resumes m.loop.fresh e.point) { m with loop := (m.loop.enter e.point).1 } .idle k) :
      Happens m (.enter e) k
  | turn {k : Coordinator} (h : Moves .idle m .idle k) : Happens m .turn k
  | advance {l : TaskLoop} (h : m.loop.advance? = some l) : Happens m .advance { m with loop := l }
  | still : Happens m .advance m

theorem perform_turn {m : Coordinator} (sound : Sound .idle m) :
    Moves .idle m .idle (perform m .turn) := by
  unfold perform
  cases h : host.turn? m with
  | none => exact .refl _ _
  | some k => exact turn_moves sound.orderly h

theorem perform_happens {m : Coordinator} (sound : Sound .idle m) (o : Operation) :
    Happens m o (perform m o) := by
  cases o with
  | start | parse _ | deliver _ | setConnected _ | edit _ | moveTable _ _ | postpone _ =>
    exact .exchange rfl (perform_exchange rfl m)
  | spawn e => exact .spawn e
  | enter e => exact .enter (enter_moves e sound.orderly.new)
  | turn => exact .turn (perform_turn sound)
  | advance =>
    unfold perform
    cases h : m.loop.advance? with
    | none => exact .still
    | some l => exact .advance h

theorem Sound.perform {m : Coordinator} (h : Sound .idle m) (o : Operation) :
    Sound .idle (perform m o) := by
  have happens := perform_happens h o
  generalize Coordinator.perform m o = k at happens ⊢
  cases happens with
  | exchange _ ht => exact h.talk ht.talk
  | spawn e => exact h.spawn e
  | enter hm => exact hm.sound (h.enter _)
  | turn hm => exact hm.sound h
  | advance ha => exact h.advance ha
  | still => exact h

theorem Sound.performAll {m : Coordinator} (h : Sound .idle m) (operations : List Operation) :
    Sound .idle (performAll operations m) :=
  performAll_induction h fun o _ _ hm => hm.perform o

/-- An invariant of the work of tasks under some operations, checked move by move. -/
structure Kept (allowed : Operation → Prop) (I : Phase → Coordinator → Prop) : Prop where
  talk : ∀ {o m k}, allowed o → Sound .idle m → Talk (asked m o) m k → I .idle m → I .idle k
  spawn : ∀ {e m}, allowed (.spawn e) → Sound .idle m → I .idle m →
    I .idle { m with loop := (m.loop.spawn e.point).1 }
  enter : ∀ {e m}, allowed (.enter e) → Sound .idle m → I .idle m →
    I (.resumes m.loop.fresh e.point) { m with loop := (m.loop.enter e.point).1 }
  move : ∀ {φ m ψ k}, Sound φ m → Move φ m ψ k → I φ m → I ψ k
  advance : ∀ {m l}, m.loop.advance? = some l → I .idle m → I .idle { m with loop := l }

section Kept

variable {allowed : Operation → Prop} {I : Phase → Coordinator → Prop} {m k : Coordinator}

theorem Kept.moves (kept : Kept allowed I) {φ ψ : Phase} (h : Moves φ m ψ k) (sound : Sound φ m)
    (hi : I φ m) : I ψ k := by
  induction h with
  | refl => exact hi
  | last h => exact kept.move sound h hi
  | next h _ _ ih => exact ih (h.sound sound) (kept.move sound h hi)

theorem Kept.perform (kept : Kept allowed I) {o : Operation} (ho : allowed o)
    (sound : Sound .idle m) (hi : I .idle m) : I .idle (perform m o) := by
  have happens := perform_happens sound o
  generalize Coordinator.perform m o = k at happens ⊢
  cases happens with
  | exchange _ ht => exact kept.talk ho sound ht.talk hi
  | spawn e => exact kept.spawn ho sound hi
  | enter hm => exact kept.moves hm (sound.enter _) (kept.enter ho sound hi)
  | turn hm => exact kept.moves hm sound hi
  | advance ha => exact kept.advance ha hi
  | still => exact hi

theorem Kept.performAll (kept : Kept allowed I) {operations : List Operation}
    (all : ∀ o ∈ operations, allowed o) (sound : Sound .idle m) (hi : I .idle m) :
    I .idle (performAll operations m) :=
  (performAll_induction (I := fun m => Sound .idle m ∧ I .idle m) ⟨sound, hi⟩
    fun o ho _ hm => ⟨hm.1.perform o, kept.perform (all o ho) hm.1 hm.2⟩).2

end Kept

theorem sound_fresh (settings : Settings) (delay : Float) (session : Session)
    (channel : Channel Inbound Unit) (notifier : Notifier Unit) (backend : Backend) :
    Sound .idle (fresh settings delay session channel notifier backend) := by
  have nobody (t : TaskId) (p : Debounce.Point Point Wait) :
      (fresh settings delay session channel notifier backend).loop.standing t ≠ some p :=
    (Option.some_ne_none p).symm
  refine ⟨Loop.orderly_empty, trivial, List.nodup_nil, fun t => ?_, (fun _ ht => nomatch ht),
    (fun h => nomatch h), fun t h => ?_, fun t _ h => ?_⟩
  · exact ⟨(fun ht => nomatch ht), fun ⟨_, _, _, _, h⟩ => absurd h (nobody t _)⟩
  · obtain ⟨_, _, h⟩ := h
    exact absurd h (nobody t _)
  · obtain ⟨_, _, h⟩ := h
    exact absurd h (nobody t _)

end Sync.Coordinator

end SchemaDiagram
