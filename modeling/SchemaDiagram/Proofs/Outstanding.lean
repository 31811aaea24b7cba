import SchemaDiagram.Proofs.Frames
import SchemaDiagram.Proofs.PlainRuns

/-!
The saves that are still to be sent, in the order in which they will be: the one that has the lock,
those that wait for it, the one that begins, those whose tasks are ready to begin, and the one that
waits out its window. A call takes the first of them, and every other move leaves them as they are,
but for one: a flush lets the last of them begin before those whose tasks are ready.
-/

set_option autoImplicit false

namespace SchemaDiagram

namespace Sync.Coordinator

open Decode (text nullable)

def Stance.begins? : Stance → Option Overrides
  | begins o => some o
  | rests | holds _ _ | calls _ | loads _ | fills _ _ => none

def Stance.holds? : Stance → Option Overrides
  | holds o _ => some o
  | rests | begins _ | calls _ | loads _ | fills _ _ => none

/-- The save that a task is to begin. -/
def toBegin (l : TaskLoop) (t : TaskId) : Option Overrides :=
  (l.standing t).bind fun p => (stanceOf p).begins?

/-- The save for which a task waits. -/
def toHold (l : TaskLoop) (t : TaskId) : Option Overrides :=
  (l.standing t).bind fun p => (stanceOf p).holds?

def announced (l : TaskLoop) : Callback → Option Overrides
  | .step t _ => toBegin l t
  | .ended _ _ _ => none

/-- The saves whose tasks are ready to begin, in the order in which they will. -/
def upcoming (l : TaskLoop) : List Overrides := l.ready.filterMap (announced l)

def lined (m : Coordinator) : List Overrides := m.world.queue.filterMap (toHold m.loop)

/-- The saves that are still to be sent. -/
def outstanding (φ : Phase) (m : Coordinator) : List Overrides :=
  φ.stance.holds?.toList ++ lined m ++ φ.stance.begins?.toList ++ upcoming m.loop ++
    m.debouncer.pending.toList

def payloads (m : Coordinator) : List Payload := m.world.trace.filterMap Event.payload?

def Awake (l : TaskLoop) : Prop := ∀ s ∈ l.sleepers, toBegin l s.task = none

structure Undisturbed (l l' : TaskLoop) : Prop where
  coming : upcoming l' = upcoming l
  awake : Awake l → Awake l'

section Upcoming

variable {asks : Overrides → Prop} {φ ψ : Phase} {m k : Coordinator} {l l' : TaskLoop} {t : TaskId}
  {who : TaskId → Prop}

theorem begins_of_rests {p : Debounce.Point Point Wait} (rests : active p = false) :
    (stanceOf p).begins? = none := by
  rw [stanceOf_of_rests rests]
  rfl

theorem toBegin_congr (same : l'.standing t = l.standing t) : toBegin l' t = toBegin l t := by
  unfold toBegin
  rw [same]

theorem toHold_congr (same : l'.standing t = l.standing t) : toHold l' t = toHold l t := by
  unfold toHold
  rw [same]

theorem toBegin_of_stands {p : Debounce.Point Point Wait} (stands : l.standing t = some p) :
    toBegin l t = (stanceOf p).begins? := by
  unfold toBegin
  rw [stands]
  rfl

theorem toHold_of_stands {p : Debounce.Point Point Wait} (stands : l.standing t = some p) :
    toHold l t = (stanceOf p).holds? := by
  unfold toHold
  rw [stands]
  rfl

theorem toBegin_of_passive (passive : l.Passive active t) : toBegin l t = none := by
  cases stands : l.standing t with
  | none =>
    unfold toBegin
    rw [stands]
    rfl
  | some p => exact (toBegin_of_stands stands).trans (begins_of_rests (passive.2 p stands))

theorem Undisturbed.of_grows (grows : l.Grows l' who) (silent : ∀ t, who t → toBegin l' t = none)
    (same : ∀ t, toBegin l' t = toBegin l t ∨
      toBegin l' t = none ∧ ∀ signal, .step t signal ∈ l.ready → toBegin l t = none) :
    Undisturbed l l' := by
  refine ⟨Loop.coming_of_grows grows silent same, fun awake s hs => ?_⟩
  rcases grows.sleepers s hs with hs | hs
  · exact (same s.task).elim (fun same => same.trans (awake s hs)) And.left
  · exact silent s.task hs

theorem Undisturbed.of_standing (grows : l.Grows l' who)
    (silent : ∀ t, who t → toBegin l t = none)
    (standing : ∀ t, l'.standing t = l.standing t) : Undisturbed l l' :=
  .of_grows grows (fun t ht => (toBegin_congr (standing t)).trans (silent t ht))
    fun t => .inl (toBegin_congr (standing t))

theorem Undisturbed.of_advance? (h : l.advance? = some l') (awake : Awake l) : Undisturbed l l' :=
  .of_standing (Loop.grows_advance? h) (fun _ ⟨s, hs, ht⟩ => ht ▸ awake s hs)
    (Loop.standing_advance? h)

theorem upcoming_of_spawn {p : Debounce.Point Point Wait}
    (ready : l'.ready = l.ready ++ [.step t .go]) (idle : l.due t = 0)
    (standing : ∀ u, l'.standing u = if u = t then some p else l.standing u) :
    upcoming l' = upcoming l ++ (stanceOf p).begins?.toList :=
  Loop.coming_of_spawn ready idle standing

theorem Awake.of_spawn {p : Debounce.Point Point Wait} (awake : Awake l)
    (sleepers : l'.sleepers = l.sleepers) (idle : l.due t = 0)
    (standing : ∀ u, l'.standing u = if u = t then some p else l.standing u) : Awake l' :=
  Loop.awake_of_spawn sleepers idle standing awake

theorem upcoming_enter {named : Option TaskId} (orderly : l.Orderly active named)
    (p : Debounce.Point Point Wait) : upcoming (l.enter p).1 = upcoming l := by
  refine List.filterMap_congr fun c hc => ?_
  cases c with
  | step t signal =>
    have old : t ≠ l.fresh := Nat.ne_of_lt (orderly.due_below t (Loop.due_pos_of_mem hc))
    exact toBegin_congr ((Loop.standing_enter l p t orderly.new).trans (if_neg old))
  | ended => rfl

theorem lined_congr (queue : k.world.queue = m.world.queue)
    (same : ∀ t ∈ m.world.queue, k.loop.standing t = m.loop.standing t) : lined k = lined m := by
  unfold lined
  rw [queue]
  exact List.filterMap_congr fun t ht => toHold_congr (same t ht)

theorem upcoming_takeUp {c : Callback} {rest : List Callback} (ready : m.loop.ready = c :: rest) :
    upcoming m.loop = (announced m.loop c).toList ++ upcoming (takeUp rest m).loop :=
  Loop.coming_pop ready

end Upcoming

structure Tidy (φ : Phase) (m : Coordinator) : Prop where
  never : ∀ t, m.loop.standing t ≠ some (.own .close)
  spent : ∀ t p, φ.task? = some t → m.loop.standing t = some p → active p = true → m.loop.due t = 0
  awake : Awake m.loop

def Sendable (m : Coordinator) : Prop := ∃ t, nullable text (session m).document.text = .ok t

/-- What a move does to the saves that are still to be sent: a call sends the first of them. -/
inductive Conserves (φ : Phase) (m : Coordinator) (ψ : Phase) (k : Coordinator) : Prop where
  | keeps (same : outstanding ψ k = outstanding φ m) (silent : payloads k = payloads m)
  | sends {o : Overrides} {payload : Payload} (first : outstanding φ m = o :: outstanding ψ k)
      (bare : o.members = []) (built : payloadOf o (session m) = .ok payload)
      (sent : payloads k = payloads m ++ [payload])
  | flush {t : TaskId} {o : Overrides} (phase : φ = .resumes t (.own .flush))
      (waits : m.debouncer.pending = some o)
      (last : outstanding φ m = lined m ++ upcoming m.loop ++ [o])
      (earlier : outstanding ψ k = lined m ++ [o] ++ upcoming m.loop)
      (silent : payloads k = payloads m)

section Conserves

variable {asks : Overrides → Prop} {φ ψ : Phase} {m k : Coordinator} {t : TaskId}

theorem outstanding_congr (held : ψ.stance.holds? = φ.stance.holds?)
    (begun : ψ.stance.begins? = φ.stance.begins?) (queue : lined k = lined m)
    (coming : upcoming k.loop = upcoming m.loop)
    (waits : k.debouncer.pending = m.debouncer.pending) : outstanding ψ k = outstanding φ m := by
  unfold outstanding
  rw [held, begun, queue, coming, waits]

theorem Tidy.quiet (tidy : Tidy φ m) (task : φ.task? = some t) {signal : Signal}
    (ready : .step t signal ∈ m.loop.ready) : toBegin m.loop t = none := by
  cases stands : m.loop.standing t with
  | none =>
    unfold toBegin
    rw [stands]
    rfl
  | some p =>
    cases ha : active p with
    | false => exact (toBegin_of_stands stands).trans (begins_of_rests ha)
    | true =>
      have due := Loop.due_pos_of_mem ready
      have none_due := tidy.spent t p task stands ha
      omega

theorem Undisturbed.of_moved (tidy : Tidy φ m) (task : φ.task? = some t) {l : TaskLoop}
    {place : Option (Debounce.Point Point Wait)} {who : TaskId → Prop} (grows : m.loop.Grows l who)
    (own : ∀ u, who u → u = t)
    (standing : ∀ u, l.standing u = if u = t then place else m.loop.standing u)
    (apart : ∀ p, place = some p → (stanceOf p).begins? = none) : Undisturbed m.loop l := by
  have silent : toBegin l t = none := by
    unfold toBegin
    rw [standing, if_pos rfl]
    cases place with
    | none => rfl
    | some p => exact apart p rfl
  refine .of_grows grows (fun u hu => own u hu ▸ silent) fun u => ?_
  by_cases same : u = t
  · exact .inr (same ▸ ⟨silent, fun _ => tidy.quiet task⟩)
  · exact .inl (toBegin_congr ((standing u).trans (if_neg same)))

theorem lined_of_new {p : Debounce.Point Point Wait} (sound : Sound φ m)
    (queue : k.world.queue = m.world.queue)
    (standing : ∀ u, k.loop.standing u = if u = m.loop.fresh then some p else m.loop.standing u) :
    lined k = lined m := by
  refine lined_congr queue fun u hu => (standing u).trans (if_neg ?_)
  obtain ⟨_, _, _, stands⟩ := ((sound.queued u).mp hu).2
  exact Nat.ne_of_lt (sound.orderly.standing_below stands)

theorem Sound.ne_of_queued (sound : Sound φ m) (task : φ.task? = some t) {u : TaskId}
    (waits : u ∈ m.world.queue) : u ≠ t := by
  rintro rfl
  exact ((sound.queued u).mp waits).1 task

theorem Move.still_lined (h : Move φ m ψ k) (sound : Sound φ m) (task : φ.task? = some t)
    (queue : k.world.queue = m.world.queue) : lined k = lined m := by
  refine lined_congr queue fun u hu => ?_
  obtain ⟨_, _, _, waits⟩ := ((sound.queued u).mp hu).2
  have other : φ.task? ≠ some u := fun hu' =>
    sound.ne_of_queued task hu (Option.some.inj (hu'.symm.trans task))
  exact (h.stays sound waits other).trans waits.symm

theorem Move.undisturbed_of_end (h : Move φ m .idle k) (plain : Plain asks φ m) (tidy : Tidy φ m)
    (task : φ.task? = some t) : Undisturbed m.loop k.loop := by
  have apart_of_map {place : Option (Debounce.Point Point Wait)} {p : Debounce.Point Point Wait}
      (apart : (stanceOf p).begins? = none) :
      ∀ q, (place.map fun _ => p) = some q → (stanceOf q).begins? = none := by
    intro q hq
    obtain ⟨_, -, rfl⟩ := Option.map_eq_some_iff.mp hq
    exact apart
  have stance := plain.phase
  cases h with
  | skip | leaveGroup | count | note | notify => cases task
  | finish u o =>
    exact .of_moved tidy rfl (Loop.grows_finish m.loop u o) (fun _ hu => hu.elim)
      (fun v => Loop.standing_finish _ _ v _) fun _ hp => by cases hp
  | sleep u seconds rests =>
    exact .of_moved tidy rfl (Loop.grows_sleep m.loop u seconds _) (fun _ hu => hu)
      (fun v => Loop.standing_sleep _ _ v _ _) (apart_of_map (begins_of_rests rests))
  | join u target rests =>
    exact .of_moved tidy rfl (Loop.grows_join m.loop u target _) (fun _ hu => hu.elim)
      (fun v => Loop.standing_join _ _ _ v _) (apart_of_map (begins_of_rests rests))
  | gather u targets rests =>
    exact .of_moved tidy rfl (Loop.grows_gather m.loop u targets _) (fun _ hu => hu.elim)
      (fun v => Loop.standing_gather _ _ v _ _) (apart_of_map (begins_of_rests rests))
  | lineUp u o after =>
    exact .of_moved tidy rfl (Loop.grows_wait m.loop u _) (fun _ hu => hu.elim)
      (fun v => Loop.standing_wait _ _ v _) (apart_of_map rfl)
  | await u call after seconds =>
    exact .of_moved tidy rfl (Loop.grows_sleep m.loop u seconds _) (fun _ hu => hu)
      (fun v => Loop.standing_sleep _ _ v _ _) (apart_of_map rfl)
  | awaitLoad => exact stance.elim

theorem undisturbed_cancel (sound : Sound φ m) : Undisturbed m.loop m.cancel.loop := by
  have standing := standing_cancel m
  cases window : m.debouncer.window with
  | none =>
    have same : m.cancel.loop = m.loop := by simp only [Debounce.Machine.cancel, window]
    exact same ▸ ⟨rfl, id⟩
  | some w =>
    have loop : m.cancel.loop = m.loop.cancel w := by simp only [Debounce.Machine.cancel, window]
    have passive := sound.orderly.passive w (.inr window)
    rw [loop] at standing ⊢
    exact .of_standing (Loop.grows_cancel m.loop w) (fun t ht => ht ▸ toBegin_of_passive passive)
      standing

theorem undisturbed_count (orderly : m.loop.Orderly active m.debouncer.window) (id : Nat)
    (o : Outcome) : Undisturbed m.loop (m.loop.count id o) := by
  refine .of_standing (Loop.grows_count m.loop id o) (fun t ⟨g, hg, waits⟩ => ?_)
    (Loop.standing_count m.loop id o)
  exact toBegin_of_passive (orderly.passive t (.inl (.gathering hg waits)))

theorem undisturbed_wake (sound : Sound φ m) (waits : t ∈ m.world.queue) :
    Undisturbed m.loop (m.loop.wake t) := by
  obtain ⟨_, _, _, stands⟩ := ((sound.queued t).mp waits).2
  refine .of_standing (Loop.grows_push_step m.loop t .go) (fun u hu => ?_) fun _ => rfl
  exact hu ▸ toBegin_of_stands stands

theorem lined_cancel (m : Coordinator) : lined m.cancel = lined m :=
  lined_congr (by rw [cancel_world]) fun t _ => standing_cancel m t

theorem payloads_cancel (m : Coordinator) : payloads m.cancel = payloads m := by
  unfold payloads
  rw [cancel_world]

theorem payloads_fired (m : Coordinator) : payloads (fired m) = payloads m := by
  unfold fired
  cases m.debouncer.pending <;> rfl

theorem payloadOf_sendable {o : Overrides} (sendable : Sendable m) (bare : o.members = []) :
    ∃ payload, payloadOf o (session m) = .ok payload := by
  obtain ⟨t, ht⟩ := sendable
  rw [payloadOf_plain _ bare, ht]
  exact ⟨_, rfl⟩

theorem holds_of_apart {p : Debounce.Point Point Wait} (apart : inSave p = false) :
    (stanceOf p).holds? = none := by
  cases p with
  | window _ | quiet _ | pause _ _ => rfl
  | own a => cases a <;> first | rfl | cases apart

theorem begins_of_spared {p : Debounce.Point Point Wait} (spared : Spared p)
    (bare : ∀ o, stanceOf p = .begins o → o.members = []) : (stanceOf p).begins? = none := by
  cases p with
  | window _ | quiet _ | pause _ _ => rfl
  | own a =>
    cases a with
    | request members =>
      obtain ⟨f, refused⟩ := spared
      obtain rfl : members = [] := bare _ rfl
      cases refused
    | save _ _ => exact spared.elim
    | queued _ _ _ | sending _ _ | flush | drain | close | spawned _ | load _ | loading _ _ => rfl

theorem announced_of_target {c : Callback} {p : Debounce.Point Point Wait} (sound : Sound φ m)
    (ready : c ∈ m.loop.ready) (target : c.target? = some t)
    (stands : m.loop.standing t = some p) : announced m.loop c = (stanceOf p).begins? := by
  cases c with
  | step u signal =>
    obtain rfl := Option.some.inj target
    exact toBegin_of_stands stands
  | ended u o x =>
    -- who waits for the end of another task is at rest
    have passive := sound.orderly.passive t (.inl (.ready ready target))
    exact (begins_of_rests (passive.2 p stands)).symm

theorem announced_of_gone {c : Callback}
    (gone : ∀ t, c.target? = some t → m.loop.standing t = none) : announced m.loop c = none := by
  cases c with
  | step t signal =>
    change toBegin m.loop t = none
    unfold toBegin
    rw [gone t rfl]
    rfl
  | ended => rfl

theorem announced_of_nobody {c : Callback} (nobody : c.target? = none) : announced m.loop c = none :=
  announced_of_gone fun _ target => nomatch nobody.symm.trans target

theorem upcoming_of_unannounced {c : Callback} {rest : List Callback}
    (ready : m.loop.ready = c :: rest) (none : announced m.loop c = none) :
    upcoming (takeUp rest m).loop = upcoming m.loop := by
  rw [upcoming_takeUp ready, none]
  rfl

theorem lined_of_head {o : Overrides} {epoch : Nat} {after : AfterSave}
    (head : m.world.queue.head? = some t)
    (stands : m.loop.standing t = some (.own (.queued o epoch after))) :
    lined m = o :: (m.world.queue.erase t).filterMap (toHold m.loop) := by
  obtain ⟨others, queue⟩ := List.head?_eq_some_iff.mp head
  have held : toHold m.loop t = some o := toHold_of_stands stands
  unfold lined
  rw [queue, List.filterMap_cons, held, List.erase_cons_head]

theorem outstanding_resume {c : Callback} {rest : List Callback} {p : Debounce.Point Point Wait}
    (sound : Sound .idle m) (ready : m.loop.ready = c :: rest) (target : c.target? = some t)
    (stands : m.loop.standing t = some p) (apart : inSave p = false) :
    outstanding (.resumes t p) (takeUp rest m) = outstanding .idle m := by
  have head := announced_of_target sound (ready ▸ List.mem_cons_self) target stands
  unfold outstanding
  rw [upcoming_takeUp ready, head]
  change (stanceOf p).holds?.toList ++ lined m ++ (stanceOf p).begins?.toList ++ _ ++ _ =
    [] ++ lined m ++ [] ++ _ ++ _
  rw [holds_of_apart apart]
  simp [List.append_assoc, takeUp]

theorem outstanding_dequeue {rest : List Callback} {signal : Signal} {o : Overrides} {epoch : Nat}
    {after : AfterSave} (sound : Sound .idle m) (ready : m.loop.ready = .step t signal :: rest)
    (stands : m.loop.standing t = some (.own (.queued o epoch after))) :
    outstanding (.holds t o epoch) ((takeUp rest m).withWorld
      { m.world with saving := true, queue := m.world.queue.erase t }) = outstanding .idle m := by
  have waits : t ∈ m.world.queue := (sound.queued t).mpr ⟨nofun, o, epoch, after, stands⟩
  have first := (sound.head t waits (Loop.due_pos_of_ready ready)).2
  have none : announced m.loop (.step t signal) = none := toBegin_of_stands stands
  unfold outstanding
  rw [lined_of_head first stands, ← upcoming_of_unannounced ready none]
  rfl

theorem outstanding_take {o : Overrides} (empty : m.world.queue = []) :
    outstanding (.holds t o m.world.epoch) (m.withWorld { m.world with saving := true }) =
      outstanding (.begins t o) m := by
  have queue : lined m = [] := by
    unfold lined
    rw [empty]
    rfl
  have queue' : lined (m.withWorld { m.world with saving := true }) = [] := queue
  unfold outstanding
  rw [queue, queue']
  rfl

/-- What waited is sent before the tasks that are ready: only here does the order change. -/
theorem conserves_flush {o : Overrides} (sound : Sound (.resumes t (.own .flush)) m)
    (waits : m.debouncer.pending = some o) :
    Conserves (.resumes t (.own .flush)) m (.begins t o) m.cancel := by
  refine .flush rfl waits ?_ ?_ (payloads_cancel m)
  · unfold outstanding
    rw [waits]
    simp [Phase.stance, stanceOf, Stance.holds?, Stance.begins?]
  · unfold outstanding
    rw [lined_cancel, (undisturbed_cancel sound).coming]
    simp [Phase.stance, Stance.holds?, Stance.begins?, Debounce.Machine.cancel]

theorem outstanding_fired (sound : Sound (.free t) m) :
    outstanding (.free t) (fired m) = outstanding (.free t) m := by
  unfold fired
  cases waits : m.debouncer.pending with
  | none => exact outstanding_congr rfl rfl rfl rfl waits.symm
  | some o =>
    have standing (u : TaskId) := Loop.standing_spawnIn m.loop .fired
      (.own (.save o .answer)) u sound.orderly.new
    have queue : lined { m with
        debouncer := { m.debouncer with window := none, pending := none }
        loop := (m.loop.spawnIn .fired (.own (.save o .answer))).1 } = lined m :=
      lined_of_new sound rfl standing
    have coming := upcoming_of_spawn rfl sound.orderly.due_fresh standing
    unfold outstanding
    rw [queue, coming, waits]
    simp [Phase.stance, Stance.holds?, Stance.begins?, stanceOf]

theorem outstanding_lineUp {o : Overrides} {after : AfterSave} (sound : Sound (.begins t o) m)
    (coming : upcoming (m.loop.wait t (.own (.queued o m.world.epoch after))) = upcoming m.loop) :
    outstanding .idle { m.withWorld { m.world with queue := m.world.queue ++ [t] } with
      loop := m.loop.wait t (.own (.queued o m.world.epoch after)) } =
      outstanding (.begins t o) m := by
  obtain ⟨p, hp, -⟩ := sound.stands
  have standing (u : TaskId) :=
    Loop.standing_wait m.loop t u (.own (.queued o m.world.epoch after))
  have old : m.world.queue.filterMap
      (toHold (m.loop.wait t (.own (.queued o m.world.epoch after)))) = lined m :=
    List.filterMap_congr fun u hu =>
      toHold_congr ((standing u).trans (if_neg (sound.ne_of_queued rfl hu)))
  have own : toHold (m.loop.wait t (.own (.queued o m.world.epoch after))) t = some o := by
    have stands := standing t
    rw [if_pos rfl, hp] at stands
    exact toHold_of_stands stands
  unfold outstanding lined at *
  simp only [Debounce.Machine.withWorld, List.filterMap_append, old, coming, own,
    List.filterMap_cons, List.filterMap_nil]
  simp [Phase.stance, Stance.holds?, Stance.begins?]

theorem Move.conserves (h : Move φ m ψ k) (sound : Sound φ m) (plain : Plain asks φ m)
    (bare : ∀ o, asks o → o.members = []) (tidy : Tidy φ m) (sendable : Sendable m) :
    Conserves φ m ψ k := by
  have stance := plain.phase
  have whole := h
  cases h with
  | skip ready gone =>
    have coming := upcoming_of_unannounced ready (announced_of_gone gone)
    exact .keeps (outstanding_congr rfl rfl rfl coming rfl) rfl
  | leaveGroup ready nobody groups =>
    have coming := upcoming_of_unannounced ready (announced_of_nobody nobody)
    exact .keeps (outstanding_congr rfl rfl rfl coming rfl) rfl
  | count ready nobody id o =>
    rename_i c rest
    have standing := Loop.standing_count (takeUp rest m).loop id o
    refine .keeps (outstanding_congr rfl rfl (lined_congr rfl fun t _ => standing t) ?_ rfl) rfl
    rw [← upcoming_of_unannounced ready (announced_of_nobody nobody)]
    exact (undisturbed_count (m := takeUp rest m) (sound.orderly.pop ready) id o).coming
  | resume ready target stands apart =>
    exact .keeps (outstanding_resume sound ready target stands apart) rfl
  | dequeue ready stands => exact .keeps (outstanding_dequeue sound ready stands) rfl
  | reply ready stands =>
    have coming := upcoming_of_unannounced ready (toBegin_of_stands stands)
    exact .keeps (outstanding_congr rfl rfl rfl coming rfl) rfl
  | note => exact .keeps (outstanding_congr rfl rfl rfl rfl rfl) rfl
  | notify _ _ n =>
    refine .keeps (outstanding_congr rfl rfl rfl rfl rfl) ?_
    change (m.world.trace ++ [Event.note n]).filterMap Event.payload? = _
    simp [payloads, Event.payload?]
  | free t apart spared =>
    rename_i p
    refine .keeps (outstanding_congr (holds_of_apart apart.2).symm ?_ rfl rfl rfl) rfl
    refine (begins_of_spared spared fun o ho => bare o ?_).symm
    change Stance.Plain asks _ (stanceOf p) at stance
    rw [ho] at stance
    exact stance
  | save | request => exact .keeps (outstanding_congr rfl rfl rfl rfl rfl) rfl
  | flush t waits => exact conserves_flush sound waits
  | load | loading | awaitLoad | refuse | fill => exact stance.elim
  | fire t => exact .keeps (outstanding_fired sound) (payloads_fired m)
  | unsubscribe t =>
    unfold Coordinator.unsubscribe
    split <;> exact .keeps (outstanding_congr rfl rfl rfl rfl rfl) rfl
  | cancel t idle =>
    have waits : m.debouncer.pending = none := idle.resolve_right (tidy.never t)
    have coming := (undisturbed_cancel sound).coming
    exact .keeps (outstanding_congr rfl rfl (lined_cancel m) coming waits.symm) (payloads_cancel m)
  | finish | sleep | join | gather | await =>
    have calm := whole.undisturbed_of_end plain tidy rfl
    exact .keeps (outstanding_congr rfl rfl (whole.still_lined sound rfl rfl) calm.coming rfl) rfl
  | take t o unlocked => exact .keeps (outstanding_take unlocked.2) rfl
  | lineUp t o after locked =>
    have calm := whole.undisturbed_of_end plain tidy rfl
    exact .keeps (outstanding_lineUp sound calm.coming) rfl
  | drop t o epoch vain =>
    obtain ⟨asked, current⟩ := stance
    obtain ⟨payload, built⟩ := payloadOf_sendable sendable (bare o asked)
    -- neither reason to drop a save applies: no load has begun, and the text can be sent
    rcases vain with past | ⟨ds, rejected⟩
    · exact absurd current past
    · cases built.symm.trans rejected
  | call t current built =>
    refine .sends rfl (bare _ stance.1) built ?_
    unfold calling payloads
    simp [Debounce.Machine.withWorld, witness, Event.payload?]
  | hear t call =>
    obtain ⟨loop, debouncer, s, lastSaved, world⟩ := hearing_same call m
    have queue : lined (hearing call m) = lined m :=
      lined_congr (by rw [world]; rfl) fun u _ => by rw [loop]
    refine .keeps (outstanding_congr rfl rfl queue (by rw [loop]) (by rw [debouncer])) ?_
    unfold payloads
    rw [world]
    simp [answered, Debounce.Machine.withWorld, witness, Event.payload?]
  | release t =>
    unfold Coordinator.release
    simp only
    split
    · exact .keeps (outstanding_congr rfl rfl rfl rfl rfl) rfl
    · rename_i first others queue
      have waits : first ∈ m.world.queue := queue ▸ List.mem_cons_self
      have coming := (undisturbed_wake sound waits).coming
      exact .keeps (outstanding_congr rfl rfl rfl coming rfl) rfl

theorem Move.awake (h : Move φ m ψ k) (sound : Sound φ m) (plain : Plain asks φ m)
    (tidy : Tidy φ m) : Awake k.loop := by
  have awake := tidy.awake
  have stance := plain.phase
  have whole := h
  cases h with
  | skip | leaveGroup | resume | dequeue | reply | note | notify | free | save | request | take
  | drop | call => exact awake
  | count ready nobody id o =>
    rename_i c rest
    exact (undisturbed_count (m := takeUp rest m) (sound.orderly.pop ready) id o).awake awake
  | flush | cancel => exact (undisturbed_cancel sound).awake awake
  | load | loading | awaitLoad | refuse | fill => exact stance.elim
  | fire t =>
    unfold fired
    cases m.debouncer.pending with
    | none => exact awake
    | some o =>
      exact awake.of_spawn rfl sound.orderly.due_fresh
        fun u => Loop.standing_spawnIn m.loop .fired (.own (.save o .answer)) u sound.orderly.new
  | unsubscribe t =>
    unfold Coordinator.unsubscribe
    split <;> exact awake
  | finish | sleep | join | gather | lineUp | await =>
    exact (whole.undisturbed_of_end plain tidy rfl).awake awake
  | hear t call =>
    obtain ⟨loop, -⟩ := hearing_same call m
    exact loop ▸ awake
  | release t =>
    unfold Coordinator.release
    simp only
    split
    · exact awake
    · rename_i first others queue
      exact (undisturbed_wake sound (t := first) (queue ▸ List.mem_cons_self)).awake awake

theorem Move.spent (h : Move φ m ψ k) (sound : Sound φ m) (plain : Plain asks φ m)
    (tidy : Tidy φ m) {p : Debounce.Point Point Wait} (task : ψ.task? = some t)
    (stands : k.loop.standing t = some p) (act : active p = true) : k.loop.due t = 0 := by
  have own := (h.sound sound).stands
  have stance := plain.phase
  cases ψ with
  | idle => cases task
  | resumes u q =>
    obtain rfl := Option.some.inj task
    obtain rfl := Option.some.inj (own.1.symm.trans stands)
    exact own.2 act
  | begins u _ | holds u _ _ | calls u _ | leaves u | fills u _ _ =>
    obtain rfl := Option.some.inj task
    obtain ⟨_, -, -, idle⟩ := own
    exact idle
  | free u =>
    obtain rfl := Option.some.inj task
    cases h with
    | note | notify => exact tidy.spent u p rfl stands act
    | free =>
      obtain rfl := Option.some.inj (sound.stands.1.symm.trans stands)
      exact sound.stands.2 act
    | fire =>
      revert stands
      unfold fired
      cases m.debouncer.pending with
      | none => exact fun stands => tidy.spent u p rfl stands act
      | some o =>
        intro stands
        obtain ⟨q, hq⟩ := sound.stands
        have old : u ≠ m.loop.fresh := Nat.ne_of_lt (sound.orderly.standing_below hq)
        have before : m.loop.standing u = some p :=
          ((Loop.standing_spawnIn _ _ _ u sound.orderly.new).trans (if_neg old)).symm.trans stands
        have due := Loop.due_spawnIn m.loop .fired (.own (.save o .answer)) u
        rw [if_neg old, tidy.spent u p rfl before act] at due
        exact due
    | unsubscribe =>
      revert stands
      unfold Coordinator.unsubscribe
      split <;> exact fun stands => tidy.spent u p rfl stands act
    | cancel =>
      have before : m.loop.standing u = some p := (standing_cancel m u).symm.trans stands
      have idle := tidy.spent u p rfl before act
      revert idle
      unfold Debounce.Machine.cancel
      cases window : m.debouncer.window with
      | none => exact id
      | some w =>
        have other := (sound.orderly.passive w (.inr window)).ne_of_active before act
        exact fun idle => (Loop.due_cancel m.loop other).trans idle
    | release =>
      obtain ⟨_, -, -, idle⟩ := sound.stands
      unfold Coordinator.release
      simp only
      split
      · exact idle
      · rename_i first others queue
        have other := sound.ne_of_queued rfl (queue ▸ List.mem_cons_self : first ∈ m.world.queue)
        have due := Loop.due_push_step m.loop first u .go
        rw [if_neg other.symm, idle] at due
        exact due
    | refuse | fill => exact stance.elim

theorem Move.tidy (h : Move φ m ψ k) (sound : Sound φ m) (plain : Plain asks φ m)
    (tidy : Tidy φ m) : Tidy ψ k := by
  refine ⟨fun u hu => ?_, fun u p task stands act => h.spent sound plain tidy task stands act,
    h.awake sound plain tidy⟩
  cases h.placed sound u with
  | keeps same _ => exact tidy.never u (same.symm.trans hu)
  | changes _ comes =>
    cases comes _ hu with
    | rests rests => cases rests

theorem Talk.awake (talk : Talk asks m k) (sound : Sound .idle m) (awake : Awake m.loop) :
    Awake k.loop := by
  induction talk with
  | told h => exact h.loop ▸ awake
  | schedule m _ =>
    have cancelled := sound.cancel.orderly
    have standing (u : TaskId) := Loop.standing_spawn m.cancel.loop (.window false) u cancelled.new
    exact Awake.of_spawn (l := m.cancel.loop) ((undisturbed_cancel sound).awake awake) rfl
      cancelled.due_fresh standing
  | @spawn m schema _ =>
    exact awake.of_spawn rfl sound.orderly.due_fresh
      fun u => Loop.standing_spawnIn m.loop .spawned
        (.own (.save { schema := some schema } .answer)) u sound.orderly.new
  | trans h _ ih ih' => exact ih' (sound.talk h) (ih sound awake)

theorem point_ne_close {e : Errand} (plain : e.plain = true) : e.point ≠ .own .close := by
  intro closes
  cases e with
  | close => cases plain
  | save _ | flush | drain | load _ | pause _ => cases closes

namespace Tidy

theorem talk (tidy : Tidy .idle m) (sound : Sound .idle m) (talk : Talk asks m k) :
    Tidy .idle k := by
  refine ⟨fun u hu => ?_, (fun _ _ task => nomatch task), talk.awake sound tidy.awake⟩
  rcases talk.placed sound u with same | ⟨-, p, hp, spoken⟩
  · exact tidy.never u (same.symm.trans hu)
  · obtain rfl := Option.some.inj (hp.symm.trans hu)
    cases spoken

theorem spawn (tidy : Tidy .idle m) (sound : Sound .idle m) {e : Errand} (plain : e.plain = true) :
    Tidy .idle { m with loop := (m.loop.spawn e.point).1 } := by
  have standing (u : TaskId) := Loop.standing_spawn m.loop e.point u sound.orderly.new
  refine ⟨fun u hu => ?_, (fun _ _ task => nomatch task),
    tidy.awake.of_spawn rfl sound.orderly.due_fresh standing⟩
  rw [standing] at hu
  split at hu
  · exact point_ne_close plain (Option.some.inj hu)
  · exact tidy.never u hu

theorem enter (tidy : Tidy .idle m) (sound : Sound .idle m) {e : Errand} (plain : e.plain = true) :
    Tidy (.resumes m.loop.fresh e.point) { m with loop := (m.loop.enter e.point).1 } := by
  have standing (u : TaskId) := Loop.standing_enter m.loop e.point u sound.orderly.new
  refine ⟨fun u hu => ?_, fun u p task _ _ => ?_,
    tidy.awake.of_spawn rfl sound.orderly.due_fresh standing⟩
  · rw [standing] at hu
    split at hu
    · exact point_ne_close plain (Option.some.inj hu)
    · exact tidy.never u hu
  · obtain rfl := Option.some.inj task
    exact sound.orderly.due_fresh

theorem advance (tidy : Tidy .idle m) {l : TaskLoop} (ha : m.loop.advance? = some l) :
    Tidy .idle { m with loop := l } :=
  ⟨fun t ht => tidy.never t ((Loop.standing_advance? ha t).symm.trans ht),
    (fun _ _ task => nomatch task), (Undisturbed.of_advance? ha tidy.awake).awake tidy.awake⟩

theorem moves (tidy : Tidy φ m) (sound : Sound φ m) (plain : Plain asks φ m)
    (moves : Moves φ m ψ k) : Tidy ψ k := by
  induction moves with
  | refl => exact tidy
  | last h => exact h.tidy sound plain tidy
  | next h _ _ ih => exact ih (h.tidy sound plain tidy) (h.sound sound) (plain.move sound h)

theorem perform (tidy : Tidy .idle m) (sound : Sound .idle m) (plain : Plain asks .idle m)
    {o : Operation} (own : o.plain = true) (asks_all : ∀ ov, asked m o ov → asks ov) :
    Tidy .idle (Coordinator.perform m o) := by
  have happens := perform_happens sound o
  generalize Coordinator.perform m o = k at happens ⊢
  cases happens with
  | exchange _ exchange => exact tidy.talk sound exchange.talk
  | spawn e => exact tidy.spawn sound own
  | @enter e _ moves =>
    have entered := plain.enter sound own asks_all
    exact (tidy.enter sound own).moves (sound.enter e) entered moves
  | turn moves => exact tidy.moves sound plain moves
  | advance ha => exact tidy.advance ha
  | still => exact tidy

theorem fresh (settings : Settings) (delay : Float) (start : Session)
    (channel : Channel Inbound Unit) (notifier : Notifier Unit) (backend : Backend) :
    Tidy .idle (Coordinator.fresh settings delay start channel notifier backend) := by
  refine ⟨fun t ht => ?_, fun t p task => ?_, fun s hs => ?_⟩
  · exact not_takes_fresh (.place nofun ht rfl)
  · cases task
  · cases hs

end Tidy

theorem outstanding_idle (m : Coordinator) :
    outstanding .idle m = lined m ++ upcoming m.loop ++ m.debouncer.pending.toList := by
  simp [outstanding, Phase.stance, Stance.holds?, Stance.begins?]

theorem Told.outstanding (h : Told m k) : outstanding .idle k = outstanding .idle m := by
  have queue : lined k = lined m := lined_congr h.world.queue fun t _ => by rw [h.loop]
  exact outstanding_congr rfl rfl queue (by rw [h.loop]) (by rw [h.debouncer])

theorem outstanding_spawn (sound : Sound .idle m) (e : Errand) :
    outstanding .idle { m with loop := (m.loop.spawn e.point).1 } =
      lined m ++ upcoming m.loop ++ (stanceOf e.point).begins?.toList ++
        m.debouncer.pending.toList := by
  have standing (u : TaskId) := Loop.standing_spawn m.loop e.point u sound.orderly.new
  have queue : lined { m with loop := (m.loop.spawn e.point).1 } = lined m :=
    lined_of_new sound rfl standing
  have coming := upcoming_of_spawn (l := m.loop) rfl sound.orderly.due_fresh standing
  rw [outstanding_idle, queue, coming]
  simp only [List.append_assoc]

theorem outstanding_enter (sound : Sound .idle m) (e : Errand) :
    outstanding (.resumes m.loop.fresh e.point) { m with loop := (m.loop.enter e.point).1 } =
      lined m ++ (stanceOf e.point).begins?.toList ++
        (upcoming m.loop ++ m.debouncer.pending.toList) := by
  have standing (u : TaskId) := Loop.standing_enter m.loop e.point u sound.orderly.new
  have queue : lined { m with loop := (m.loop.enter e.point).1 } = lined m :=
    lined_of_new sound rfl standing
  have apart : inSave e.point = false := by cases e <;> rfl
  unfold outstanding
  rw [queue, upcoming_enter sound.orderly]
  simp [Phase.stance, holds_of_apart apart]

theorem outstanding_advance (tidy : Tidy .idle m) {l : TaskLoop} (ha : m.loop.advance? = some l) :
    outstanding .idle { m with loop := l } = outstanding .idle m := by
  have queue : lined { m with loop := l } = lined m :=
    lined_congr rfl fun t _ => Loop.standing_advance? ha t
  exact outstanding_congr rfl rfl queue (Undisturbed.of_advance? ha tidy.awake).coming rfl

end Conserves

end Sync.Coordinator

end SchemaDiagram
