import SchemaDiagram.Proofs.SaveLock

/-!
Where tasks stand after a move. Only the task that has its turn leaves its place, and each place it
may take says from which phase of its work it was taken. What is said of every task at its place is
therefore kept by all moves once it is kept by the few that give a place. What a task is about is the same whether it waits at a place or has its turn
there.
-/

set_option autoImplicit false

namespace SchemaDiagram.Sync.Coordinator

/-- How a task may have come to a place, by a move out of a phase. -/
inductive Comes (φ : Phase) (m : Coordinator) (t : TaskId) : Debounce.Point Point Wait → Prop where
  | rests {p : Debounce.Point Point Wait} (rests : active p = false) : Comes φ m t p
  | fires {o : Overrides} (waits : m.debouncer.pending = some o) :
      Comes φ m t (.own (.save o .answer))
  | linesUp {o : Overrides} (after : AfterSave) (phase : φ = .begins t o) :
      Comes φ m t (.own (.queued o m.world.epoch after))
  | awaits {call : SaveCall} (after : AfterSave) (phase : φ = .calls t call) :
      Comes φ m t (.own (.sending call after))
  | loads {id : Json} {reply : Reply} (phase : φ = .fills t id reply) :
      Comes φ m t (.own (.loading id reply))

/-- The place of a task after a move: its own, with its turn, if it had it; or a new one. -/
inductive Placed (φ : Phase) (m : Coordinator) (ψ : Phase) (k : Coordinator) (t : TaskId) : Prop where
  | keeps (same : k.loop.standing t = m.loop.standing t)
      (turn : φ.task? = some t → ψ.task? = some t)
  | changes (left : φ.task? = some t ∧ ψ.task? = none ∨ m.loop.standing t = none)
      (comes : ∀ p, k.loop.standing t = some p → Comes φ m t p)

section Placed

variable {φ ψ : Phase} {m k : Coordinator} {t : TaskId}

theorem Placed.of_moved {place : Option (Debounce.Point Point Wait)} (task : φ.task? = some t)
    (standing : ∀ u, k.loop.standing u = if u = t then place else m.loop.standing u)
    (comes : ∀ p, place = some p → Comes φ m t p) (u : TaskId) : Placed φ m .idle k u := by
  by_cases hu : u = t
  · subst u
    refine .changes (.inl ⟨task, rfl⟩) fun p hp => comes p ?_
    rw [← hp, standing, if_pos rfl]
  · refine .keeps ((standing u).trans (if_neg hu)) fun ht => ?_
    exact absurd (Option.some.inj (ht.symm.trans task)) hu

theorem comes_of_map {q : Option (Debounce.Point Point Wait)} {p : Debounce.Point Point Wait}
    (comes : Comes φ m t p) : ∀ r, (q.map fun _ => p) = some r → Comes φ m t r := by
  intro r hr
  obtain ⟨_, -, rfl⟩ := Option.map_eq_some_iff.mp hr
  exact comes

theorem standing_cancel (m : Coordinator) (t : TaskId) :
    m.cancel.loop.standing t = m.loop.standing t := by
  unfold Debounce.Machine.cancel
  cases m.debouncer.window with
  | none => rfl
  | some w => exact Loop.standing_cancel _ _ _

inductive Spoken (asks : Overrides → Prop) : Debounce.Point Point Wait → Prop where
  | window : Spoken asks (.window false)
  | save {schema : Schema} (asked : asks { schema := some schema }) :
      Spoken asks (.own (.save { schema := some schema } .answer))

theorem Talk.placed {asks : Overrides → Prop} (h : Talk asks m k) (sound : Sound φ m) (u : TaskId) :
    k.loop.standing u = m.loop.standing u ∨
      m.loop.standing u = none ∧ ∃ p, k.loop.standing u = some p ∧ Spoken asks p := by
  induction h with
  | told h => exact .inl (by rw [h.loop])
  | @schedule m o _ =>
    have hc := sound.cancel.orderly
    have hs := (Loop.standing_spawn m.cancel.loop (.window false) u hc.new)
    change (m.schedule o).loop.standing u = _ at hs
    by_cases hu : u = m.cancel.loop.fresh
    · refine .inr ⟨?_, _, hs.trans (if_pos hu), .window⟩
      rw [← standing_cancel, hu, hc.standing_fresh]
    · exact .inl ((hs.trans (if_neg hu)).trans (standing_cancel m u))
  | @spawn m schema asked =>
    have hs := Loop.standing_spawnIn m.loop .spawned
      (.own (.save { schema := some schema } .answer)) u sound.orderly.new
    by_cases hu : u = m.loop.fresh
    · exact .inr ⟨hu ▸ sound.orderly.standing_fresh, _, hs.trans (if_pos hu), .save asked⟩
    · exact .inl (hs.trans (if_neg hu))
  | trans h _ ih ih' =>
    rcases ih' (sound.talk h) with same | ⟨gone, p, hp, spoken⟩
    · rcases ih sound with same' | ⟨gone, p, hp, spoken⟩
      · exact .inl (same.trans same')
      · exact .inr ⟨gone, p, same.trans hp, spoken⟩
    · rcases ih sound with same' | ⟨_, q, hq, _⟩
      · exact .inr ⟨same'.symm.trans gone, p, hp, spoken⟩
      · cases gone.symm.trans hq

theorem fired_placed (sound : Sound φ m) (u : TaskId) : Placed φ m φ (fired m) u := by
  unfold fired
  cases waits : m.debouncer.pending with
  | none => exact .keeps rfl id
  | some o =>
    have hs := Loop.standing_spawnIn m.loop .fired (.own (.save o .answer)) u sound.orderly.new
    by_cases hu : u = m.loop.fresh
    · refine .changes (.inr (hu ▸ sound.orderly.standing_fresh)) fun p hp => ?_
      obtain rfl := Option.some.inj ((hs.trans (if_pos hu)).symm.trans hp)
      exact .fires waits
    · exact .keeps (hs.trans (if_neg hu)) id

theorem fill_placed (sound : Sound φ m) (id record : Json) (u : TaskId) :
    (fill id record m).1.loop.standing u = m.loop.standing u ∨
      m.loop.standing u = none ∧ (fill id record m).1.loop.standing u = some (.window false) := by
  unfold fill
  cases membersIn record with
  | error f => exact .inl rfl
  | ok members =>
    have same : (entitled id members m).loop = m.loop := by
      unfold entitled
      split <;> rfl
    have he : Sound φ (entitled id members m) := sound.entitled id members
    rcases (@furnish_exchange (· = {}) rfl members (entitled id members m)).talk.placed he u with
      h | ⟨gone, p, hp, spoken⟩
    · exact .inl (h.trans (by rw [same]))
    · refine .inr ⟨same ▸ gone, ?_⟩
      cases spoken with
      | window => exact hp
      | save asked => cases asked

theorem Move.placed (h : Move φ m ψ k) (sound : Sound φ m) (u : TaskId) : Placed φ m ψ k u := by
  cases h with
  | skip | leaveGroup | resume | dequeue | reply => exact .keeps rfl nofun
  | count => exact .keeps (Loop.standing_count _ _ _ _) nofun
  | note | notify | free | save | request | loading | take | drop | call | refuse =>
    exact .keeps rfl id
  | flush | cancel => exact .keeps (standing_cancel _ _) id
  | load t id => exact .keeps (standing_cancel _ _) fun h => h
  | fire t => exact fired_placed sound u
  | unsubscribe t =>
    unfold Coordinator.unsubscribe
    split <;> exact .keeps rfl id
  | finish t o =>
    exact .of_moved rfl (fun u => Loop.standing_finish _ _ u _) (fun p hp => by cases hp) u
  | sleep t seconds rests =>
    exact .of_moved rfl (fun u => Loop.standing_sleep _ _ u _ _) (comes_of_map (.rests rests)) u
  | join t target rests =>
    exact .of_moved rfl (fun u => Loop.standing_join _ _ _ u _) (comes_of_map (.rests rests)) u
  | gather t targets rests =>
    exact .of_moved rfl (fun u => Loop.standing_gather _ _ u _ _) (comes_of_map (.rests rests)) u
  | lineUp t o after =>
    exact .of_moved rfl (fun u => Loop.standing_wait _ _ u _) (comes_of_map (.linesUp after rfl)) u
  | await t call after seconds =>
    exact .of_moved rfl (fun u => Loop.standing_sleep _ _ u _ _) (comes_of_map (.awaits after rfl)) u
  | hear t call =>
    obtain ⟨loop, -⟩ := hearing_same call m
    exact .keeps (by rw [loop]) id
  | release t =>
    unfold Coordinator.release
    simp only
    split <;> exact .keeps rfl id
  | awaitLoad t id reply seconds =>
    exact .of_moved rfl (fun u => Loop.standing_sleep _ _ u _ _) (comes_of_map (.loads rfl)) u
  | fill t id reply found =>
    rcases fill_placed sound id _ u with same | ⟨gone, hp⟩
    · exact .keeps same fun h => h
    · refine .changes (.inr gone) fun p hq => ?_
      obtain rfl := Option.some.inj (hp.symm.trans hq)
      exact .rests rfl

theorem Move.arrives (h : Move φ m ψ k) (task : ψ.task? = some t) :
    φ.task? = some t ∨ φ = .idle ∧ ∃ p, m.loop.standing t = some p ∧
      (ψ = .resumes t p ∧ inSave p = false ∨
        (∃ o epoch after, p = .own (.queued o epoch after) ∧ ψ = .holds t o epoch) ∨
        ∃ call after, p = .own (.sending call after) ∧ ψ = .calls t call) := by
  cases h with
  | resume ready target stands apart =>
    obtain rfl := Option.some.inj task
    exact .inr ⟨rfl, _, stands, .inl ⟨rfl, apart⟩⟩
  | dequeue ready stands =>
    obtain rfl := Option.some.inj task
    exact .inr ⟨rfl, _, stands, .inr (.inl ⟨_, _, _, rfl, rfl⟩)⟩
  | reply ready stands =>
    obtain rfl := Option.some.inj task
    exact .inr ⟨rfl, _, stands, .inr (.inr ⟨_, _, rfl, rfl⟩)⟩
  | skip | leaveGroup | count | finish | sleep | join | gather | lineUp | await | awaitLoad =>
    cases task
  | note | notify | free | save | request | flush | load | loading | fire | unsubscribe | cancel
  | take | drop | call | hear | release | refuse | fill => exact .inl task

theorem Move.stays (h : Move φ m ψ k) (sound : Sound φ m) {p : Debounce.Point Point Wait}
    (stands : m.loop.standing t = some p) (other : φ.task? ≠ some t) :
    k.loop.standing t = some p := by
  cases h.placed sound t with
  | keeps same _ => exact same.trans stands
  | changes left _ =>
    rcases left with ⟨task, -⟩ | gone
    · exact absurd task other
    · cases gone.symm.trans stands

end Placed

/-- What a task has to do with saves and loads. -/
inductive Stance where
  | rests
  | begins (o : Overrides)
  | holds (o : Overrides) (epoch : Nat)
  | calls (call : SaveCall)
  | loads (id : Json)
  | fills (id : Json) (reply : Reply)

def stanceOf : Debounce.Point Point Wait → Stance
  | .own (.request members) => .begins { members := members }
  | .own (.save o _) => .begins o
  | .own (.queued o epoch _) => .holds o epoch
  | .own (.sending call _) => .calls call
  | .own (.load id) => .loads id
  | .own (.loading id reply) => .fills id reply
  | .own .flush | .own .drain | .own .close | .own (.spawned _) => .rests
  | .window _ | .quiet _ | .pause _ _ => .rests

def Phase.stance : Phase → Stance
  | resumes _ p => stanceOf p
  | begins _ o => .begins o
  | holds _ o epoch => .holds o epoch
  | calls _ call => .calls call
  | fills _ id reply => .fills id reply
  | idle | free _ | leaves _ => .rests

inductive Takes (φ : Phase) (m : Coordinator) (t : TaskId) (s : Stance) : Prop where
  | turn (task : φ.task? = some t) (stance : φ.stance = s)
  | place {p : Debounce.Point Point Wait} (other : φ.task? ≠ some t)
      (stands : m.loop.standing t = some p) (stance : stanceOf p = s)

/-- What a task may turn to. -/
inductive Turns (m : Coordinator) : Stance → Stance → Prop where
  | same (s : Stance) : Turns m s s
  | rest (s : Stance) : Turns m s .rests
  | flush {o : Overrides} (waits : m.debouncer.pending = some o) : Turns m .rests (.begins o)
  | take (o : Overrides) : Turns m (.begins o) (.holds o m.world.epoch)
  | call {o : Overrides} {epoch : Nat} {payload : Payload} (current : epoch = m.world.epoch)
      (built : payloadOf o (session m) = .ok payload) :
      Turns m (.holds o epoch) (.calls (callOf payload epoch m))
  | load (id : Json) : Turns m (.loads id) (.fills id (loadReply m))

/-- How a task has come to its stance: it had it, has turned to it, or is new. -/
inductive Came (φ : Phase) (m : Coordinator) (t : TaskId) : Stance → Prop where
  | stays {s : Stance} (h : Takes φ m t s) : Came φ m t s
  | turns {s : Stance} (task : φ.task? = some t) (h : Turns m φ.stance s) : Came φ m t s
  | rests (new : m.loop.standing t = none) : Came φ m t .rests
  | fires {o : Overrides} (waits : m.debouncer.pending = some o) : Came φ m t (.begins o)

section Stances

variable {φ ψ : Phase} {m k : Coordinator} {t : TaskId} {s : Stance}

theorem stanceOf_of_rests {p : Debounce.Point Point Wait} (rests : active p = false) :
    stanceOf p = .rests := by
  cases p with
  | window _ | quiet _ | pause _ _ => rfl
  | own a => cases a <;> first | rfl | cases rests

theorem stanceOf_of_apart {p : Debounce.Point Point Wait}
    (apart : isLoad p = false ∧ inSave p = false) :
    stanceOf p = .rests ∨ ∃ o, stanceOf p = .begins o := by
  cases p with
  | window _ | quiet _ | pause _ _ => exact .inl rfl
  | own a =>
    cases a with
    | request _ | save _ _ => exact .inr ⟨_, rfl⟩
    | flush | drain | close | spawned _ => exact .inl rfl
    | queued _ _ _ | sending _ _ => cases apart.2
    | load _ | loading _ _ => cases apart.1

theorem Move.turns (h : Move φ m ψ k) (task : φ.task? = some t) (still : ψ.task? = some t) :
    Turns m φ.stance ψ.stance := by
  cases h with
  | skip | leaveGroup | count | resume | dequeue | reply => cases task
  | finish | sleep | join | gather | lineUp | await | awaitLoad => cases still
  | note | notify | save | request | loading | fire | unsubscribe | cancel | release =>
    exact .same _
  | flush t waits => exact .flush waits
  | load t id => exact .load id
  | take t o => exact .take o
  | call t current built => exact .call current built
  | free | drop | hear | refuse | fill => exact .rest _

theorem Move.came (h : Move φ m ψ k) (sound : Sound φ m) (hs : Takes ψ k t s) : Came φ m t s := by
  cases hs with
  | turn task stance =>
    subst stance
    rcases h.arrives task with still | ⟨rfl, p, hp, how⟩
    · exact .turns still (h.turns still task)
    · refine .stays (.place nofun hp ?_)
      rcases how with ⟨rfl, -⟩ | ⟨_, _, _, rfl, rfl⟩ | ⟨_, _, rfl, rfl⟩ <;> rfl
  | place other hp stance =>
    subst stance
    cases h.placed sound t with
    | keeps same turn =>
      exact .stays (.place (fun task => other (turn task)) (same.symm.trans hp) rfl)
    | changes left comes =>
      cases comes _ hp with
      | rests rests =>
        rw [stanceOf_of_rests rests]
        rcases left with ⟨task, -⟩ | new
        · exact .turns task (.rest _)
        · exact .rests new
      | fires waits => exact .fires waits
      | linesUp after phase => subst phase; exact .turns rfl (.take _)
      | awaits after phase => subst phase; exact .stays (.turn rfl rfl)
      | loads phase => subst phase; exact .stays (.turn rfl rfl)

theorem Move.remains (h : Move φ m ψ k) (sound : Sound φ m) (hs : Takes φ m t s)
    (other : φ.task? ≠ some t) : Takes ψ k t s := by
  cases hs with
  | turn task => exact absurd task other
  | place _ hp stance =>
    subst stance
    by_cases task : ψ.task? = some t
    · obtain ⟨-, q, hq, how⟩ := (h.arrives task).resolve_left other
      obtain rfl := Option.some.inj (hp.symm.trans hq)
      refine .turn task ?_
      rcases how with ⟨rfl, -⟩ | ⟨_, _, _, rfl, rfl⟩ | ⟨_, _, rfl, rfl⟩ <;> rfl
    · exact .place task (h.stays sound hp other) rfl

theorem Takes.own (hs : Takes φ m t s) (task : φ.task? = some t) : s = φ.stance := by
  cases hs with
  | turn _ stance => exact stance.symm
  | place other => exact absurd task other

theorem Takes.of_standing (hs : Takes .idle k t s) (same : k.loop.standing t = m.loop.standing t) :
    Takes .idle m t s := by
  cases hs with
  | turn task => cases task
  | place _ hp stance => exact .place nofun (same.symm.trans hp) stance

theorem Talk.takes {asks : Overrides → Prop} (h : Talk asks m k) (sound : Sound .idle m)
    (hs : Takes .idle k t s) : Takes .idle m t s ∨ s = .rests ∨ ∃ o, asks o ∧ s = .begins o := by
  rcases h.placed sound t with same | ⟨_, p, hp, spoken⟩
  · exact .inl (hs.of_standing same)
  · cases hs with
    | turn task => cases task
    | place _ hq stance =>
      obtain rfl := Option.some.inj (hp.symm.trans hq)
      cases spoken with
      | window => exact .inr (.inl stance.symm)
      | save asked => exact .inr (.inr ⟨_, asked, stance.symm⟩)

theorem Talk.remains {asks : Overrides → Prop} (h : Talk asks m k) (sound : Sound .idle m)
    (hs : Takes .idle m t s) : Takes .idle k t s := by
  rcases h.placed sound t with same | ⟨gone, -⟩
  · exact hs.of_standing same.symm
  · cases hs with
    | turn task => cases task
    | place _ hp => cases gone.symm.trans hp

theorem takes_spawn (sound : Sound .idle m) {e : Errand}
    (hs : Takes .idle { m with loop := (m.loop.spawn e.point).1 } t s) :
    Takes .idle m t s ∨ s = stanceOf e.point := by
  have standing := Loop.standing_spawn m.loop e.point t sound.orderly.new
  by_cases ht : t = m.loop.fresh
  · cases hs with
    | turn task => cases task
    | place _ hp stance =>
      obtain rfl := Option.some.inj (hp.symm.trans (standing.trans (if_pos ht)))
      exact .inr stance.symm
  · exact .inl (hs.of_standing (standing.trans (if_neg ht)))

theorem remains_spawn (sound : Sound .idle m) {e : Errand} (hs : Takes .idle m t s) :
    Takes .idle { m with loop := (m.loop.spawn e.point).1 } t s := by
  cases hs with
  | turn task => cases task
  | place _ hp stance =>
    have standing := Loop.standing_spawn m.loop e.point t sound.orderly.new
    exact .place nofun ((standing.trans
      (if_neg (Nat.ne_of_lt (sound.orderly.standing_below hp)))).trans hp) stance

theorem takes_enter (sound : Sound .idle m) {e : Errand}
    (hs : Takes (.resumes m.loop.fresh e.point) { m with loop := (m.loop.enter e.point).1 } t s) :
    Takes .idle m t s ∨ s = stanceOf e.point := by
  cases hs with
  | turn _ stance => exact .inr stance.symm
  | place other hp stance =>
    have ht : t ≠ m.loop.fresh := fun ht => other (ht ▸ rfl)
    have standing := Loop.standing_enter m.loop e.point t sound.orderly.new
    exact .inl (.place nofun ((standing.trans (if_neg ht)).symm.trans hp) stance)

theorem remains_enter (sound : Sound .idle m) {e : Errand} (hs : Takes .idle m t s) :
    Takes (.resumes m.loop.fresh e.point) { m with loop := (m.loop.enter e.point).1 } t s := by
  cases hs with
  | turn task => cases task
  | place _ hp stance =>
    have old := Nat.ne_of_lt (sound.orderly.standing_below hp)
    have standing := Loop.standing_enter m.loop e.point t sound.orderly.new
    exact .place (fun ht => old (Option.some.inj ht).symm)
      ((standing.trans (if_neg old)).trans hp) stance

theorem takes_advance {l : TaskLoop} (ha : m.loop.advance? = some l)
    (hs : Takes .idle { m with loop := l } t s) : Takes .idle m t s :=
  hs.of_standing (Loop.standing_advance? ha t)

theorem not_takes_fresh {settings : Settings} {delay : Float} {start : Session}
    {channel : Channel Inbound Unit} {notifier : Notifier Unit} {backend : Backend} :
    ¬ Takes .idle (fresh settings delay start channel notifier backend) t s := by
  rintro (⟨task, -⟩ | ⟨-, hp, -⟩)
  · cases task
  · exact absurd hp.symm (Option.some_ne_none _)

end Stances

end SchemaDiagram.Sync.Coordinator
