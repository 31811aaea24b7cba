import SchemaDiagram.Proofs.Fates
import SchemaDiagram.Proofs.History

/-!
The status of saving. It is entered when a save begins and left when the last one ends, and the saves in
flight are the tasks that stand at the points of a save. A save that fails leaves the session as it was,
but for that status, and in whatever way a save ends the lock is free and the next is to go on.
-/

set_option autoImplicit false

namespace SchemaDiagram.Sync.Coordinator

def saves (l : TaskLoop) (t : TaskId) : Bool := (l.standing t).any inSave

def underWay (l : TaskLoop) : List TaskId := (List.range l.fresh).filter (saves l)

section Count

variable {l k : TaskLoop} {named named' : Option TaskId} {t : TaskId}

theorem saves_iff : saves l t = true ↔ InSave l t := Option.any_eq_true _ _

theorem mem_underWay (orderly : l.Orderly active named) : t ∈ underWay l ↔ InSave l t := by
  unfold underWay
  rw [List.mem_filter, List.mem_range, saves_iff]
  exact ⟨And.right, fun h => ⟨orderly.standing_below h.choose_spec.1, h⟩⟩

theorem underWay_nodup (l : TaskLoop) : (underWay l).Nodup := List.nodup_range.filter _

/-- One task apart, the saves of two moments are the same. -/
theorem length_underWay (orderly : l.Orderly active named) (orderly' : k.Orderly active named')
    (others : ∀ u, u ≠ t → (InSave k u ↔ InSave l u)) :
    (underWay k).length + (saves l t).toNat = (underWay l).length + (saves k t).toNat := by
  -- both lists are the same without the one task, which stands in each at most once
  have apart {l : TaskLoop} {named : Option TaskId} (orderly : l.Orderly active named) :
      (underWay l).length = ((underWay l).erase t).length + (saves l t).toNat := by
    by_cases own : InSave l t
    · have mem := (mem_underWay orderly).mpr own
      rw [List.length_erase_of_mem mem, saves_iff.mpr own]
      have := List.length_pos_of_mem mem
      simp only [Bool.toNat_true]
      omega
    · have none : saves l t = false := Bool.eq_false_iff.mpr (mt saves_iff.mp own)
      rw [List.erase_of_not_mem (mt (mem_underWay orderly).mp own), none]
      rfl
  have same : ((underWay k).erase t).Perm ((underWay l).erase t) := by
    refine (List.perm_ext_iff_of_nodup ((underWay_nodup k).erase t) ((underWay_nodup l).erase t)).mpr
      fun u => ?_
    rw [(underWay_nodup k).mem_erase_iff, (underWay_nodup l).mem_erase_iff, mem_underWay orderly,
      mem_underWay orderly']
    exact and_congr_right (others u)
  rw [apart orderly, apart orderly', same.length_eq]
  omega

end Count

section Turns

variable {t : TaskId} {p : Debounce.Point Point Wait} {m n k : Coordinator}

theorem Goes.inFlight (h : Goes t m k) :
    k.world.inFlight = m.world.inFlight + (saves k.loop t).toNat - 1 := by
  cases h with
  | waits underway place => rw [underway.inFlight, saves_iff.mpr place, Bool.toNat_true, Nat.add_sub_cancel]
  | @ends k after result underway =>
    have ended := leave_ended t after result k
    have none : saves (leave t after result k).loop t = false :=
      Bool.eq_false_iff.mpr (mt saves_iff.mp ended.place)
    rw [ended.inFlight, underway.inFlight, none]
    rfl

theorem SaveTurn.inFlight (h : SaveTurn t p m k) :
    k.world.inFlight = m.world.inFlight + (saves k.loop t).toNat - (inSave p).toNat := by
  cases h with
  | passes apart _ underway place =>
    have none : saves k.loop t = false := Bool.eq_false_iff.mpr (mt saves_iff.mp place)
    rw [underway.inFlight, none, apart]
    rfl
  | @begins n _ apart _ underway goes =>
    rw [goes.inFlight, beginning_world, underway.inFlight, apart]
    simp only [Bool.toNat_false]
    omega
  | goesOn own goes =>
    rw [goes.inFlight, own]
    rfl

structure Stays (m k : Coordinator) : Prop where
  trace : ∃ events, k.world.trace = m.world.trace ++ events
  same : Unheard m k → ∃ status, session k = (session m).withStatus status ∧
    k.world.lastSaved = m.world.lastSaved

theorem Stays.trans (h : Stays m n) (h' : Stays n k) : Stays m k := by
  obtain ⟨es, trace⟩ := h.trace
  obtain ⟨es', trace'⟩ := h'.trace
  have whole : k.world.trace = m.world.trace ++ (es ++ es') := by
    rw [trace', trace, List.append_assoc]
  refine ⟨⟨_, whole⟩, fun unheard => ?_⟩
  obtain ⟨first, rest⟩ := List.forall_mem_append.mp ((unheard_append whole).mp unheard)
  obtain ⟨status, session, last⟩ := h.same ((unheard_append trace).mpr first)
  obtain ⟨status', session', last'⟩ := h'.same ((unheard_append trace').mpr rest)
  refine ⟨status', ?_, last'.trans last⟩
  rw [session', session]
  rfl

theorem Underway.stays (h : Underway m k) : Stays m k :=
  ⟨h.trace, fun unheard => ⟨(session m).document.status, (h.same unheard).1, (h.same unheard).2⟩⟩

theorem beginning_stays (m : Coordinator) : Stays m (beginning m) := by
  refine ⟨⟨[], ?_⟩, fun _ => ⟨statusBegun m, beginning_session m, ?_⟩⟩
  · rw [beginning_world, List.append_nil]
  · rw [beginning_world]

theorem Goes.stays (h : Goes t m k) : Stays m k := by
  cases h with
  | waits underway => exact underway.stays
  | @ends k after result underway =>
    have ended := leave_ended t after result k
    refine underway.stays.trans ⟨⟨[], ?_⟩, fun _ => ⟨_, ended.session, ended.lastSaved⟩⟩
    rw [ended.trace, List.append_nil]

theorem SaveTurn.stays (h : SaveTurn t p m k) : Stays m k := by
  cases h with
  | passes _ _ underway => exact underway.stays
  | @begins n _ _ _ underway goes =>
    exact (underway.stays.trans (beginning_stays n)).trans goes.stays
  | goesOn _ goes => exact goes.stays

theorem Goes.freed (h : Goes t m k) (ended : ¬ InSave k.loop t) :
    k.world.saving = false ∧ ∀ u, k.world.queue.head? = some u → 0 < k.loop.due u := by
  cases h with
  | waits _ place => exact absurd place ended
  | @ends k after result _ =>
    have free := leave_ended t after result k
    exact ⟨free.unlocked, free.next⟩

/-- The status that is left of the one with which a save is under way: the last save that ends takes the
    status of saving with it. -/
def leftOf (begun : Status) (t : TaskId) (k : Coordinator) : Status :=
  if saves k.loop t = false ∧ k.world.inFlight = 0 ∧ begun = .saving then .idle else begun

theorem Goes.status (h : Goes t m k) :
    (session k).document.status = leftOf (session m).document.status t k := by
  unfold leftOf
  cases h with
  | waits underway place =>
    rw [if_neg (by simp [saves_iff.mpr place])]
    exact underway.status
  | @ends k after result underway =>
    have ended := leave_ended t after result k
    have none : saves (leave t after result k).loop t = false :=
      Bool.eq_false_iff.mpr (mt saves_iff.mp ended.place)
    have status : (session (leave t after result k)).document.status = statusAfter k :=
      congrArg (·.document.status) ended.session
    rw [status, statusAfter, none, ended.inFlight, underway.status]
    simp only [true_and]

/-- The status is left as it is, or as the save leaves it that goes on or begins. -/
theorem SaveTurn.status (h : SaveTurn t p m k) :
    (session k).document.status =
      if inSave p then leftOf (session m).document.status t k
      else if beginsSave m p then leftOf (statusBegun m) t k
      else (session m).document.status := by
  cases h with
  | passes apart spared underway =>
    simp only [apart, spared, Bool.false_eq_true, if_false]
    exact underway.status
  | goesOn own goes =>
    rw [if_pos own]
    exact goes.status
  | @begins n _ apart own underway goes =>
    have begun : (session (beginning n)).document.status = statusBegun m := by
      rw [beginning_session]
      change statusBegun n = statusBegun m
      unfold statusBegun
      rw [underway.status]
    simp only [apart, own, Bool.false_eq_true, if_false, if_true]
    rw [goes.status, begun]

/-- The status changes only from idling to saving, when a save begins, and from saving to idling, when
    the last one ends. -/
def StatusMoves (t : TaskId) (p : Debounce.Point Point Wait) (m k : Coordinator) : Prop :=
  (session k).document.status = (session m).document.status ∨
    beginsSave m p = true ∧ (session m).document.status = .idle ∧
      (session k).document.status = .saving ∨
    (inSave p = true ∨ beginsSave m p = true) ∧ saves k.loop t = false ∧ k.world.inFlight = 0 ∧
      (session m).document.status = .saving ∧ (session k).document.status = .idle

theorem SaveTurn.moves (h : SaveTurn t p m k) : StatusMoves t p m k := by
  have status := h.status
  unfold leftOf at status
  split at status
  · rename_i own
    split at status
    · rename_i last
      exact .inr (.inr ⟨.inl own, last.1, last.2.1, last.2.2, status⟩)
    · exact .inl status
  · split at status
    · rename_i own
      -- a save that begins and ends in one turn may take the status back to where it was
      rcases statusBegun_cases m with ⟨idle, begun⟩ | same
      · split at status
        · exact .inl (status.trans idle.symm)
        · exact .inr (.inl ⟨own, idle, status.trans begun⟩)
      · split at status
        · rename_i last
          exact .inr (.inr ⟨.inr own, last.1, last.2.1, same.symm.trans last.2.2, status⟩)
        · exact .inl (status.trans same)
    · exact .inl status

theorem SaveTurn.freed (h : SaveTurn t p m k) (own : inSave p = true ∨ beginsSave m p = true)
    (ended : ¬ InSave k.loop t) :
    k.world.saving = false ∧ ∀ u, k.world.queue.head? = some u → 0 < k.loop.due u := by
  cases h with
  | passes apart spared => simp [apart, spared] at own
  | begins _ _ _ goes => exact goes.freed ended
  | goesOn _ goes => exact goes.freed ended

end Turns

section Runs

variable {start m k n : Coordinator} {is : List Incident} {t : TaskId}
  {p : Debounce.Point Point Wait} {o : Operation}

/-- A session with the status of saving has a save in flight. -/
def Busy (m : Coordinator) : Prop :=
  (session m).document.status = .saving → 0 < m.world.inFlight

theorem History.busy (h : History start is m) (first : Busy start) : Busy m := by
  induction h with
  | start => exact first
  | other _ beside ih =>
    exact fun saving => beside.inFlight ▸ ih (beside.status.symm.trans saving)
  | request | load => exact nofun
  | commit _ schema ih | draw _ schema _ ih => exact ih
  | @entitle is m _ id members ih =>
    unfold Busy entitled
    split <;> exact ih
  | @hear is m _ kind payload ih =>
    intro saving
    rw [handle_inFlight]
    rcases handle_status _ payload m with idle | failed | same
    · cases idle.symm.trans saving
    · cases failed.symm.trans saving
    · exact ih (same.symm.trans saving)
  | @beginSave is m _ ih =>
    intro _
    rw [beginning_world]
    exact Nat.succ_pos _
  | @endSave is m _ ih =>
    intro saving
    rw [endSave_session] at saving
    change statusAfter m = .saving at saving
    rw [endSave_world]
    unfold statusAfter at saving
    split at saving
    · cases saving
    · rename_i more
      exact Nat.pos_of_ne_zero fun none => more ⟨none, saving⟩

theorem carries_inFlight : Carries fun m _ k => k.world.inFlight = m.world.inFlight where
  trans := fun h h' => h'.trans h
  unmoved := fun h => h.inFlight
  request := fun _ _ _ => rfl
  supersede := fun _ _ => rfl
  handle := fun _ => handle_inFlight
  schedule := fun m _ _ => congrArg World.inFlight (cancel_world m)
  spawn := fun _ _ _ => rfl
  load := fun _ _ => rfl
  entitle := fun id members m => by
    unfold entitled
    split <;> rfl
  draw := fun _ _ _ => rfl
  of_world := congrArg World.inFlight

theorem talk_inFlight (talks : o.works = false) (m : Coordinator) :
    (perform m o).world.inFlight = m.world.inFlight :=
  carries_inFlight.restrict.perform Unseen.inFlight talks

def Reckons (m : Coordinator) : Prop := m.world.inFlight = (underWay m.loop).length

theorem Reckons.same (h : Reckons m) (sound : Sound .idle m) (sound' : Sound .idle k)
    (inFlight : k.world.inFlight = m.world.inFlight)
    (places : ∀ u, InSave k.loop u ↔ InSave m.loop u) : Reckons k := by
  have length := length_underWay (t := 0) sound.orderly sound'.orderly fun u _ => places u
  have own : saves k.loop 0 = saves m.loop 0 :=
    Bool.eq_iff_iff.mpr (saves_iff.trans ((places 0).trans saves_iff.symm))
  unfold Reckons at h ⊢
  rw [own] at length
  omega

theorem talk_places {asks : Overrides → Prop} (h : Talk asks m k) (sound : Sound .idle m)
    (u : TaskId) : InSave k.loop u ↔ InSave m.loop u := by
  rcases h.placed sound u with same | ⟨gone, p, hp, spoken⟩
  · exact InSave.congr same
  · refine iff_of_false ?_ ?_
    · rintro ⟨q, hq, hs⟩
      obtain rfl := Option.some.inj (hp.symm.trans hq)
      cases spoken <;> cases hs
    · rintro ⟨q, hq, -⟩
      cases gone.symm.trans hq

theorem receiveLoad_place (t : TaskId) (id : Json) (reply : Reply) (m : Coordinator) :
    ¬ InSave (receiveLoad t id reply m).loop t := by
  unfold receiveLoad
  cases loaded id reply m with
  | error f =>
    dsimp only
    split
    · exact (rests_finish _ _).place
    · exact (rests_finish _ _).place
    · contradiction
  | ok record =>
    dsimp only
    rcases fill id record m with ⟨k, f⟩
    cases f with
    | some f => exact (rests_finish _ _).place
    | none =>
      cases loadedName id with
      | error f => exact (rests_finish _ _).place
      | ok name => exact (rests_finish _ _).place

theorem beginLoad_place (t : TaskId) (id : Json) (m : Coordinator) :
    ¬ InSave (beginLoad t id m).loop t := by
  unfold beginLoad
  split
  · exact not_inSave_of_map ((Loop.standing_sleep _ _ _ _ _).trans (if_pos rfl)) rfl
  · exact receiveLoad_place t id _ _

theorem Resumes.load_place (h : Resumes m o t p n) (sound : Sound .idle m) (load : isLoad p = true) :
    ¬ InSave (perform m o).loop t := by
  obtain ⟨signal, heard, resume⟩ := h.resume sound
  rw [resume]
  cases p with
  | window _ | quiet _ | pause _ _ => cases load
  | own a =>
    cases a with
    | load id =>
      cases heard rfl
      exact beginLoad_place t id n
    | loading id reply =>
      cases heard rfl
      exact receiveLoad_place t id reply n
    | request _ | save _ _ | queued _ _ _ | sending _ _ | flush | drain | close | spawned _ => cases load

theorem Resumes.saves (h : Resumes m o t p n) (sound : Sound .idle m) :
    saves m.loop t = inSave p := by
  unfold Coordinator.saves
  cases h with
  | enter e =>
    rw [sound.orderly.standing_fresh]
    cases e <;> rfl
  | turn _ _ stands =>
    rw [stands]
    rfl

theorem Resumes.inFlight (h : Resumes m o t p n) (sound : Sound .idle m) :
    (perform m o).world.inFlight =
      m.world.inFlight + (Coordinator.saves (perform m o).loop t).toNat - (inSave p).toNat := by
  cases load : isLoad p with
  | false =>
    obtain ⟨signal, heard, resume⟩ := h.resume sound
    rw [resume, (resume_turn load (h.stands sound) heard).inFlight, h.world]
  | true =>
    have foreign : (perform m o).world.inFlight = m.world.inFlight :=
      carries_inFlight.resumes h sound load
    have none : Coordinator.saves (perform m o).loop t = false :=
      Bool.eq_false_iff.mpr (mt saves_iff.mp (h.load_place sound load))
    have apart : inSave p = false := by
      cases p with
      | window _ | quiet _ | pause _ _ => rfl
      | own a => cases a <;> first | rfl | cases load
    rw [foreign, none, apart]
    rfl

theorem Reckons.perform (h : Reckons m) (sound : Sound .idle m) (o : Operation) :
    Reckons (perform m o) := by
  have sound' := sound.perform o
  cases works : o.works with
  | false =>
    have talk : Talk (asked m o) m (Coordinator.perform m o) := (perform_exchange works m).talk
    exact h.same sound sound' (talk_inFlight works m) (talk_places talk sound)
  | true =>
    rcases resumes_or_lull sound works with ⟨t, p, n, resumes⟩ | lull
    · have length := length_underWay sound.orderly sound'.orderly fun u => resumes.others sound (u := u)
      have inFlight := resumes.inFlight sound
      rw [resumes.saves sound] at length
      unfold Reckons at h ⊢
      omega
    · exact h.same sound sound' (by rw [lull.world]) lull.places

end Runs

/-- What the turn of a task that is about no load has to do with the status, the session and the lock. -/
structure SavesExactly (t : TaskId) (p : Debounce.Point Point Wait) (m k : Coordinator) : Prop where
  status : (session k).document.status =
    if inSave p then leftOf (session m).document.status t k
    else if beginsSave m p then leftOf (statusBegun m) t k
    else (session m).document.status
  moves : StatusMoves t p m k
  /-- A save that is not answered with a record changes nothing of the session but that status. -/
  failed : Unheard m k → session k = (session m).withStatus (session k).document.status ∧
    k.world.lastSaved = m.world.lastSaved
  /-- A save that has ended leaves the lock free, and the first that waits is to go on. -/
  freed : inSave p = true ∨ beginsSave m p = true → ¬ InSave k.loop t →
    k.world.saving = false ∧ ∀ u, k.world.queue.head? = some u → 0 < k.loop.due u

theorem SaveTurn.exactly {t : TaskId} {p : Debounce.Point Point Wait} {m k : Coordinator}
    (h : SaveTurn t p m k) : SavesExactly t p m k := by
  refine ⟨h.status, h.moves, fun unheard => ?_, h.freed⟩
  obtain ⟨status, same, last⟩ := h.stays.same unheard
  exact ⟨by rw [same]; rfl, last⟩

/-- At every moment of every run the saves in flight are the tasks with a save that has begun and has not
    ended, and a status of saving means that there is one. Each turn of such a task changes the status
    from idling to saving or back at most, leaves the session alone unless a record has come, and leaves
    the lock free if the save has ended in it. -/
theorem saving_status_exact (settings : Settings) (delay : Float) (start : Session)
    (channel : Channel Inbound Unit) (notifier : Notifier Unit) (backend : Backend)
    (calm : start.document.status ≠ .saving) (operations : List Operation) :
    let m := performAll operations (fresh settings delay start channel notifier backend)
    m.world.inFlight = (underWay m.loop).length ∧
      ((session m).document.status = .saving → 0 < m.world.inFlight) ∧
      ∀ o t p n, Resumes m o t p n → isLoad p = false → SavesExactly t p n (perform m o) := by
  let m₀ := fresh settings delay start channel notifier backend
  have sound₀ : Sound .idle m₀ := sound_fresh settings delay start channel notifier backend
  have sound := sound₀.performAll operations
  intro m
  refine ⟨?_, ?_, fun o t p n resumes load => ?_⟩
  · have reckons : Sound .idle m ∧ Reckons m := performAll_induction
      (I := fun k => Sound .idle k ∧ Reckons k) ⟨sound₀, rfl⟩
      fun o _ k hk => ⟨hk.1.perform o, hk.2.perform hk.1 o⟩
    exact reckons.2
  · exact (performAll_history sound₀ operations).busy fun saving => absurd saving calm
  · obtain ⟨signal, heard, resume⟩ := resumes.resume sound
    rw [resume]
    exact (resume_turn load (resumes.stands sound) heard).exactly

def refusing : Coordinator :=
  fresh {} 1.0 {} {} { capacity := 50 } { saves := [{ refusal := some (.str "down", .int 503) }] }

/-- The save that is refused begins and ends in one turn; the session is as it was and the lock is
    free. -/
theorem refused_save_leaves_session :
    Event.answered 0.0 none ∈ (perform refusing (.enter (.save []))).world.trace ∧
      session (perform refusing (.enter (.save []))) = session refusing ∧
      (perform refusing (.enter (.save []))).world.saving = false := by
  have exactly : SavesExactly 0 (.own (.request []))
      { refusing with loop := (refusing.loop.enter (.own (.request []))).1 }
      (perform refusing (.enter (.save []))) :=
    (saving_status_exact {} 1.0 {} {} { capacity := 50 }
      { saves := [{ refusal := some (.str "down", .int 503) }] } (by decide) []).2.2
      _ _ _ _ (.enter (.save [])) rfl
  have unheard : Unheard refusing (perform refusing (.enter (.save []))) := by
    unfold Unheard
    decide +kernel
  have idle : (session (perform refusing (.enter (.save [])))).document.status = .idle := by
    decide +kernel
  have own : beginsSave refusing (.own (.request [])) = true := rfl
  have ended : ¬ InSave (perform refusing (.enter (.save []))).loop 0 :=
    mt saves_iff.mpr (by decide +kernel)
  have same : session (perform refusing (.enter (.save []))) =
      (session refusing).withStatus (session (perform refusing (.enter (.save [])))).document.status :=
    (exactly.failed unheard).1
  rw [idle] at same
  exact ⟨by decide +kernel, same, (exactly.freed (.inr own) ended).1⟩

end SchemaDiagram.Sync.Coordinator
