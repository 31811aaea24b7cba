import SchemaDiagram.Proofs.Places

/-!
What saves do in the turns of their tasks. A save is counted when it begins and when it ends, and only
then is the status touched; in between, nothing of the session changes but the id of the diagram, and
that only when a record has come. However a save ends, it gives the lock back and wakes the next.
-/

set_option autoImplicit false

namespace SchemaDiagram.Sync.Coordinator

/-- A change that bears on no request, neither text nor status nor errors, and by which no save begins or
    ends. -/
structure Beside (m k : Coordinator) : Prop extends Steady m k where
  text : (session k).document.text = (session m).document.text
  status : (session k).document.status = (session m).document.status
  errors : (session k).document.errors = (session m).document.errors
  inFlight : k.world.inFlight = m.world.inFlight

/-- An event that tells of a record with which a save was answered. -/
def Event.isRecord : Event → Bool
  | .answered _ (some _) => true
  | _ => false

def Unheard (m k : Coordinator) : Prop :=
  ∀ e ∈ k.world.trace.drop m.world.trace.length, Event.isRecord e = false

/-- The work of a save between its beginning and its end. -/
structure Underway (m k : Coordinator) : Prop extends Beside m k where
  diagram : (session k).diagram = (session m).diagram
  selection : (session k).selection = (session m).selection
  trace : ∃ events, k.world.trace = m.world.trace ++ events
  same : Unheard m k → session k = session m ∧ k.world.lastSaved = m.world.lastSaved

section Underway

variable {m k n : Coordinator}

theorem Unseen.beside (h : Unseen m k) : Beside m k :=
  ⟨h.toSteady, h.text, h.status, h.errors, h.inFlight⟩

theorem Beside.trans (h : Beside m k) (h' : Beside k n) : Beside m n :=
  ⟨h.toSteady.trans h'.toSteady, h'.text.trans h.text, h'.status.trans h.status,
    h'.errors.trans h.errors, h'.inFlight.trans h.inFlight⟩

theorem Beside.of_world (same : k.world = m.world) : Beside m k := by
  refine ⟨⟨?_, ?_, ?_⟩, ?_, ?_, ?_, ?_⟩ <;> simp only [session, same]

theorem unheard_append {events : List Event} (trace : k.world.trace = m.world.trace ++ events) :
    Unheard m k ↔ ∀ e ∈ events, Event.isRecord e = false := by
  unfold Unheard
  rw [trace, List.drop_left]

namespace Underway

theorem of_same (events : List Event) (beside : Beside m k)
    (trace : k.world.trace = m.world.trace ++ events)
    (same : session k = session m ∧ k.world.lastSaved = m.world.lastSaved) : Underway m k :=
  ⟨beside, congrArg Session.diagram same.1, congrArg Session.selection same.1, ⟨events, trace⟩,
    fun _ => same⟩

theorem of_world (same : k.world = m.world) : Underway m k :=
  of_same [] (.of_world same) (by rw [same, List.append_nil])
    (by simp only [session, same, and_self])

theorem refl (m : Coordinator) : Underway m m := of_world rfl

theorem trans (h : Underway m k) (h' : Underway k n) : Underway m n := by
  obtain ⟨es, trace⟩ := h.trace
  obtain ⟨es', trace'⟩ := h'.trace
  have whole : n.world.trace = m.world.trace ++ (es ++ es') := by
    rw [trace', trace, List.append_assoc]
  refine ⟨h.toBeside.trans h'.toBeside, h'.diagram.trans h.diagram, h'.selection.trans h.selection,
    ⟨es ++ es', whole⟩, fun unheard => ?_⟩
  have none := (unheard_append whole).mp unheard
  obtain ⟨session, last⟩ := h.same ((unheard_append trace).mpr fun e he =>
    none e (List.mem_append_left _ he))
  obtain ⟨session', last'⟩ := h'.same ((unheard_append trace').mpr fun e he =>
    none e (List.mem_append_right _ he))
  exact ⟨session'.trans session, last'.trans last⟩

theorem locks (saving : Bool) (queue : List TaskId) (m : Coordinator) :
    Underway m (m.withWorld { m.world with saving := saving, queue := queue }) :=
  of_same [] ⟨⟨rfl, rfl, rfl⟩, rfl, rfl, rfl, rfl⟩ (List.append_nil _).symm ⟨rfl, rfl⟩

theorem notify (note : Note) (m : Coordinator) : Underway m (notify note m).1 :=
  of_same [.note note] ⟨⟨rfl, rfl, rfl⟩, rfl, rfl, rfl, rfl⟩ rfl ⟨rfl, rfl⟩

theorem reportRefusal (what : String) (message : Json) (m : Coordinator) :
    Underway m (reportRefusal what message m).1 := by
  have logged (text : String) : Underway m (logs m .warning text) := of_world rfl
  exact (logged _).trans (notify _ _)

theorem calling (payload : Payload) (m : Coordinator) : Underway m (calling payload m) :=
  of_same [.save m.loop.now (session m).canvas.diagramId (session m).document.status payload]
    ⟨⟨rfl, rfl, rfl⟩, rfl, rfl, rfl, rfl⟩ rfl ⟨rfl, rfl⟩

theorem answered (call : SaveCall) (m : Coordinator) : Underway m (answered call m) :=
  of_same [.answered m.loop.now (answerTo call m).2.toOption]
    ⟨⟨rfl, rfl, rfl⟩, rfl, rfl, rfl, rfl⟩ rfl ⟨rfl, rfl⟩

theorem hearing (call : SaveCall) (m : Coordinator) : Underway m (hearing call m) := by
  have heard := answered call m
  unfold Coordinator.hearing
  cases hr : (answerTo call m).2 with
  | error f => exact heard
  | ok record =>
    have trace : (Coordinator.answered call m).world.trace =
        m.world.trace ++ [.answered m.loop.now (some record)] := by
      rw [show some record = (answerTo call m).2.toOption by rw [hr]; rfl]
      rfl
    have told : (recordSaved record call.epoch (Coordinator.answered call m)).world.trace =
        m.world.trace ++ [.answered m.loop.now (some record)] := by
      rw [← trace]
      unfold recordSaved
      simp only
      split
      · rfl
      · split <;> rfl
    have beside : Beside (Coordinator.answered call m)
        (recordSaved record call.epoch (Coordinator.answered call m)) := by
      unfold recordSaved
      simp only
      split
      · exact .of_world rfl
      · split <;> exact ⟨⟨rfl, rfl, rfl⟩, rfl, rfl, rfl, rfl⟩
    have scene : (session (recordSaved record call.epoch (Coordinator.answered call m))).diagram =
          (session m).diagram ∧
        (session (recordSaved record call.epoch (Coordinator.answered call m))).selection =
          (session m).selection := by
      unfold recordSaved
      simp only
      split
      · exact ⟨rfl, rfl⟩
      · split <;> exact ⟨rfl, rfl⟩
    refine ⟨heard.toBeside.trans beside, scene.1, scene.2, ⟨_, told⟩, fun unheard => ?_⟩
    -- the event of the answer stands in the trace
    cases (unheard_append told).mp unheard _ (List.mem_singleton.mpr rfl)

end Underway

end Underway

structure Rests (t : TaskId) (m k : Coordinator) : Prop where
  world : k.world = m.world
  place : ¬ InSave k.loop t
  due : ∀ u, k.loop.due u = m.loop.due u

section Rests

variable {t : TaskId}

theorem not_inSave_of_map {l : TaskLoop} {q : Option (Debounce.Point Point Wait)}
    {p : Debounce.Point Point Wait} (stands : l.standing t = q.map fun _ => p)
    (apart : inSave p = false) : ¬ InSave l t := by
  rintro ⟨r, hr, hs⟩
  obtain ⟨_, -, rfl⟩ := Option.map_eq_some_iff.mp (stands.symm.trans hr)
  simp [apart] at hs

theorem rests_finish (o : Outcome) (m : Coordinator) : Rests t m (m.finish t o) := by
  refine ⟨rfl, ?_, fun u => Loop.due_finish _ _ u _⟩
  rintro ⟨p, hp, -⟩
  have gone := (Loop.standing_finish m.loop t t o).trans (if_pos rfl)
  cases gone.symm.trans hp

theorem rests_join (target : TaskId) {p : Debounce.Point Point Wait} (apart : inSave p = false)
    (m : Coordinator) : Rests t m { m with loop := m.loop.join t target p } :=
  ⟨rfl, not_inSave_of_map ((Loop.standing_join _ _ _ _ _).trans (if_pos rfl)) apart, fun _ => rfl⟩

theorem rests_gather (targets : List TaskId) {p : Debounce.Point Point Wait}
    (apart : inSave p = false) (m : Coordinator) :
    Rests t m { m with loop := m.loop.gather t targets p } :=
  ⟨rfl, not_inSave_of_map ((Loop.standing_gather _ _ _ _ _).trans (if_pos rfl)) apart,
    fun u => Loop.due_gather _ _ u _ _⟩

theorem waitSpawned_rests (wait : Wait) (m : Coordinator) : Rests t m (waitSpawned t wait m) := by
  unfold waitSpawned
  simp only
  split
  · cases wait with
    | close => exact rests_finish _ m
    | drain =>
      simp only
      cases m.window? with
      | some w => exact rests_join w rfl m
      | none =>
        simp only
        split
        · exact rests_gather _ rfl m
        · exact rests_finish _ m
  · exact rests_gather _ rfl m

theorem awaitQuiet_rests (wait : Wait) (m : Coordinator) : Rests t m (m.awaitQuiet use t wait) := by
  unfold Debounce.Machine.awaitQuiet
  cases m.window? with
  | some w => exact rests_join w rfl m
  | none =>
    simp only
    split
    · exact rests_gather _ rfl m
    · exact waitSpawned_rests wait m

theorem afterSave_rests (after : AfterSave) (result : Result Json) (m : Coordinator) :
    Rests t m (afterSave t after result m) := by
  rcases result with f | v
  · exact rests_finish _ m
  · cases after with
    | answer => exact rests_finish _ m
    | drain => exact awaitQuiet_rests .drain m

end Rests

/-- How a save that has been counted goes on in a turn of its task: it waits, or it ends. -/
inductive Goes (t : TaskId) (m : Coordinator) : Coordinator → Prop where
  | waits {k : Coordinator} (underway : Underway m k) (place : InSave k.loop t) : Goes t m k
  | ends {k : Coordinator} (after : AfterSave) (result : Result Json) (underway : Underway m k) :
      Goes t m (leave t after result k)

section Goes

variable {t : TaskId} {m n k : Coordinator}

theorem Goes.from (underway : Underway m n) (goes : Goes t n k) : Goes t m k := by
  cases goes with
  | waits rest place => exact .waits (underway.trans rest) place
  | ends after result rest => exact .ends after result (underway.trans rest)

theorem receiveSave_goes (call : SaveCall) (after : AfterSave) (m : Coordinator) :
    Goes t m (receiveSave t call after m) := by
  have heard := Underway.hearing call m
  unfold hearing at heard
  rw [receiveSave_eq]
  rcases hr : (answerTo call m).2 with f | record
  · rw [hr] at heard
    dsimp only at heard ⊢
    split
    · contradiction
    · exact .ends after (.ok .null) (heard.trans (.reportRefusal _ _ _))
    · exact .ends after (.error _) heard
  · rw [hr] at heard
    exact .ends after (.ok record) heard

theorem send_goes (o : Overrides) (epoch : Nat) (after : AfterSave)
    (stands : ∃ p, m.loop.standing t = some p) : Goes t m (send t o epoch after m) := by
  rw [send_eq]
  split
  · exact .ends after (.ok .null) (.of_world rfl)
  · cases payloadOf o (session m) with
    | rejected ds => exact .ends after (.error _) (.refl m)
    | ok payload =>
      simp only
      split
      · rename_i seconds _
        have sends : (m.loop.sleep t seconds
            (.own (.sending (callOf payload epoch m) after))).standing t =
              some (.own (.sending (callOf payload epoch m) after)) := by
          obtain ⟨p, stands⟩ := stands
          rw [Loop.standing_sleep, if_pos rfl, stands]
          rfl
        exact .waits ((Underway.calling payload m).trans (.of_world rfl)) ⟨_, sends, rfl⟩
      · exact .from (.calling payload m) (receiveSave_goes _ after _)

theorem dequeue_goes (o : Overrides) (epoch : Nat) (after : AfterSave)
    (stands : ∃ p, m.loop.standing t = some p) : Goes t m (dequeue t o epoch after m) :=
  .from (Underway.locks true (m.world.queue.erase t) m)
    (send_goes (m := m.withWorld { m.world with saving := true, queue := m.world.queue.erase t })
      o epoch after stands)

theorem beginSave_goes (o : Overrides) (after : AfterSave)
    (stands : ∃ p, m.loop.standing t = some p) : Goes t (beginning m) (beginSave t o after m) := by
  have still : ∃ p, (beginning m).loop.standing t = some p := by
    unfold beginning
    split <;> exact stands
  rw [beginSave_eq]
  split
  · exact .from (Underway.locks true (beginning m).world.queue _)
      (send_goes (m := (beginning m).withWorld { (beginning m).world with saving := true })
        o _ after still)
  · have queues : ((beginning m).loop.wait t
        (.own (.queued o (beginning m).world.epoch after))).standing t =
          some (.own (.queued o (beginning m).world.epoch after)) := by
      obtain ⟨p, still⟩ := still
      rw [Loop.standing_wait, if_pos rfl, still]
      rfl
    exact .waits ((Underway.locks (beginning m).world.saving ((beginning m).world.queue ++ [t]) _).trans
      (.of_world rfl)) ⟨_, queues, rfl⟩

end Goes

def statusBegun (m : Coordinator) : Status :=
  if (session m).document.status = .idle then .saving else (session m).document.status

theorem beginning_world (m : Coordinator) : (beginning m).world = { m.world with
    session := (session m).withStatus (statusBegun m)
    inFlight := m.world.inFlight + 1 } := by
  unfold beginning statusBegun
  by_cases idle : (session m).document.status = .idle
  · rw [if_pos idle, if_pos idle]
    rfl
  · rw [if_neg idle, if_neg idle]
    rfl

def statusAfter (m : Coordinator) : Status :=
  if m.world.inFlight - 1 = 0 ∧ (session m).document.status = .saving then .idle
  else (session m).document.status

/-- The end of a save: it is counted, and the last one ends the status of saving. The lock is free, and
    the first of those that wait for it is to go on. -/
structure Ended (t : TaskId) (m k : Coordinator) : Prop where
  place : ¬ InSave k.loop t
  inFlight : k.world.inFlight = m.world.inFlight - 1
  session : session k = (session m).withStatus (statusAfter m)
  lastSaved : k.world.lastSaved = m.world.lastSaved
  trace : k.world.trace = m.world.trace
  unlocked : k.world.saving = false
  next : ∀ u, k.world.queue.head? = some u → 0 < k.loop.due u

theorem endSave_world (m : Coordinator) : (endSave m).world = { m.world with
    session := (session m).withStatus (statusAfter m)
    inFlight := m.world.inFlight - 1 } := by
  let counted := m.withWorld { m.world with inFlight := m.world.inFlight - 1 }
  by_cases last : m.world.inFlight - 1 = 0 ∧ (session m).document.status = .saving
  · have ended : endSave m = mapSession counted (·.withStatus .idle) := if_pos last
    rw [ended, statusAfter, if_pos last]
    rfl
  · have ended : endSave m = counted := if_neg last
    rw [ended, statusAfter, if_neg last]
    rfl

theorem statusBegun_cases (m : Coordinator) :
    (session m).document.status = .idle ∧ statusBegun m = .saving ∨
      statusBegun m = (session m).document.status := by
  unfold statusBegun
  split
  · rename_i idle
    exact .inl ⟨idle, rfl⟩
  · exact .inr rfl

theorem statusAfter_cases (m : Coordinator) :
    (session m).document.status = .saving ∧ statusAfter m = .idle ∨
      statusAfter m = (session m).document.status := by
  unfold statusAfter
  split
  · rename_i last
    exact .inl ⟨last.2, rfl⟩
  · exact .inr rfl

theorem beginning_session (m : Coordinator) :
    session (beginning m) = (session m).withStatus (statusBegun m) :=
  congrArg (·.session) (beginning_world m)

theorem endSave_session (m : Coordinator) :
    session (endSave m) = (session m).withStatus (statusAfter m) :=
  congrArg (·.session) (endSave_world m)

theorem endSave_loop (m : Coordinator) : (endSave m).loop = m.loop := by
  unfold endSave
  simp only
  split <;> rfl

theorem release_loop {m : Coordinator} {u : TaskId} {rest : List TaskId}
    (queue : m.world.queue = u :: rest) : (release m).loop = m.loop.wake u := by
  unfold release
  simp only
  split
  · rename_i empty
    cases empty.symm.trans queue
  · rename_i first others own
    cases own.symm.trans queue
    rfl

theorem leave_ended (t : TaskId) (after : AfterSave) (result : Result Json) (m : Coordinator) :
    Ended t m (leave t after result m) := by
  have rests : Rests t (endSave (release m)) (leave t after result m) := afterSave_rests after result _
  have own : session (release m) = session m := congrArg (·.session) (release_world m)
  have status : statusAfter (release m) = statusAfter m := by
    unfold statusAfter
    rw [own, release_world]
  have world := rests.world.trans (endSave_world (release m))
  rw [status, own, release_world] at world
  refine ⟨rests.place, by rw [world], congrArg (·.session) world, by rw [world], by rw [world],
    by rw [world], fun u first => ?_⟩
  have waiting : m.world.queue.head? = some u := (congrArg (·.queue.head?) world).symm.trans first
  obtain ⟨rest, queue⟩ := List.head?_eq_some_iff.mp waiting
  rw [rests.due, endSave_loop, release_loop queue, Loop.wake, Loop.due_push_step, if_pos rfl]
  omega

def beginsSave (m : Coordinator) : Debounce.Point Point Wait → Bool
  | .own (.save _ _) => true
  | .own (.request members) => (checkOverrides members).isOk
  | .own .flush => m.pending && m.debouncer.pending.isSome
  | .own _ | .window _ | .quiet _ | .pause _ _ => false

/-- What saves have to do with the turn of a task that goes on from a point. -/
inductive SaveTurn (t : TaskId) (p : Debounce.Point Point Wait) (m : Coordinator) : Coordinator → Prop where
  | passes {k : Coordinator} (apart : inSave p = false) (spared : beginsSave m p = false)
      (underway : Underway m k) (place : ¬ InSave k.loop t) : SaveTurn t p m k
  | begins {n k : Coordinator} (apart : inSave p = false) (own : beginsSave m p = true)
      (underway : Underway m n) (goes : Goes t (beginning n) k) : SaveTurn t p m k
  | goesOn {k : Coordinator} (own : inSave p = true) (goes : Goes t m k) : SaveTurn t p m k

section Turns

variable {t : TaskId} {p : Debounce.Point Point Wait} {m n k : Coordinator}

theorem Rests.turn (rests : Rests t n k) (underway : Underway m n) (apart : inSave p = false)
    (spared : beginsSave m p = false) : SaveTurn t p m k :=
  .passes apart spared (underway.trans (.of_world rests.world)) rests.place

theorem sleep_turn (seconds : Float) {q : Debounce.Point Point Wait} (rests : inSave q = false)
    (apart : inSave p = false) (spared : beginsSave m p = false) :
    SaveTurn t p m { m with loop := m.loop.sleep t seconds q } :=
  .passes apart spared (.of_world rfl)
    (not_inSave_of_map ((Loop.standing_sleep _ _ _ _ _).trans (if_pos rfl)) rests)

theorem beginFlush_turn (stands : m.loop.standing t = some (.own .flush)) :
    SaveTurn t (.own .flush) m (beginFlush t m) := by
  have same : Underway m m.cancel := .of_world (cancel_world m)
  unfold beginFlush Debounce.Machine.takePending
  cases waits : m.pending with
  | false =>
    have spared : beginsSave m (.own .flush) = false := by simp [beginsSave, waits]
    exact (awaitQuiet_rests .drain m).turn (.refl m) rfl spared
  | true =>
    cases payload : m.debouncer.pending with
    | none =>
      have spared : beginsSave m (.own .flush) = false := by simp [beginsSave, payload]
      exact (awaitQuiet_rests .drain m.cancel).turn same rfl spared
    | some o =>
      have own : beginsSave m (.own .flush) = true := by simp [beginsSave, waits, payload]
      exact .begins rfl own same
        (beginSave_goes o .drain ⟨_, (standing_cancel m t).trans stands⟩)

theorem beginClose_turn (m : Coordinator) : SaveTurn t (.own .close) m (beginClose t m) := by
  obtain ⟨channel, started, world⟩ := unsubscribe_world m
  have closed : Underway m (unsubscribe m) := by
    refine .of_same [] ⟨⟨?_, ?_, ?_⟩, ?_, ?_, ?_, ?_⟩ ?_ ⟨?_, ?_⟩ <;>
      simp only [session, world, List.append_nil]
  exact (awaitQuiet_rests .close _).turn (closed.trans (.of_world (cancel_world _))) rfl rfl

theorem beginRequest_turn (members : List (String × Json))
    (stands : ∃ p, m.loop.standing t = some p) :
    SaveTurn t (.own (.request members)) m (beginRequest t members m) := by
  unfold beginRequest
  cases given : checkOverrides members with
  | error f =>
    have spared : beginsSave m (.own (.request members)) = false := congrArg Except.isOk given
    exact (rests_finish _ m).turn (.refl m) rfl spared
  | ok _ =>
    have own : beginsSave m (.own (.request members)) = true := congrArg Except.isOk given
    exact .begins rfl own (.refl m) (beginSave_goes _ _ stands)

/-- A task that goes on, and is about no load, passes saves by, begins one, or goes on with its own. -/
theorem resume_turn (apart : isLoad p = false) (stands : m.loop.standing t = some p)
    {signal : Signal} (heard : active p = true → signal = .go) :
    SaveTurn t p m (host.resume t p signal m) := by
  -- of the points only those that are not active hear that something has failed or was called off
  have ends {q : Debounce.Point Point Wait} (o : Outcome) (own : inSave q = false)
      (spared : beginsSave m q = false) : SaveTurn t q m (m.finish t o) :=
    (rests_finish o m).turn (.refl m) own spared
  cases p with
  | window begun =>
    cases signal with
    | failed f => cases begun <;> exact ends _ rfl rfl
    | cancelled => cases begun <;> exact ends _ rfl rfl
    | go =>
      cases begun with
      | false => exact sleep_turn _ rfl rfl rfl
      | true =>
        change SaveTurn _ _ _ (m.fire use t)
        rw [fire_eq]
        exact (rests_finish _ (fired m)).turn (.of_world rfl) rfl rfl
  | quiet wait =>
    cases signal with
    | failed f => exact ends _ rfl rfl
    | cancelled => exact (awaitQuiet_rests wait _).turn (.of_world rfl) rfl rfl
    | go => exact (awaitQuiet_rests wait m).turn (.refl m) rfl rfl
  | pause begun seconds =>
    cases signal with
    | failed f => cases begun <;> exact ends _ rfl rfl
    | cancelled => cases begun <;> exact ends _ rfl rfl
    | go =>
      cases begun with
      | false => exact sleep_turn _ rfl rfl rfl
      | true => exact ends _ rfl rfl
  | own a =>
    cases a with
    | spawned wait =>
      cases signal with
      | failed f => exact ends _ rfl rfl
      | cancelled => exact ends _ rfl rfl
      | go => exact (waitSpawned_rests wait m).turn (.refl m) rfl rfl
    | request members =>
      cases heard rfl
      exact beginRequest_turn members ⟨_, stands⟩
    | save o after =>
      cases heard rfl
      exact .begins rfl rfl (.refl m) (beginSave_goes o after ⟨_, stands⟩)
    | queued o epoch after =>
      cases heard rfl
      exact .goesOn rfl (dequeue_goes o epoch after ⟨_, stands⟩)
    | sending call after =>
      cases heard rfl
      exact .goesOn rfl (receiveSave_goes call after m)
    | flush =>
      cases heard rfl
      exact beginFlush_turn stands
    | drain =>
      cases heard rfl
      exact (awaitQuiet_rests .drain m).turn (.refl m) rfl rfl
    | close =>
      cases heard rfl
      exact beginClose_turn m
    | load _ | loading _ _ => cases apart

end Turns

/-- In an operation a task goes on from a point, at the moment at which it gets its turn. -/
inductive Resumes (m : Coordinator) :
    Operation → TaskId → Debounce.Point Point Wait → Coordinator → Prop where
  | enter (e : Errand) :
      Resumes m (.enter e) m.loop.fresh e.point { m with loop := (m.loop.enter e.point).1 }
  | turn {c : Callback} {rest : List Callback} {t : TaskId} {p : Debounce.Point Point Wait}
      (ready : m.loop.ready = c :: rest) (target : c.target? = some t)
      (stands : m.loop.standing t = some p) : Resumes m .turn t p (takeUp rest m)

section Resumes

variable {o : Operation} {t u : TaskId} {p : Debounce.Point Point Wait} {m n k : Coordinator}

theorem Resumes.resumed (h : Resumes m o t p n) : resumed? m o = some (p, n) := by
  cases h with
  | enter e => rfl
  | @turn c rest _ _ ready target stands =>
    unfold resumed?
    simp only [ready, target, Option.bind_some, stands, Option.map_some]

theorem Resumes.world (h : Resumes m o t p n) : n.world = m.world := by cases h <;> rfl

theorem Resumes.debouncer (h : Resumes m o t p n) : n.debouncer = m.debouncer := by cases h <;> rfl

theorem Resumes.sound (h : Resumes m o t p n) (sound : Sound .idle m) (apart : inSave p = false) :
    Sound (.resumes t p) n := by
  cases h with
  | enter e => exact sound.enter e
  | turn ready target stands => exact (Move.resume ready target stands apart).sound sound

theorem Resumes.stands (h : Resumes m o t p n) (sound : Sound .idle m) :
    n.loop.standing t = some p := by
  cases h with
  | enter e => exact (sound.enter e).stands.1
  | turn _ _ stands => exact stands

theorem Resumes.standing (h : Resumes m o t p n) (sound : Sound .idle m) (other : u ≠ t) :
    n.loop.standing u = m.loop.standing u := by
  cases h with
  | enter e => exact (Loop.standing_enter m.loop e.point u sound.orderly.new).trans (if_neg other)
  | turn => rfl

theorem Resumes.resume (h : Resumes m o t p n) (sound : Sound .idle m) :
    ∃ signal, (active p = true → signal = .go) ∧ perform m o = host.resume t p signal n := by
  cases h with
  | enter e => exact ⟨.go, fun _ => rfl, rfl⟩
  | @turn c rest _ _ ready target stands =>
    obtain ⟨signal, own, run⟩ := host.run_of_target target
    rw [turn_of_callback ready, run]
    cases ha : active p with
    | true =>
      obtain rfl := own (sound.orderly.steps_of_active (ready ▸ List.mem_cons_self) target stands ha)
      exact ⟨.go, fun _ => rfl, step_of_active sound.orderly ready stands ha⟩
    | false =>
      obtain ⟨_, -, -, step⟩ := step_of_standing stands signal rest
      exact ⟨_, nofun, step⟩

theorem Resumes.moves (h : Resumes m o t p n) (sound : Sound .idle m) :
    ∃ φ n', φ.task? = some t ∧ Sound φ n' ∧ n'.loop = n.loop ∧ Moves φ n' .idle (perform m o) := by
  obtain ⟨signal, heard, resume⟩ := h.resume sound
  cases h with
  | enter e => exact ⟨_, _, rfl, sound.enter e, rfl, enter_moves e sound.orderly.new⟩
  | @turn c rest _ _ ready target stands =>
    rw [resume]
    cases own : inSave p with
    | false =>
      have resumed := (Move.resume ready target stands own).sound sound
      refine ⟨_, _, rfl, resumed, rfl, ?_⟩
      cases ha : active p with
      | true => exact heard ha ▸ resume_moves own stands
      | false => exact resume_moves_of_rests ha signal stands
    | true =>
      obtain ⟨signal', step, -⟩ := host.run_of_target target
      cases p with
      | window _ | quiet _ | pause _ _ => cases own
      | own a =>
        have steps := sound.orderly.steps_of_active (ready ▸ List.mem_cons_self) target stands
        cases a with
        | queued o epoch after =>
          obtain rfl := step (steps rfl)
          obtain rfl := heard rfl
          exact ⟨_, _, rfl, (Move.dequeue ready stands).sound sound, rfl, send_moves o epoch after _⟩
        | sending call after =>
          obtain rfl := step (steps rfl)
          obtain rfl := heard rfl
          exact ⟨_, _, rfl, (Move.reply ready stands).sound sound, rfl, receiveSave_moves call after _⟩
        | request _ | save _ _ | flush | drain | close | spawned _ | load _ | loading _ _ => cases own

theorem Moves.others {φ : Phase} (h : Moves φ n .idle k) (sound : Sound φ n)
    (task : φ.task? = some t) (other : u ≠ t) : InSave k.loop u ↔ InSave n.loop u := by
  have apart {p : Debounce.Point Point Wait} {φ : Phase} {m : Coordinator}
      (comes : Comes φ m u p) (own : φ.task? = some t) : inSave p = false := by
    cases comes with
    | rests rests => exact inSave_of_rests rests
    | fires waits => rfl
    | linesUp after phase | awaits after phase =>
      subst phase
      exact absurd (Option.some.inj own) other
    | loads phase => rfl
  -- the turn never passes to another task, and one that is made meanwhile is no save yet
  refine (h.busy_induction (J := fun ψ k => (∀ v, ψ.task? = some v → v = t) ∧
    (InSave k.loop u ↔ InSave n.loop u)) sound (by rw [task]; rfl)
    ⟨fun v hv => Option.some.inj (hv.symm.trans task), .rfl⟩ ?_).2
  rintro φ m ψ k busy sound move ⟨own, same⟩
  obtain ⟨v, turn⟩ := Option.isSome_iff_exists.mp busy
  obtain rfl := own v turn
  refine ⟨fun w hw => ?_, .trans ?_ same⟩
  · rcases move.arrives hw with still | ⟨rfl, -⟩
    · exact own w still
    · cases turn
  · cases move.placed sound u with
    | keeps same _ => exact InSave.congr same
    | changes left comes =>
      have gone : m.loop.standing u = none := by
        rcases left with ⟨left, -⟩ | gone
        · exact absurd (own u left) other
        · exact gone
      refine iff_of_false ?_ ?_
      · rintro ⟨p, hp, hs⟩
        simp [apart (comes p hp) turn] at hs
      · rintro ⟨p, hp, -⟩
        cases gone.symm.trans hp

theorem Resumes.others (h : Resumes m o t p n) (sound : Sound .idle m) (other : u ≠ t) :
    InSave (perform m o).loop u ↔ InSave m.loop u := by
  obtain ⟨φ, n', task, sound', same, moves⟩ := h.moves sound
  rw [moves.others sound' task other, same]
  exact InSave.congr (h.standing sound other)

/-- Nobody goes on: the world is as it was, and so is every save. -/
structure Lull (m k : Coordinator) : Prop where
  world : k.world = m.world
  places : ∀ u, InSave k.loop u ↔ InSave m.loop u

theorem Lull.of_standing (world : k.world = m.world)
    (standing : ∀ u, k.loop.standing u = m.loop.standing u) : Lull m k :=
  ⟨world, fun u => InSave.congr (standing u)⟩

theorem lull_spawn (sound : Sound .idle m) (e : Errand) :
    Lull m { m with loop := (m.loop.spawn e.point).1 } := by
  refine ⟨rfl, fun u => ?_⟩
  have standing := Loop.standing_spawn m.loop e.point u sound.orderly.new
  by_cases hu : u = m.loop.fresh
  · have new : ¬ InSave m.loop u := by
      rintro ⟨q, hq, -⟩
      exact absurd (sound.orderly.standing_below hq) (hu ▸ Nat.lt_irrefl _)
    refine iff_of_false ?_ new
    rintro ⟨q, hq, hs⟩
    obtain rfl := Option.some.inj ((standing.trans (if_pos hu)).symm.trans hq)
    cases e <;> cases hs
  · exact InSave.congr (standing.trans (if_neg hu))

theorem turn_of_nobody {c : Callback} {rest : List Callback} (ready : m.loop.ready = c :: rest)
    (nobody : ∀ t, c.target? = some t → m.loop.standing t = none) :
    (perform m .turn).world = m.world ∧ (perform m .turn).debouncer = m.debouncer ∧
      ∀ u, (perform m .turn).loop.standing u = m.loop.standing u := by
  rw [turn_of_callback ready]
  cases target : c.target? with
  | some t =>
    obtain ⟨signal, -, run⟩ := host.run_of_target target
    rw [run, step_of_gone (nobody t target)]
    exact ⟨rfl, rfl, fun _ => rfl⟩
  | none =>
    cases c with
    | step u signal => cases target
    | ended u outcome x =>
      cases x with
      | resume waiter => cases target
      | leave g => exact ⟨rfl, rfl, fun _ => rfl⟩
      | gather id => exact ⟨rfl, rfl, fun _ => Loop.standing_count _ _ _ _⟩

theorem resumes_or_nobody (m : Coordinator) :
    (∃ t p n, m.loop.standing t = some p ∧ Resumes m .turn t p n) ∨
      (perform m .turn).world = m.world ∧ (perform m .turn).debouncer = m.debouncer ∧
        ∀ u, (perform m .turn).loop.standing u = m.loop.standing u := by
  cases ready : m.loop.ready with
  | nil =>
    rw [turn_of_nothing ready]
    exact .inr ⟨rfl, rfl, fun _ => rfl⟩
  | cons c rest =>
    by_cases somebody : ∃ t p, c.target? = some t ∧ m.loop.standing t = some p
    · obtain ⟨t, p, target, stands⟩ := somebody
      exact .inl ⟨t, p, _, stands, .turn ready target stands⟩
    · refine .inr (turn_of_nobody ready fun t target => ?_)
      exact Option.eq_none_iff_forall_ne_some.mpr fun p stands => somebody ⟨t, p, target, stands⟩

theorem resumes_or_lull (sound : Sound .idle m) (works : o.works = true) :
    (∃ t p n, Resumes m o t p n) ∨ Lull m (perform m o) := by
  cases o with
  | start | parse _ | deliver _ | setConnected _ | edit _ | moveTable _ _ | postpone _ => cases works
  | enter e => exact .inl ⟨_, _, _, .enter e⟩
  | spawn e => exact .inr (lull_spawn sound e)
  | advance =>
    refine .inr ?_
    change Lull m ((m.loop.advance?.map fun l => { m with loop := l }).getD m)
    cases ha : m.loop.advance? with
    | none => exact .of_standing rfl fun _ => rfl
    | some l => exact .of_standing rfl fun u => Loop.standing_advance? ha u
  | turn =>
    rcases resumes_or_nobody m with ⟨t, p, n, -, resumes⟩ | ⟨world, -, standing⟩
    · exact .inl ⟨t, p, n, resumes⟩
    · exact .inr (.of_standing world standing)

end Resumes

end SchemaDiagram.Sync.Coordinator
