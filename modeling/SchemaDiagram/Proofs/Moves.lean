import SchemaDiagram.Proofs.Operations
import SchemaDiagram.Proofs.Scheduling

/-!
What the turn of a task comes to, in small moves from one phase of its work to the next, until it
waits again or ends. A save takes the lock, calls, hears the answer and releases the lock; a load
blanks the session and fills it. Each function of the coordinator is a path of such moves, so that an
invariant of the tasks is checked against the moves and not against the functions.
-/

set_option autoImplicit false

namespace SchemaDiagram

namespace Sync.Coordinator

/-- The points at which a task goes on in its own turn only. -/
def active : Debounce.Point Point Wait → Bool
  | .own (.spawned _) => false
  | .own _ => true
  | .window _ | .quiet _ | .pause _ _ => false

def inSave : Debounce.Point Point Wait → Bool
  | .own (.queued _ _ _) | .own (.sending _ _) => true
  | .own _ | .window _ | .quiet _ | .pause _ _ => false

def isLoad : Debounce.Point Point Wait → Bool
  | .own (.load _) | .own (.loading _ _) => true
  | .own _ | .window _ | .quiet _ | .pause _ _ => false

/-- Whether a task may leave a point for other work than a save: none is to be made there, or what it
    was given is refused. -/
def Spared : Debounce.Point Point Wait → Prop
  | .own (.request members) => ∃ f, checkOverrides members = .error f
  | .own (.save _ _) => False
  | .own _ | .window _ | .quiet _ | .pause _ _ => True

/-- How far the task that has its turn has come with its work. -/
inductive Phase where
  /-- No task has its turn. -/
  | idle
  /-- It goes on from the point at which it stood. -/
  | resumes (t : TaskId) (p : Debounce.Point Point Wait)
  /-- It has no part in saving or loading. -/
  | free (t : TaskId)
  | begins (t : TaskId) (o : Overrides)
  /-- It has the backend to itself, for a save that was begun in some session. -/
  | holds (t : TaskId) (o : Overrides) (epoch : Nat)
  | calls (t : TaskId) (call : SaveCall)
  /-- It still has the backend to itself, but is done with it. -/
  | leaves (t : TaskId)
  /-- It waits for the reply to a load. -/
  | fills (t : TaskId) (id : Json) (reply : Reply)

namespace Phase

def task? : Phase → Option TaskId
  | idle => none
  | resumes t _ | free t | begins t _ | holds t _ _ | calls t _ | leaves t | fills t _ _ => some t

def locks : Phase → Bool
  | holds _ _ _ | calls _ _ | leaves _ => true
  | idle | resumes _ _ | free _ | begins _ _ | fills _ _ _ => false

end Phase

def takeUp (rest : List Callback) (m : Coordinator) : Coordinator :=
  { m with loop := { m.loop with ready := rest } }

def fired (m : Coordinator) : Coordinator :=
  { m with
    debouncer := { m.debouncer with window := none, pending := none }
    loop := match m.debouncer.pending with
      | some o => (m.loop.spawnIn .fired (.own (.save o .answer))).1
      | none => m.loop }

def calling (payload : Payload) (m : Coordinator) : Coordinator :=
  (witness m (.save m.loop.now (session m).canvas.diagramId (session m).document.status
    payload)).withWorld
    { (witness m (.save m.loop.now (session m).canvas.diagramId (session m).document.status
        payload)).world with backend := m.world.backend.nextSave.1 }

def callOf (payload : Payload) (epoch : Nat) (m : Coordinator) : SaveCall :=
  ⟨(session m).canvas.diagramId, payload, m.world.backend.nextSave.2, epoch⟩

def answerTo (call : SaveCall) (m : Coordinator) : Backend × Result Json :=
  m.world.backend.answerSave call.reply call.id (Record.toWire call.payload)

def answered (call : SaveCall) (m : Coordinator) : Coordinator :=
  (witness m (.answered m.loop.now (answerTo call m).2.toOption)).withWorld
    { (witness m (.answered m.loop.now (answerTo call m).2.toOption)).world with
      backend := (answerTo call m).1 }

def hearing (call : SaveCall) (m : Coordinator) : Coordinator :=
  match (answerTo call m).2 with
  | .ok record => recordSaved record call.epoch (answered call m)
  | .error _ => answered call m

def beginning (m : Coordinator) : Coordinator :=
  if (session m).document.status = .idle then
    mapSession (m.withWorld { m.world with inFlight := m.world.inFlight + 1 }) (·.withStatus .saving)
  else m.withWorld { m.world with inFlight := m.world.inFlight + 1 }

inductive Move : Phase → Coordinator → Phase → Coordinator → Prop where
  -- between tasks
  | skip {m : Coordinator} {c : Callback} {rest : List Callback} (ready : m.loop.ready = c :: rest)
      (gone : ∀ t, c.target? = some t → m.loop.standing t = none) :
      Move .idle m .idle (takeUp rest m)
  | leaveGroup {m : Coordinator} {c : Callback} {rest : List Callback}
      (ready : m.loop.ready = c :: rest) (nobody : c.target? = none)
      (groups : List (TaskGroup × TaskId)) :
      Move .idle m .idle
        { takeUp rest m with loop := { (takeUp rest m).loop with groups := groups } }
  | count {m : Coordinator} {c : Callback} {rest : List Callback}
      (ready : m.loop.ready = c :: rest) (nobody : c.target? = none) (id : Nat) (o : Outcome) :
      Move .idle m .idle { m with loop := (takeUp rest m).loop.count id o }
  | resume {m : Coordinator} {c : Callback} {rest : List Callback} {t : TaskId}
      {p : Debounce.Point Point Wait} (ready : m.loop.ready = c :: rest) (target : c.target? = some t)
      (stands : m.loop.standing t = some p) (apart : inSave p = false) :
      Move .idle m (.resumes t p) (takeUp rest m)
  | dequeue {m : Coordinator} {rest : List Callback} {t : TaskId} {signal : Signal}
      {o : Overrides} {epoch : Nat} {after : AfterSave} (ready : m.loop.ready = .step t signal :: rest)
      (stands : m.loop.standing t = some (.own (.queued o epoch after))) :
      Move .idle m (.holds t o epoch) ((takeUp rest m).withWorld
        { m.world with saving := true, queue := m.world.queue.erase t })
  | reply {m : Coordinator} {rest : List Callback} {t : TaskId} {signal : Signal}
      {call : SaveCall} {after : AfterSave} (ready : m.loop.ready = .step t signal :: rest)
      (stands : m.loop.standing t = some (.own (.sending call after))) :
      Move .idle m (.calls t call) (takeUp rest m)
  -- in any phase
  | note (φ : Phase) (m : Coordinator) (status : Status) (inFlight : Nat) (log : List LogLine) :
      Move φ m φ { m with
        log := log
        world := { m.world with session := m.world.session.withStatus status, inFlight := inFlight } }
  | notify (φ : Phase) (m : Coordinator) (n : Note) : Move φ m φ (notify n m).1
  -- what a task that goes on turns to
  | free (t : TaskId) {p : Debounce.Point Point Wait}
      (apart : isLoad p = false ∧ inSave p = false) (spared : Spared p) (m : Coordinator) :
      Move (.resumes t p) m (.free t) m
  | save (t : TaskId) (o : Overrides) (after : AfterSave) (m : Coordinator) :
      Move (.resumes t (.own (.save o after))) m (.begins t o) m
  | request (t : TaskId) (members : List (String × Json)) (m : Coordinator) :
      Move (.resumes t (.own (.request members))) m (.begins t { members := members }) m
  | flush {m : Coordinator} (t : TaskId) {o : Overrides} (waits : m.debouncer.pending = some o) :
      Move (.resumes t (.own .flush)) m (.begins t o) m.cancel
  | load (t : TaskId) (id : Json) (m : Coordinator) :
      Move (.resumes t (.own (.load id))) m (.fills t id (loadReply m)) (blanking id m)
  | loading (t : TaskId) (id : Json) (reply : Reply) (m : Coordinator) :
      Move (.resumes t (.own (.loading id reply))) m (.fills t id reply) m
  -- the work of a task that neither saves nor loads
  | fire (t : TaskId) (m : Coordinator) : Move (.free t) m (.free t) (fired m)
  | unsubscribe (t : TaskId) (m : Coordinator) : Move (.free t) m (.free t) (unsubscribe m)
  | cancel (t : TaskId) {m : Coordinator}
      (idle : m.debouncer.pending = none ∨ m.loop.standing t = some (.own .close)) :
      Move (.free t) m (.free t) m.cancel
  | finish (t : TaskId) (o : Outcome) (m : Coordinator) : Move (.free t) m .idle (m.finish t o)
  | sleep (t : TaskId) (seconds : Float) {p : Debounce.Point Point Wait} (rests : active p = false)
      (m : Coordinator) : Move (.free t) m .idle { m with loop := m.loop.sleep t seconds p }
  | join (t target : TaskId) {p : Debounce.Point Point Wait} (rests : active p = false)
      (m : Coordinator) : Move (.free t) m .idle { m with loop := m.loop.join t target p }
  | gather (t : TaskId) (targets : List TaskId) {p : Debounce.Point Point Wait}
      (rests : active p = false) (m : Coordinator) :
      Move (.free t) m .idle { m with loop := m.loop.gather t targets p }
  -- saves
  | take {m : Coordinator} (t : TaskId) (o : Overrides)
      (unlocked : m.world.saving = false ∧ m.world.queue = []) :
      Move (.begins t o) m (.holds t o m.world.epoch) (m.withWorld { m.world with saving := true })
  | lineUp {m : Coordinator} (t : TaskId) (o : Overrides) (after : AfterSave)
      (locked : ¬ (m.world.saving = false ∧ m.world.queue = [])) :
      Move (.begins t o) m .idle { m.withWorld { m.world with queue := m.world.queue ++ [t] } with
        loop := m.loop.wait t (.own (.queued o m.world.epoch after)) }
  | drop {m : Coordinator} (t : TaskId) (o : Overrides) (epoch : Nat)
      (vain : epoch ≠ m.world.epoch ∨ ∃ ds, payloadOf o (session m) = .rejected ds) :
      Move (.holds t o epoch) m (.leaves t) m
  | call {m : Coordinator} (t : TaskId) {o : Overrides} {epoch : Nat} {payload : Payload}
      (current : epoch = m.world.epoch) (built : payloadOf o (session m) = .ok payload) :
      Move (.holds t o epoch) m (.calls t (callOf payload epoch m)) (calling payload m)
  | await (t : TaskId) (call : SaveCall) (after : AfterSave) (seconds : Float) (m : Coordinator) :
      Move (.calls t call) m .idle
        { m with loop := m.loop.sleep t seconds (.own (.sending call after)) }
  | hear (t : TaskId) (call : SaveCall) (m : Coordinator) :
      Move (.calls t call) m (.leaves t) (hearing call m)
  | release (t : TaskId) (m : Coordinator) : Move (.leaves t) m (.free t) (release m)
  -- loads
  | awaitLoad (t : TaskId) (id : Json) (reply : Reply) (seconds : Float) (m : Coordinator) :
      Move (.fills t id reply) m .idle
        { m with loop := m.loop.sleep t seconds (.own (.loading id reply)) }
  | refuse {m : Coordinator} (t : TaskId) (id : Json) (reply : Reply) {f : Fault}
      (failed : loaded id reply m = .error f) : Move (.fills t id reply) m (.free t) m
  | fill {m : Coordinator} (t : TaskId) (id : Json) (reply : Reply) {record : Json}
      (found : loaded id reply m = .ok record) :
      Move (.fills t id reply) m (.free t) (fill id record m).1

/-- The moves of one turn: a task has its turn until the last of them. -/
inductive Moves : Phase → Coordinator → Phase → Coordinator → Prop where
  | refl (φ : Phase) (m : Coordinator) : Moves φ m φ m
  | last {φ ψ : Phase} {m k : Coordinator} (h : Move φ m ψ k) : Moves φ m ψ k
  | next {φ ψ χ : Phase} {m k n : Coordinator} (h : Move φ m ψ k) (busy : ψ.task?.isSome = true)
      (rest : Moves ψ k χ n) : Moves φ m χ n

theorem Move.moves {φ ψ : Phase} {m k : Coordinator} (h : Move φ m ψ k) : Moves φ m ψ k := .last h

theorem cancel_world (m : Coordinator) : m.cancel.world = m.world := by
  unfold Debounce.Machine.cancel
  split <;> rfl

theorem release_world (m : Coordinator) :
    (release m).world = { m.world with saving := false } := by
  unfold release
  simp only
  split <;> rfl

theorem unsubscribe_world (m : Coordinator) : ∃ channel started, (unsubscribe m).world =
    { m.world with channel := channel, started := started } := by
  unfold unsubscribe
  split <;> exact ⟨_, _, rfl⟩

/-- An answer that is heard changes the session and the record last saved at most. -/
theorem hearing_same (call : SaveCall) (m : Coordinator) :
    (hearing call m).loop = m.loop ∧ (hearing call m).debouncer = m.debouncer ∧
      ∃ session lastSaved, (hearing call m).world =
        { (answered call m).world with session := session, lastSaved := lastSaved } := by
  unfold hearing
  split
  · unfold recordSaved
    split
    · exact ⟨rfl, rfl, _, _, rfl⟩
    · simp only
      split <;> exact ⟨rfl, rfl, _, _, rfl⟩
  · exact ⟨rfl, rfl, _, _, rfl⟩

section Paths

variable {t : TaskId}

theorem waitSpawned_moves (wait : Wait) (m : Coordinator) :
    Moves (.free t) m .idle (waitSpawned t wait m) := by
  unfold waitSpawned
  simp only
  split
  · cases wait with
    | close => exact (Move.finish t _ m).moves
    | drain =>
      simp only
      cases m.window? with
      | some w => exact (Move.join t w rfl m).moves
      | none =>
        simp only
        split
        · exact (Move.gather t _ rfl m).moves
        · exact (Move.finish t _ m).moves
  · exact (Move.gather t _ rfl m).moves

theorem awaitQuiet_moves (wait : Wait) (m : Coordinator) :
    Moves (.free t) m .idle (m.awaitQuiet use t wait) := by
  unfold Debounce.Machine.awaitQuiet
  cases m.window? with
  | some w => exact (Move.join t w rfl m).moves
  | none =>
    simp only
    split
    · exact (Move.gather t _ rfl m).moves
    · exact waitSpawned_moves wait m

theorem afterSave_moves (after : AfterSave) (result : Result Json) (m : Coordinator) :
    Moves (.free t) m .idle (afterSave t after result m) := by
  rcases result with f | v
  · exact (Move.finish t _ m).moves
  · cases after with
    | answer => exact (Move.finish t _ m).moves
    | drain => exact awaitQuiet_moves .drain m

theorem endSave_moves {m n : Coordinator} (h : Moves (.free t) (endSave m) .idle n) :
    Moves (.free t) m .idle n := by
  unfold endSave at h
  simp only at h
  split at h
  · exact .next (.note _ m .idle (m.world.inFlight - 1) m.log) rfl h
  · exact .next (.note _ m m.world.session.document.status (m.world.inFlight - 1) m.log) rfl h

theorem leave_moves (after : AfterSave) (result : Result Json) (m : Coordinator) :
    Moves (.leaves t) m .idle (leave t after result m) :=
  .next (.release t m) rfl (endSave_moves (afterSave_moves after result _))

theorem logs_moves {φ ψ : Phase} {m n : Coordinator} {level : LogLevel} {message : String}
    (busy : φ.task?.isSome = true) (h : Moves φ (logs m level message) ψ n) : Moves φ m ψ n :=
  .next (.note φ m m.world.session.document.status m.world.inFlight (logs m level message).log) busy h

theorem receiveSave_eq (t : TaskId) (call : SaveCall) (after : AfterSave) (m : Coordinator) :
    receiveSave t call after m =
      match (answerTo call m).2 with
      | .ok record => leave t after (.ok record) (recordSaved record call.epoch (answered call m))
      | .error (.persistence message _) =>
        match reportRefusal "save diagram" message (answered call m) with
        | (m, none) => leave t after (.ok .null) m
        | (m, some f) => leave t after (.error f) m
      | .error f => leave t after (.error f) (answered call m) := rfl

theorem receiveSave_moves (call : SaveCall) (after : AfterSave) (m : Coordinator) :
    Moves (.calls t call) m .idle (receiveSave t call after m) := by
  rw [receiveSave_eq]
  have heard := Move.hear t call m
  unfold hearing at heard
  rcases hr : (answerTo call m).2 with f | record
  · rw [hr] at heard
    change Move _ m _ (answered call m) at heard
    refine .next heard rfl ?_
    split
    · contradiction
    · exact logs_moves rfl (.next (.notify _ _ _) rfl (leave_moves after (.ok .null) _))
    · exact leave_moves after (.error _) _
  · rw [hr] at heard
    exact .next heard rfl (leave_moves after (.ok record) _)

theorem send_eq (t : TaskId) (o : Overrides) (epoch : Nat) (after : AfterSave) (m : Coordinator) :
    send t o epoch after m =
      if epoch ≠ m.world.epoch then
        leave t after (.ok .null) (logs m .debug "Save queued for a previous session; skipped")
      else
        match payloadOf o (session m) with
        | .rejected ds => leave t after (.error (.invalid ⟨Record.name Payload, ds⟩)) m
        | .ok payload =>
          match (callOf payload epoch m).reply.delay with
          | some seconds => { calling payload m with
              loop := m.loop.sleep t seconds (.own (.sending (callOf payload epoch m) after)) }
          | none => receiveSave t (callOf payload epoch m) after (calling payload m) := rfl

theorem send_moves (o : Overrides) (epoch : Nat) (after : AfterSave) (m : Coordinator) :
    Moves (.holds t o epoch) m .idle (send t o epoch after m) := by
  rw [send_eq]
  split
  · exact .next (.drop t o epoch (.inl ‹_›)) rfl (logs_moves rfl (leave_moves after (.ok .null) _))
  · rename_i current
    cases built : payloadOf o (session m) with
    | rejected ds =>
      exact .next (.drop t o epoch (.inr ⟨ds, built⟩)) rfl (leave_moves after (.error _) m)
    | ok payload =>
      refine .next (.call t (Decidable.not_not.mp current) built) rfl ?_
      simp only
      split
      · exact (Move.await t _ after _ (calling payload m)).moves
      · exact receiveSave_moves _ after _

theorem beginSave_eq (t : TaskId) (o : Overrides) (after : AfterSave) (m : Coordinator) :
    beginSave t o after m =
      if (beginning m).world.saving = false ∧ (beginning m).world.queue = [] then
        send t o (beginning m).world.epoch after
          ((beginning m).withWorld { (beginning m).world with saving := true })
      else
        { (beginning m).withWorld
            { (beginning m).world with queue := (beginning m).world.queue ++ [t] } with
          loop := (beginning m).loop.wait t
            (.own (.queued o (beginning m).world.epoch after)) } := by
  have he : (beginning m).world.epoch = m.world.epoch := by
    unfold beginning
    split <;> rfl
  rw [he]
  rfl

theorem beginSave_moves (o : Overrides) (after : AfterSave) (m : Coordinator) :
    Moves (.begins t o) m .idle (beginSave t o after m) := by
  have begun {n : Coordinator} (h : Moves (.begins t o) (beginning m) .idle n) :
      Moves (.begins t o) m .idle n := by
    unfold beginning at h
    split at h
    · exact .next (.note _ m .saving (m.world.inFlight + 1) m.log) rfl h
    · exact .next (.note _ m m.world.session.document.status (m.world.inFlight + 1) m.log) rfl h
  rw [beginSave_eq]
  split
  · rename_i unlocked
    exact begun (.next (.take t o unlocked) rfl (send_moves o _ after _))
  · rename_i locked
    exact begun (Move.lineUp t o after locked).moves

theorem dequeue_moves (o : Overrides) (epoch : Nat) (after : AfterSave) {m : Coordinator}
    {rest : List Callback} {signal : Signal} (ready : m.loop.ready = .step t signal :: rest)
    (stands : m.loop.standing t = some (.own (.queued o epoch after))) :
    Moves .idle m .idle (dequeue t o epoch after (takeUp rest m)) :=
  .next (.dequeue ready stands) rfl (send_moves o epoch after _)

theorem beginFlush_moves (m : Coordinator) :
    Moves (.resumes t (.own .flush)) m .idle (beginFlush t m) := by
  unfold beginFlush Debounce.Machine.takePending
  cases m.pending with
  | false => exact .next (.free t (p := .own .flush) ⟨rfl, rfl⟩ trivial m) rfl (awaitQuiet_moves .drain m)
  | true =>
    cases waits : m.debouncer.pending with
    | none =>
      exact .next (.free t (p := .own .flush) ⟨rfl, rfl⟩ trivial m) rfl
        (.next (.cancel t (.inl waits)) rfl (awaitQuiet_moves .drain _))
    | some o => exact .next (.flush t waits) rfl (beginSave_moves o .drain _)

theorem beginClose_moves {m : Coordinator} (stands : m.loop.standing t = some (.own .close)) :
    Moves (.free t) m .idle (beginClose t m) := by
  have still : (unsubscribe m).loop.standing t = some (.own .close) := by
    unfold unsubscribe
    split <;> exact stands
  exact .next (.unsubscribe t m) rfl (.next (.cancel t (.inr still)) rfl (awaitQuiet_moves .close _))

theorem beginRequest_moves (members : List (String × Json)) (m : Coordinator) :
    Moves (.resumes t (.own (.request members))) m .idle (beginRequest t members m) := by
  unfold beginRequest
  cases refused : checkOverrides members with
  | error f =>
    have spared : Spared (.own (.request members)) := ⟨f, refused⟩
    exact .next (.free t ⟨rfl, rfl⟩ spared m) rfl (Move.finish t _ m).moves
  | ok _ => exact .next (.request t members m) rfl (beginSave_moves _ _ m)

theorem receiveLoad_moves (id : Json) (reply : Reply) (m : Coordinator) :
    Moves (.fills t id reply) m .idle (receiveLoad t id reply m) := by
  unfold receiveLoad
  cases found : loaded id reply m with
  | error f =>
    refine .next (.refuse t id reply found) rfl ?_
    split
    · exact logs_moves rfl (.next (.notify _ _ _) rfl (Move.finish t _ _).moves)
    · exact (Move.finish t _ m).moves
    · contradiction
  | ok record =>
    refine .next (.fill t id reply found) rfl ?_
    dsimp only
    rcases fill id record m with ⟨k, f⟩
    cases f with
    | some f => exact (Move.finish t _ k).moves
    | none =>
      cases loadedName id with
      | error f => exact (Move.finish t _ k).moves
      | ok name => exact logs_moves rfl (Move.finish t _ _).moves

theorem beginLoad_filling (id : Json) (m : Coordinator) :
    Moves (.fills t id (loadReply m)) (blanking id m) .idle (beginLoad t id m) := by
  unfold beginLoad
  split
  · exact (Move.awaitLoad t id _ _ (blanking id m)).moves
  · exact receiveLoad_moves id _ _

theorem beginLoad_moves (id : Json) (m : Coordinator) :
    Moves (.resumes t (.own (.load id))) m .idle (beginLoad t id m) :=
  .next (.load t id m) rfl (beginLoad_filling id m)

theorem fire_eq (t : TaskId) (m : Coordinator) :
    m.fire use t = (fired m).finish t (.returned .null) := by
  unfold Debounce.Machine.fire fired
  cases m.debouncer.pending <;> rfl

theorem resume_moves {p : Debounce.Point Point Wait} (apart : inSave p = false) {m : Coordinator}
    (stands : m.loop.standing t = some p) :
    Moves (.resumes t p) m .idle (host.resume t p .go m) := by
  have freely {q : Debounce.Point Point Wait} {k : Coordinator} (h : Moves (.free t) m .idle k)
      (apart : isLoad q = false ∧ inSave q = false) (spared : Spared q) :
      Moves (.resumes t q) m .idle k :=
    .next (.free t apart spared m) rfl h
  cases p with
  | window begun =>
    cases begun with
    | false => exact freely (Move.sleep t _ (p := .window true) rfl m).moves ⟨rfl, rfl⟩ trivial
    | true =>
      change Moves _ m _ (m.fire use t)
      rw [fire_eq]
      exact freely (.next (.fire t m) rfl (Move.finish t _ _).moves) ⟨rfl, rfl⟩ trivial
  | quiet wait => exact freely (awaitQuiet_moves wait m) ⟨rfl, rfl⟩ trivial
  | pause begun seconds =>
    cases begun with
    | false => exact freely (Move.sleep t _ (p := .pause true seconds) rfl m).moves ⟨rfl, rfl⟩ trivial
    | true => exact freely (Move.finish t _ m).moves ⟨rfl, rfl⟩ trivial
  | own a =>
    cases a with
    | request members => exact beginRequest_moves members m
    | save o after => exact .next (.save t o after m) rfl (beginSave_moves o after m)
    | queued o epoch after => cases apart
    | sending call after => cases apart
    | flush => exact beginFlush_moves m
    | drain => exact freely (awaitQuiet_moves .drain m) ⟨rfl, rfl⟩ trivial
    | close => exact freely (beginClose_moves stands) ⟨rfl, rfl⟩ trivial
    | spawned wait => exact freely (waitSpawned_moves wait m) ⟨rfl, rfl⟩ trivial
    | load id => exact beginLoad_moves id m
    | loading id reply => exact .next (.loading t id reply m) rfl (receiveLoad_moves id reply m)

theorem inSave_of_rests {p : Debounce.Point Point Wait} (rests : active p = false) :
    inSave p = false := by
  cases p with
  | window _ | quiet _ | pause _ _ => rfl
  | own a => cases a <;> first | rfl | cases rests

/-- A task that is not active may hear that what it waited for has failed, or that it is called off. -/
theorem resume_moves_of_rests {p : Debounce.Point Point Wait} (rests : active p = false)
    (signal : Signal) {m : Coordinator} (stands : m.loop.standing t = some p) :
    Moves (.resumes t p) m .idle (host.resume t p signal m) := by
  have apart : isLoad p = false ∧ Spared p := by
    cases p with
    | window _ | quiet _ | pause _ _ => exact ⟨rfl, trivial⟩
    | own a => cases a <;> first | exact ⟨rfl, trivial⟩ | cases rests
  have freely {k : Coordinator} (h : Moves (.free t) m .idle k) : Moves (.resumes t p) m .idle k :=
    .next (.free t ⟨apart.1, inSave_of_rests rests⟩ apart.2 m) rfl h
  have ends (o : Outcome) : Moves (.resumes t p) m .idle (m.finish t o) :=
    freely (Move.finish t o m).moves
  cases signal with
  | go => exact resume_moves (inSave_of_rests rests) stands
  | failed f =>
    cases p with
    | window begun => cases begun <;> exact ends _
    | quiet wait => exact ends _
    | pause begun seconds => cases begun <;> exact ends _
    | own a => exact ends _
  | cancelled =>
    cases p with
    | window begun => cases begun <;> exact ends _
    | quiet wait =>
      exact freely (.next (.note _ m m.world.session.document.status m.world.inFlight _) rfl
        (awaitQuiet_moves wait _))
    | pause begun seconds => cases begun <;> exact ends _
    | own a => exact ends _

theorem step_of_gone {m : Coordinator} (gone : m.loop.standing t = none) (signal : Signal)
    (rest : List Callback) : host.step t signal (takeUp rest m) = takeUp rest m :=
  host.step_of_gone (s := takeUp rest m) gone signal

theorem step_of_standing {m : Coordinator} {p : Debounce.Point Point Wait}
    (stands : m.loop.standing t = some p) (signal : Signal) (rest : List Callback) :
    ∃ task, m.loop.task? t = some task ∧ task.point = p ∧
      host.step t signal (takeUp rest m) =
        host.resume t p (if task.calledOff then .cancelled else signal) (takeUp rest m) :=
  host.step_of_standing (s := takeUp rest m) stands signal

theorem step_of_active {m : Coordinator} (orderly : m.loop.Orderly active m.debouncer.window)
    {rest : List Callback} {signal : Signal} (ready : m.loop.ready = .step t signal :: rest)
    {p : Debounce.Point Point Wait} (stands : m.loop.standing t = some p) (act : active p = true) :
    host.step t signal (takeUp rest m) = host.resume t p .go (takeUp rest m) := by
  obtain rfl := orderly.signal_of_active (ready ▸ List.mem_cons_self) stands act
  obtain ⟨task, found, rfl, step⟩ := step_of_standing stands .go rest
  rw [step, if_neg (by simp [orderly.calledOff_of_active found stands act])]

theorem step_moves {m : Coordinator} (orderly : m.loop.Orderly active m.debouncer.window) {c : Callback}
    {rest : List Callback} (ready : m.loop.ready = c :: rest) (target : c.target? = some t)
    {signal : Signal} (own : ∀ p, m.loop.standing t = some p → active p = true →
      c = .step t signal) : Moves .idle m .idle (host.step t signal (takeUp rest m)) := by
  cases stands : m.loop.standing t with
  | none =>
    rw [step_of_gone stands]
    exact (Move.skip ready fun u hu => Option.some.inj (target.symm.trans hu) ▸ stands).moves
  | some p =>
    cases ha : active p with
    | false =>
      obtain ⟨_, -, -, step⟩ := step_of_standing stands signal rest
      rw [step]
      exact .next (.resume ready target stands (inSave_of_rests ha)) rfl
        (resume_moves_of_rests ha _ stands)
    | true =>
      obtain rfl := own p stands ha
      rw [step_of_active orderly ready stands ha]
      cases hp : inSave p with
      | false => exact .next (.resume ready target stands hp) rfl (resume_moves hp stands)
      | true =>
        cases p with
        | window _ | quiet _ | pause _ _ => cases hp
        | own a =>
          cases a with
          | queued o epoch after => exact dequeue_moves o epoch after ready stands
          | sending call after => exact .next (.reply ready stands) rfl (receiveSave_moves call after _)
          | request _ | save _ _ | flush | drain | close | spawned _ | load _ | loading _ _ =>
            cases hp

theorem turn_of_callback {m : Coordinator} {c : Callback} {rest : List Callback}
    (ready : m.loop.ready = c :: rest) : perform m .turn = host.run c (takeUp rest m) := by
  unfold perform LoopHost.turn?
  rw [show (host.loop m).ready = m.loop.ready from rfl, ready]
  rfl

theorem turn_of_nothing {m : Coordinator} (nothing : m.loop.ready = []) : perform m .turn = m := by
  unfold perform LoopHost.turn?
  rw [show (host.loop m).ready = m.loop.ready from rfl, nothing]
  rfl

theorem turn_of_ready {m : Coordinator} {rest : List Callback} {signal : Signal}
    (ready : m.loop.ready = .step t signal :: rest) :
    perform m .turn = host.step t signal (takeUp rest m) :=
  turn_of_callback ready

theorem turn_moves {m k : Coordinator} (orderly : m.loop.Orderly active m.debouncer.window)
    (h : host.turn? m = some k) : Moves .idle m .idle k := by
  unfold LoopHost.turn? at h
  rw [show (host.loop m).ready = m.loop.ready from rfl] at h
  cases ready : m.loop.ready with
  | nil => simp [ready] at h
  | cons c rest =>
    rw [ready] at h
    obtain rfl := Option.some.inj h
    cases c with
    | step t signal => exact step_moves orderly ready rfl fun _ _ _ => rfl
    | ended t o x =>
      cases x with
      | leave g => exact (Move.leaveGroup ready rfl _).moves
      | gather id => exact (Move.count ready rfl id o).moves
      | resume waiter =>
        refine step_moves orderly ready rfl fun p hp ha => ?_
        cases orderly.steps_of_active (ready ▸ List.mem_cons_self) rfl hp ha

theorem enter_moves (e : Errand) {m : Coordinator} (new : m.loop.task? m.loop.fresh = none) :
    Moves (.resumes m.loop.fresh e.point) { m with loop := (m.loop.enter e.point).1 } .idle
      (host.enter e.point m).1 :=
  resume_moves (by cases e <;> rfl) ((Loop.standing_enter m.loop e.point _ new).trans (if_pos rfl))

end Paths

end Sync.Coordinator

end SchemaDiagram
