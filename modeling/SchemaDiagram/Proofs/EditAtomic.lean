import SchemaDiagram.Proofs.Attempt
import SchemaDiagram.Sync.Coordinator

/-!
Edits are atomic. A call that does not commit leaves the session as it was, up to the rollback
buffer, and hands no schema on; that holds however the call ends, by an answer or by a failure of
the change, of the reduction or of the note to the user.
-/

set_option autoImplicit false

namespace SchemaDiagram

theorem Session.document_deselect (s : Session) (id : Json) : (s.deselect id).document = s.document := by
  unfold Session.deselect
  split <;> rfl

theorem Session.canvas_deselect (s : Session) (id : Json) : (s.deselect id).canvas = s.canvas := by
  unfold Session.deselect
  split <;> rfl

namespace EditHost

variable {S : Type}

/-- What a host leaves alone. A session is found as it was put, and verdicts, lines for the log and
    notes to the user do not touch it. -/
structure Lawful (h : EditHost S) : Prop where
  session_put : ∀ t s, h.session (h.putSession t s) = t
  session_verdict : ∀ v s, h.session (h.putVerdict v s) = h.session s
  session_log : ∀ l s, h.session (h.log l s) = h.session s
  session_notify : ∀ n s, h.session (h.notify n s).1 = h.session s

/-- A host that also writes down every schema it is handed. -/
def recording (h : EditHost S) : EditHost (S × List Schema) where
  session p := h.session p.1
  putSession t p := (h.putSession t p.1, p.2)
  putVerdict v p := (h.putVerdict v p.1, p.2)
  log l p := (h.log l p.1, p.2)
  notify n p := (((h.notify n p.1).1, p.2), (h.notify n p.1).2)
  commit schema p := (((h.commit schema p.1).1, p.2 ++ [schema]), (h.commit schema p.1).2)

theorem session_logAll {h : EditHost S} (lawful : h.Lawful) (lines : List LogLine) (s : S) :
    h.session (h.logAll lines s) = h.session s := by
  induction lines generalizing s with
  | nil => rfl
  | cons l rest ih => exact (ih (h.log l s)).trans (lawful.session_log l s)

theorem logAll_recording (h : EditHost S) (lines : List LogLine) (s : S) (calls : List Schema) :
    h.recording.logAll lines (s, calls) = (h.logAll lines s, calls) := by
  induction lines generalizing s with
  | nil => rfl
  | cons l rest ih => exact ih (h.log l s)

theorem settle_recording (h : EditHost S) (e : Edit) (s : S) (calls : List Schema) :
    h.recording.settle e (s, calls) = (h.settle e s, calls) := by
  cases e <;> rfl

def rollbackState (h : EditHost S) (e : Edit) (t : Session) (v : Verdict) (s : S) : S :=
  h.logAll (v.log ++ [rollbackLine e v]) (h.putVerdict v (h.putSession t s))

def rollbackNote (v : Verdict) : Note := Note.error v.firstMessage Note.editorSource

def commitState (h : EditHost S) (e : Edit) (t : Session) (schema : Schema) (s : S) : S :=
  h.log ⟨.debug, .edits, e.name ++ ": committed"⟩ (h.putVerdict schema.check (h.putSession t s))

variable {h : EditHost S} {grid : Grid} {e : Edit} {s : S} {t : Session}

theorem run_failed {f : Fault} (ha : (h.session s).attempt grid e = (t, .failed f)) :
    h.run grid e s = (h.putSession t s, .error f) := by
  unfold run
  rw [ha]

theorem run_of_rolledBack {v : Verdict} (ha : (h.session s).attempt grid e = (t, .rolledBack v)) :
    h.run grid e s =
      match h.notify (rollbackNote v) (h.rollbackState e t v s) with
      | (s, some f) => (s, .error f)
      | (s, none) => (s, .ok e.declined) := by
  unfold run
  rw [ha]
  rfl

theorem run_rolledBack {v : Verdict} (ha : (h.session s).attempt grid e = (t, .rolledBack v)) :
    h.run grid e s =
      ((h.notify (rollbackNote v) (h.rollbackState e t v s)).1,
        match (h.notify (rollbackNote v) (h.rollbackState e t v s)).2 with
        | some f => .error f
        | none => .ok e.declined) := by
  rw [run_of_rolledBack ha]
  rcases h.notify (rollbackNote v) (h.rollbackState e t v s) with ⟨s', f⟩
  cases f <;> rfl

theorem run_passed {schema : Schema} {id : Option String}
    (ha : (h.session s).attempt grid e = (t, .passed schema id)) :
    h.run grid e s =
      match h.commit schema (h.commitState e t schema s) with
      | (s', some f) => (s', .error f)
      | (s', none) => (h.settle e s', .ok (e.accepted id)) := by
  unfold run
  rw [ha]
  rfl

/-- Writing down what is handed on does not change the course of an edit. A schema is handed on just
    when the attempt passes. -/
theorem run_recording (h : EditHost S) (grid : Grid) (e : Edit) (s : S) (calls : List Schema) :
    h.recording.run grid e (s, calls) =
      (((h.run grid e s).1, calls ++ ((h.session s).attempt grid e).2.schema?.toList),
        (h.run grid e s).2) := by
  have hs : h.recording.session (s, calls) = h.session s := rfl
  rcases ha : (h.session s).attempt grid e with ⟨t, a⟩
  cases a with
  | failed f =>
    rw [run_failed (h := h.recording) (hs ▸ ha), run_failed ha]
    simp only [Attempt.schema?, Option.toList_none, List.append_nil]
    rfl
  | rolledBack v =>
    rw [run_rolledBack (h := h.recording) (hs ▸ ha), run_rolledBack ha]
    have hr : h.recording.rollbackState e t v (s, calls) = (h.rollbackState e t v s, calls) :=
      logAll_recording h _ _ calls
    rw [hr]
    simp only [Attempt.schema?, Option.toList_none, List.append_nil]
    rfl
  | passed schema id =>
    rw [run_passed (h := h.recording) (hs ▸ ha), run_passed ha]
    have hc : h.recording.commit schema (h.recording.commitState e t schema (s, calls)) =
        (((h.commit schema (h.commitState e t schema s)).1, calls ++ [schema]),
          (h.commit schema (h.commitState e t schema s)).2) := rfl
    rw [hc]
    rcases h.commit schema (h.commitState e t schema s) with ⟨s', f⟩
    cases f with
    | none => simp only [settle_recording, Attempt.schema?, Option.toList_some]
    | some f => simp only [Attempt.schema?, Option.toList_some]

/-- A call does not commit: it answers that the edit was rolled back, the change or its reduction
    fails, or the note that tells the user of a rollback does. -/
inductive Uncommitted (h : EditHost S) (grid : Grid) (e : Edit) (s : S) : Prop where
  | declined (answer : (h.run grid e s).2 = .ok e.declined)
  | failed (t : Session) (f : Fault) (cause : (h.session s).attempt grid e = (t, .failed f))
  | unheard (t : Session) (v : Verdict) (f : Fault)
      (cause : (h.session s).attempt grid e = (t, .rolledBack v))
      (refused : (h.run grid e s).2 = .error f)

theorem uncommitted_iff :
    h.Uncommitted grid e s ↔ ((h.session s).attempt grid e).2.schema? = none := by
  rcases (h.session s).attempt_cases grid e with
    ⟨f, ha⟩ | ⟨v, hv, ha⟩ | ⟨d, id, schema, hd, hr, hv, ha⟩
  · rw [ha]
    exact ⟨fun _ => rfl, fun _ => .failed _ f ha⟩
  · rw [ha]
    refine ⟨fun _ => rfl, fun _ => ?_⟩
    have answer := congrArg Prod.snd (run_rolledBack ha)
    cases hn : (h.notify (rollbackNote v) (h.rollbackState e (h.session s).saved v s)).2 with
    | none =>
      rw [hn] at answer
      exact .declined answer
    | some f =>
      rw [hn] at answer
      exact .unheard _ v f ha answer
  · rw [ha]
    refine ⟨fun u => ?_, fun hp => nomatch hp⟩
    exfalso
    cases u with
    | declined answer =>
      -- an answer after a commit is told apart from one after a rollback by the id it gives
      rw [run_passed ha] at answer
      rcases hc : h.commit schema
        (h.commitState e ((h.session s).saved.withDiagram d) schema s) with ⟨s', f⟩
      rw [hc] at answer
      cases f with
      | none => exact Edit.accepted_ne_declined (Edit.apply_id hd) (Except.ok.inj answer)
      | some f => cases answer
    | failed t f cause =>
      rw [ha] at cause
      cases cause
    | unheard t v f cause refused =>
      rw [ha] at cause
      cases cause

instance : Decidable (h.Uncommitted grid e s) := decidable_of_iff _ uncommitted_iff.symm

theorem session_of_unpassed (lawful : h.Lawful)
    (hp : ((h.session s).attempt grid e).2.schema? = none) :
    h.session (h.run grid e s).1 = (h.session s).saved := by
  rcases (h.session s).attempt_cases grid e with
    ⟨f, ha⟩ | ⟨v, hv, ha⟩ | ⟨d, id, schema, hd, hr, hv, ha⟩
  · rw [run_failed ha]
    exact lawful.session_put _ _
  · rw [run_rolledBack ha]
    calc
      h.session (h.notify (rollbackNote v) _).1
          = h.session (h.rollbackState e (h.session s).saved v s) := lawful.session_notify _ _
      _ = h.session (h.putVerdict v (h.putSession (h.session s).saved s)) :=
          session_logAll lawful _ _
      _ = h.session (h.putSession (h.session s).saved s) := lawful.session_verdict _ _
      _ = (h.session s).saved := lawful.session_put _ _
  · rw [ha] at hp
    cases hp

/-- An edit that does not commit leaves nodes, edges, diagram id, document and selection as they
    were and hands nothing on. -/
theorem uncommitted_edit_leaves_session (lawful : h.Lawful) (calls : List Schema)
    (u : h.Uncommitted grid e s) :
    let before := h.session s
    let after := h.session (h.run grid e s).1
    after.diagram.nodes = before.diagram.nodes ∧ after.diagram.edges = before.diagram.edges ∧
      after.canvas.diagramId = before.canvas.diagramId ∧ after.document = before.document ∧
      after.selection = before.selection ∧
      h.recording.run grid e (s, calls) = (((h.run grid e s).1, calls), (h.run grid e s).2) := by
  have hp := uncommitted_iff.mp u
  have hs := session_of_unpassed lawful hp
  have hr := run_recording h grid e s calls
  rw [hp, Option.toList_none, List.append_nil] at hr
  intro before after
  have ha : after = before.saved := hs
  rw [ha]
  exact ⟨rfl, rfl, rfl, rfl, rfl, hr⟩

end EditHost

theorem Sync.Coordinator.editHost_lawful : Sync.Coordinator.editHost.Lawful where
  session_put _ _ := rfl
  session_verdict _ _ := rfl
  session_log _ _ := rfl
  session_notify _ _ := rfl

structure Desk where
  session : Session
  verdict : Option Verdict := none
  notes : List Note := []

namespace Desk

def host (handler : Note → Option Fault) : EditHost Desk where
  session := session
  putSession t s := { s with session := t }
  putVerdict v s := { s with verdict := some v }
  log _ s := s
  notify n s := ({ s with notes := s.notes ++ [n] }, handler n)
  commit _ s := (s, none)

theorem host_lawful (handler : Note → Option Fault) : (host handler).Lawful where
  session_put _ _ := rfl
  session_verdict _ _ := rfl
  session_log _ _ := rfl
  session_notify _ _ := rfl

def usersAndPosts : Diagram where
  nodes := [
    { id := "a",
      data := { label := .text "users", columns := [{ title := "id", type := "int" }] } },
    { id := "b",
      data := { label := .text "posts", columns := [{ title := "user", type := "int" }] } }]
  edges := [{
    id := "r"
    source := "b"
    target := "a"
    sourceHandle := some "user-source"
    targetHandle := some "id" }]

/-- A column loses its title and an edge its handle before the check refuses the result; the handler
    of the note fails as well. -/
theorem refused_note_leaves_session :
    let h := host fun _ => some (.handler "handler failed")
    let e := Edit.updateColumn (.str "a") (.str "id") (.obj [("title", .str "")])
    let s : Desk := { session := Session.blank.withDiagram usersAndPosts }
    h.Lawful ∧ h.Uncommitted {} e s ∧
      (h.session (h.run {} e s).1).diagram.nodes = usersAndPosts.nodes ∧
      (h.session (h.run {} e s).1).diagram.edges = usersAndPosts.edges ∧
      (h.recording.run {} e (s, [])).1.2 = [] := by
  intro h e s
  have lawful : h.Lawful := host_lawful _
  have u : h.Uncommitted {} e s :=
    .unheard (h.session s).saved ⟨[.missingColumnName "users"]⟩ (.handler "handler failed")
      (by decide) rfl
  obtain ⟨hn, he, -, -, -, hr⟩ := EditHost.uncommitted_edit_leaves_session lawful [] u
  refine ⟨lawful, u, hn, he, ?_⟩
  rw [hr]

end Desk

end SchemaDiagram
