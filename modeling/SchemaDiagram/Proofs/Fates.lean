import SchemaDiagram.Proofs.Talk

/-!
What messages do to the status and the errors of a session. An answer is dropped, or it ends the parsing
and no more, or its handler fails and nothing is shown of it, or the session takes over what it tells. A
schema that is handed back ends or begins an error.
-/

set_option autoImplicit false

namespace SchemaDiagram.Sync.Coordinator

/-- What becomes of an answer to a parse request. -/
inductive Fate where
  | dropped
  /-- It is out of date, but the last that is expected, and the session does not parse any more. -/
  | lifted
  /-- Its handler fails, and nothing is shown of it. -/
  | refused
  /-- The session takes over what it tells, be it a schema or errors. -/
  | taken
  deriving DecidableEq

def failsSilently : Option Fault → Bool
  | some f => !isInconsistency f
  | none => false

def fateOf (kind : Inbound) (payload : Json) (m : Coordinator) : Fate :=
  match (accept payload m).2 with
  | .error _ => .refused
  | .ok false => if Expects m then .lifted else .dropped
  | .ok true => if failsSilently (handle kind payload m).2 then .refused else .taken

section Messages

variable {m k : Coordinator}

structure Alike (m k : Coordinator) : Prop where
  status : (session k).document.status = (session m).document.status
  errors : (session k).document.errors = (session m).document.errors

/-- What an answer shows, by its fate. -/
def Fate.Shows (m k : Coordinator) : Fate → Prop
  | dropped => Alike m k ∧ ¬ Expects m
  | lifted => Expects m ∧ (session k).document.status = .idle ∧
      (session k).document.errors = (session m).document.errors
  | refused => Alike m k
  | taken => (session k).document.status =
      if (session k).document.errors = [] then .idle else .error

/-- What an answer shows turns on what is done with one that passes the test. -/
theorem shows_of_passes {kind : Inbound} {payload : Json}
    (rejected : (accept payload m).2 ≠ .ok true → (handle kind payload m).1 = (accept payload m).1)
    (passes : accept payload m = (counting m, .ok true) →
      (if failsSilently (handle kind payload m).2 then Fate.refused else .taken).Shows m
        (handle kind payload m).1) :
    (fateOf kind payload m).Shows m (handle kind payload m).1 := by
  have judged := accept_judged payload m
  unfold fateOf
  generalize accept payload m = r at judged rejected passes ⊢
  cases judged with
  | passes => exact passes rfl
  | unread f =>
    rw [rejected nofun]
    exact ⟨rfl, rfl⟩
  | stale l more =>
    rw [rejected nofun]
    simp only [if_neg more]
    exact ⟨⟨rfl, rfl⟩, more⟩
  | last l last =>
    rw [rejected nofun]
    simp only [if_pos last]
    exact ⟨last, rfl, rfl⟩

theorem handleParsed_shows (payload : Json) (m : Coordinator) :
    (fateOf .parsed payload m).Shows m (handle .parsed payload m).1 := by
  -- the one failure of which the session is told counts as taken over
  have parsed := handleParsed_parsed payload m
  refine shows_of_passes (fun rejected => ?_) fun passes => ?_
  · change (handleParsed payload m).1 = _
    generalize (accept payload m).2 = passes, handleParsed payload m = step at parsed rejected ⊢
    cases parsed with
    | unread | stale => rfl
    | refused | flawed | drawn | inconsistent => exact absurd rfl rejected
  · change (if failsSilently (handleParsed payload m).2 then Fate.refused else .taken).Shows m
      (handleParsed payload m).1
    rw [passes] at parsed
    generalize handleParsed payload m = step at parsed ⊢
    cases parsed with
    | refused f other =>
      simp only [failsSilently, other, Bool.not_false, if_true]
      exact ⟨rfl, rfl⟩
    | inconsistent l read projected own =>
      simp only [failsSilently, own, Bool.not_true]
      rfl
    | flawed | drawn => rfl

theorem handleParseFailed_shows (payload : Json) (m : Coordinator) :
    (fateOf .parseFailed payload m).Shows m (handle .parseFailed payload m).1 := by
  have failed := handleParseFailed_parseFailed payload m
  refine shows_of_passes (fun rejected => ?_) fun passes => ?_
  · change (handleParseFailed payload m).1 = _
    generalize (accept payload m).2 = passes, handleParseFailed payload m = step at failed rejected ⊢
    cases failed with
    | unread | stale => rfl
    | refused | told => exact absurd rfl rejected
  · change (if failsSilently (handleParseFailed payload m).2 then Fate.refused else .taken).Shows m
      (handleParseFailed payload m).1
    rw [passes] at failed
    generalize handleParseFailed payload m = step at failed ⊢
    cases failed with
    | refused l f other =>
      simp only [failsSilently, other, Bool.not_false, if_true]
      exact ⟨rfl, rfl⟩
    | told => rfl

theorem reply_shows {kind : Inbound} (answers : kind ≠ .schemaUpdated) (payload : Json)
    (m : Coordinator) : (fateOf kind payload m).Shows m (handle kind payload m).1 := by
  cases kind with
  | parsed => exact handleParsed_shows payload m
  | parseFailed => exact handleParseFailed_shows payload m
  | schemaUpdated => exact absurd rfl answers

theorem refused_fails {kind : Inbound} (answers : kind ≠ .schemaUpdated) {payload : Json}
    (refused : fateOf kind payload m = .refused) : ∃ f, (handle kind payload m).2 = some f := by
  unfold fateOf at refused
  cases kind with
  | parsed =>
    have parsed : Parsed payload (accept payload m).1 (accept payload m).2 (handle .parsed payload m) :=
      handleParsed_parsed payload m
    generalize (accept payload m).2 = passes, handle .parsed payload m = step at parsed refused ⊢
    cases parsed with
    | unread f | refused f | inconsistent => exact ⟨_, rfl⟩
    | stale =>
      dsimp only at refused
      split at refused <;> cases refused
    | flawed | drawn => cases refused
  | parseFailed =>
    have failed : ParseFailed (accept payload m).1 (accept payload m).2 (handle .parseFailed payload m) :=
      handleParseFailed_parseFailed payload m
    generalize (accept payload m).2 = passes, handle .parseFailed payload m = step at failed refused ⊢
    cases failed with
    | unread f | refused l f => exact ⟨_, rfl⟩
    | stale =>
      dsimp only at refused
      split at refused <;> cases refused
    | told => cases refused
  | schemaUpdated => exact absurd rfl answers

theorem rewriting_alike (payload : Json) (m : Coordinator) : Alike m (rewriting payload m) := by
  unfold rewriting
  split <;> exact ⟨rfl, rfl⟩

theorem handBack_shows (payload : Json) (m : Coordinator) :
    if (handle .schemaUpdated payload m).2.isNone then
      (session (handle .schemaUpdated payload m).1).document.status =
        if (session (handle .schemaUpdated payload m).1).document.errors ≠ [] then .error
        else if (session m).document.status = .error then .idle else (session m).document.status
    else Alike m (handle .schemaUpdated payload m).1 := by
  have updated := handleSchemaUpdated_schemaUpdated payload m
  change if (handleSchemaUpdated payload m).2.isNone then
      (session (handleSchemaUpdated payload m).1).document.status =
        if (session (handleSchemaUpdated payload m).1).document.errors ≠ [] then .error
        else if (session m).document.status = .error then .idle else (session m).document.status
    else Alike m (handleSchemaUpdated payload m).1
  generalize handleSchemaUpdated payload m = step at updated ⊢
  cases updated with
  | refused f => exact rewriting_alike payload m
  | told read tells => exact tells

theorem handle_status (kind : Inbound) (payload : Json) (m : Coordinator) :
    (session (handle kind payload m).1).document.status = .idle ∨
      (session (handle kind payload m).1).document.status = .error ∨
      (session (handle kind payload m).1).document.status = (session m).document.status := by
  by_cases back : kind = .schemaUpdated
  · subst back
    have shows := handBack_shows payload m
    split at shows
    · split at shows
      · exact .inr (.inl shows)
      · split at shows
        · exact .inl shows
        · exact .inr (.inr shows)
    · exact .inr (.inr shows.status)
  · have shows := reply_shows back payload m
    generalize fateOf kind payload m = fate at shows
    cases fate with
    | dropped => exact .inr (.inr shows.1.status)
    | lifted => exact .inl shows.2.1
    | refused => exact .inr (.inr shows.status)
    | taken =>
      change _ = if _ then _ else _ at shows
      split at shows
      · exact .inl shows
      · exact .inr (.inl shows)

theorem handle_inFlight (kind : Inbound) (payload : Json) (m : Coordinator) :
    (handle kind payload m).1.world.inFlight = m.world.inFlight := by
  have judged := accept_judged payload m
  have counted : (accept payload m).1.world.inFlight = m.world.inFlight := by
    generalize accept payload m = r at judged ⊢
    cases judged <;> rfl
  cases kind with
  | parsed =>
    have parsed := handleParsed_parsed payload m
    rw [← counted]
    change (handleParsed payload m).1.world.inFlight = _
    generalize (accept payload m).2 = passes, handleParsed payload m = step at parsed ⊢
    cases parsed <;> rfl
  | parseFailed =>
    have failed := handleParseFailed_parseFailed payload m
    rw [← counted]
    change (handleParseFailed payload m).1.world.inFlight = _
    generalize (accept payload m).2 = passes, handleParseFailed payload m = step at failed ⊢
    cases failed <;> rfl
  | schemaUpdated =>
    have rewritten : (rewriting payload m).world.inFlight = m.world.inFlight := by
      unfold rewriting
      split <;> rfl
    have updated := handleSchemaUpdated_schemaUpdated payload m
    rw [← rewritten]
    change (handleSchemaUpdated payload m).1.world.inFlight = _
    generalize handleSchemaUpdated payload m = step at updated ⊢
    cases updated <;> rfl

end Messages

end SchemaDiagram.Sync.Coordinator
