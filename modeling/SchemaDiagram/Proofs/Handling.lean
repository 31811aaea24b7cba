import SchemaDiagram.Proofs.Moves
import SchemaDiagram.Proofs.Results

/-!
What the messages of the remote side can do, said once. An answer to a parse request is counted and put
to the test; then it is dropped, refused, or taken over. What later modules need of messages they read
off these cases.
-/

set_option autoImplicit false

namespace SchemaDiagram.Sync.Coordinator

def counting (m : Coordinator) : Coordinator :=
  m.withWorld { m.world with parseReceived := m.world.parseReceived + 1 }

def Expects (m : Coordinator) : Prop :=
  m.world.parseSent ≤ m.world.parseReceived + 1 ∧ (session m).document.status = .parsing

instance (m : Coordinator) : Decidable (Expects m) := inferInstanceAs (Decidable (_ ∧ _))

inductive Judged (m : Coordinator) : Coordinator × Result Bool → Prop where
  | unread (f : Fault) : Judged m (counting m, .error f)
  | passes : Judged m (counting m, .ok true)
  | stale (l : LogLine) (more : ¬ Expects m) : Judged m ((counting m).note l, .ok false)
  | last (l : LogLine) (last : Expects m) :
      Judged m (mapSession ((counting m).note l) (·.withStatus .idle), .ok false)

/-- A fault of which the session is told: the relationships of a schema do not fit its tables. -/
def isInconsistency : Fault → Bool
  | .danglingRelationship _ _ _ => true
  | _ => false

/-- What is done with a parsed text, after the test. -/
inductive Parsed (payload : Json) (k : Coordinator) : Result Bool → Step → Prop where
  | unread (f : Fault) : Parsed payload k (.error f) (k, some f)
  | stale : Parsed payload k (.ok false) (k, none)
  | refused (f : Fault) (other : isInconsistency f = false) : Parsed payload k (.ok true) (k, some f)
  | flawed {errors : List TextError} (l : LogLine)
      (read : recordsOf TextError (payload.get "errors") = .ok errors)
      (flaw : errors ≠ [] ∨ payload.get "ast" = .null) :
      Parsed payload k (.ok true) ((mapSession k fun s =>
        (s.withErrors errors).withStatus (if errors = [] then .idle else .error)).note l, none)
  | drawn {schema : Schema} {d : Diagram} (l : LogLine)
      (read : Record.validated .value (payload.get "ast") = .ok schema)
      (projected : schema.project k.world.settings.grid
        (Places.ofNodes (session k).diagram.nodes) = .ok d)
      (clean : recordsOf TextError (payload.get "errors") = .ok []) :
      Parsed payload k (.ok true) (((mapSession k (adopt · schema d)).note l).schedule {}, none)
  | inconsistent {schema : Schema} {f : Fault} (l : LogLine)
      (read : Record.validated .value (payload.get "ast") = .ok schema)
      (projected : schema.project k.world.settings.grid
        (Places.ofNodes (session k).diagram.nodes) = .error f)
      (own : isInconsistency f = true) :
      Parsed payload k (.ok true) (mapSession (k.note l) fun s =>
        (s.withErrors [{ message := f.text, kind := .validation }]).withStatus .error, some f)

inductive ParseFailed (k : Coordinator) : Result Bool → Step → Prop where
  | unread (f : Fault) : ParseFailed k (.error f) (k, some f)
  | stale : ParseFailed k (.ok false) (k, none)
  | refused (l : LogLine) (f : Fault) (other : isInconsistency f = false) :
      ParseFailed k (.ok true) (k.note l, some f)
  | told (l : LogLine) (text : String) : ParseFailed k (.ok true)
      (mapSession (k.note l) fun s => (s.withErrors [{ message := text }]).withStatus .error, none)

/-- The text that a message brings with which the remote side hands back a schema. -/
def broughtBy (payload : Json) : Option Json :=
  match membersOf payload with
  | .error _ => none
  | .ok members => if member members "dbmlText" = .null then none else member members "dbmlText"

def rewriting (payload : Json) (m : Coordinator) : Coordinator :=
  match broughtBy payload with
  | none => m
  | some text => mapSession m (·.withText text)

/-- What is done with the text of a schema. The status tells of its errors, and of errors only. -/
inductive SchemaUpdated (payload : Json) (m : Coordinator) : Step → Prop where
  | refused (f : Fault) : SchemaUpdated payload m (rewriting payload m, some f)
  | told {errors : List TextError} {status : Status}
      (read : recordsOf TextError (payload.get "errors") = .ok errors)
      (tells : status = if errors ≠ [] then .error
        else if (session m).document.status = .error then .idle else (session m).document.status) :
      SchemaUpdated payload m (mapSession (rewriting payload m) fun s =>
        (s.withErrors errors).withStatus status, none)

theorem accept_judged (payload : Json) (m : Coordinator) : Judged m (accept payload m) := by
  unfold accept
  simp only
  cases membersOf payload with
  | error f => exact .unread f
  | ok members =>
    simp only
    split
    · exact .passes
    · split
      · exact .last _ ‹_›
      · exact .stale _ ‹_›

theorem accept_session (payload : Json) (m : Coordinator) :
    ∃ status, session (accept payload m).1 = (session m).withStatus status := by
  have judged := accept_judged payload m
  generalize accept payload m = r at judged ⊢
  cases judged with
  | unread | passes | stale => exact ⟨(session m).document.status, rfl⟩
  | last => exact ⟨.idle, rfl⟩

theorem accept_settings (payload : Json) (m : Coordinator) :
    (accept payload m).1.world.settings = m.world.settings := by
  have judged := accept_judged payload m
  generalize accept payload m = r at judged ⊢
  cases judged <;> rfl

theorem validated_fault {α : Type} [Record α] {src : Source} {v : Json} {f : Fault}
    (failed : Record.validated (α := α) src v = .error f) : isInconsistency f = false := by
  unfold Record.validated at failed
  cases read : Record.validate (α := α) src v with
  | ok a =>
    rw [read] at failed
    cases failed
  | error r =>
    rw [read] at failed
    cases failed
    rfl

theorem recordsOf_fault {α : Type} [Record α] {v : Json} {f : Fault}
    (failed : recordsOf α v = .error f) : isInconsistency f = false := by
  unfold recordsOf at failed
  cases items : iterate v with
  | ok items' =>
    rw [items] at failed
    obtain ⟨item, -, refused⟩ := Result.mapM_error failed
    exact validated_fault refused
  | error g =>
    rw [items] at failed
    cases failed
    unfold iterate at items
    split at items
    · split at items <;> cases items
      rfl
    · cases items

theorem handleParsed_parsed (payload : Json) (m : Coordinator) :
    Parsed payload (accept payload m).1 (accept payload m).2 (handleParsed payload m) := by
  unfold handleParsed
  rcases accept payload m with ⟨k, f | _ | _⟩
  · exact .unread f
  · exact .stale
  · simp only
    cases listed : recordsOf TextError (payload.get "errors") with
    | error f => exact .refused f (recordsOf_fault listed)
    | ok errors =>
      simp only
      split
      case isTrue flaw => exact .flawed _ listed flaw
      case isFalse sound =>
        cases read : Record.validated (α := Schema) .value (payload.get "ast") with
        | error f => exact .refused f (validated_fault read)
        | ok schema =>
          simp only
          cases projected : schema.project k.world.settings.grid
              (Places.ofNodes (session k).diagram.nodes) with
          | ok d =>
            obtain rfl := Classical.not_not.mp (not_or.mp sound).1
            exact .drawn _ read projected listed
          | error f =>
            simp only
            split
            · exact .inconsistent _ read projected rfl
            · rename_i other
              refine .refused _ ?_
              cases f <;> first | rfl | exact absurd rfl (other _ _ _)

theorem handleParseFailed_parseFailed (payload : Json) (m : Coordinator) :
    ParseFailed (accept payload m).1 (accept payload m).2 (handleParseFailed payload m) := by
  unfold handleParseFailed
  rcases accept payload m with ⟨k, f | _ | _⟩
  · exact .unread f
  · exact .stale
  · simp only
    split
    · exact .told _ _
    · exact .refused _ _ rfl

theorem handleSchemaUpdated_schemaUpdated (payload : Json) (m : Coordinator) :
    SchemaUpdated payload m (handleSchemaUpdated payload m) := by
  cases payload with
  | obj members =>
    have text : (if member members "dbmlText" = .null then m
        else mapSession m (·.withText (member members "dbmlText"))) = rewriting (.obj members) m := by
      unfold rewriting broughtBy membersOf
      simp only
      by_cases none : member members "dbmlText" = .null
      · rw [if_pos none, if_pos none]
      · rw [if_neg none, if_neg none]
    have own : (session (rewriting (.obj members) m)).document.status = (session m).document.status := by
      rw [← text]
      split <;> rfl
    unfold handleSchemaUpdated membersOf
    simp only
    rw [text]
    cases read : recordsOf TextError (member members "errors") with
    | error f => exact .refused f
    | ok errors =>
      simp only
      split
      case isTrue flaw => exact .told read (if_pos flaw).symm
      case isFalse clean =>
        split
        case isTrue failed => exact .told read (by rw [if_neg clean, if_pos (own ▸ failed)])
        case isFalse calm =>
          have kept : SchemaUpdated (.obj members) m _ := .told read (if_neg clean).symm
          rw [if_neg (own ▸ calm), ← own] at kept
          exact kept
  | null | bool _ | int _ | float _ | str _ | arr _ => exact .refused _

/-- An answer changes errors and status at most, or its schema is drawn and taken over. -/
theorem session_of_parsed (payload : Json) (m : Coordinator) :
    (∃ errors status, session (handleParsed payload m).1 =
      ((session m).withErrors errors).withStatus status) ∨
    ∃ schema d, (accept payload m).2 = .ok true ∧
      recordsOf TextError (payload.get "errors") = .ok [] ∧
      Record.validated .value (payload.get "ast") = .ok schema ∧
      schema.project m.world.settings.grid (Places.ofNodes (session m).diagram.nodes) = .ok d ∧
      session (handleParsed payload m).1 = adopt (session m) schema d := by
  have parsed := handleParsed_parsed payload m
  obtain ⟨status, tested⟩ := accept_session payload m
  have settings := accept_settings payload m
  have same : session (accept payload m).1 =
      ((session m).withErrors (session m).document.errors).withStatus status := tested
  generalize accept payload m = r at parsed tested settings same ⊢
  obtain ⟨k, p⟩ := r
  generalize handleParsed payload m = step at parsed ⊢
  cases parsed with
  | unread | stale | refused => exact .inl ⟨_, _, same⟩
  | @flawed errors =>
    refine .inl ⟨errors, if errors = [] then .idle else .error, ?_⟩
    change ((session k).withErrors errors).withStatus _ = _
    rw [tested]
    rfl
  | @inconsistent schema f =>
    refine .inl ⟨[{ message := f.text, kind := .validation }], .error, ?_⟩
    change ((session k).withErrors _).withStatus _ = _
    rw [tested]
    rfl
  | @drawn schema d l read projected clean =>
    rw [settings, tested] at projected
    refine .inr ⟨schema, d, rfl, clean, read, projected, ?_⟩
    have scheduled : session (((mapSession k (adopt · schema d)).note l).schedule {}) =
        adopt (session k) schema d := congrArg (·.session) (cancel_world _)
    rw [scheduled, tested]
    rfl

theorem session_of_parseFailed (payload : Json) (m : Coordinator) :
    ∃ errors status, session (handleParseFailed payload m).1 =
      ((session m).withErrors errors).withStatus status := by
  have failed := handleParseFailed_parseFailed payload m
  obtain ⟨status, tested⟩ := accept_session payload m
  have same : session (accept payload m).1 =
      ((session m).withErrors (session m).document.errors).withStatus status := tested
  generalize accept payload m = r at failed tested same
  obtain ⟨k, p⟩ := r
  generalize handleParseFailed payload m = step at failed ⊢
  cases failed with
  | unread | stale | refused => exact ⟨_, _, same⟩
  | told l text =>
    refine ⟨[{ message := text }], .error, ?_⟩
    change ((session k).withErrors _).withStatus _ = _
    rw [tested]
    rfl

/-- A schema that is handed back changes the text, errors and status. -/
theorem session_of_schemaUpdated (payload : Json) (m : Coordinator) :
    ∃ errors status, session (handleSchemaUpdated payload m).1 =
      (((session m).withText ((broughtBy payload).getD (session m).document.text)).withErrors
        errors).withStatus status := by
  have rewritten : session (rewriting payload m) =
      (session m).withText ((broughtBy payload).getD (session m).document.text) := by
    unfold rewriting
    cases broughtBy payload <;> rfl
  have updated := handleSchemaUpdated_schemaUpdated payload m
  generalize handleSchemaUpdated payload m = step at updated ⊢
  cases updated with
  | refused => exact ⟨(session m).document.errors, (session m).document.status, rewritten⟩
  | @told errors status =>
    exact ⟨errors, status, congrArg (fun s => (s.withErrors errors).withStatus status) rewritten⟩

end SchemaDiagram.Sync.Coordinator
