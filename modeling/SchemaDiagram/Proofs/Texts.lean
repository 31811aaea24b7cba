import SchemaDiagram.Proofs.ParseAnswers
import SchemaDiagram.Proofs.Snapshots

/-!
Which text the session has when an answer counts. A text comes with a parse request, with a schema that
the remote side has written as text, or with a record that is loaded. Only requests are numbered: when
the answer to a request passes the test, the session has the text of that request, unless another has
been written over it since.
-/

set_option autoImplicit false

namespace SchemaDiagram.Sync.Coordinator

/-- The text of a session after an incident. A handler writes the text that its message brings, if it is
    the text of a schema that is handed back. -/
def Incident.text (old : Json) : Incident → Json
  | requested new _ | brought new => new
  | loadStarted => .str ""
  | heard .schemaUpdated payload _ => (broughtBy payload).getD old
  | heard .parsed _ _ | heard .parseFailed _ _ | committed _ | drawn _ => old

def textAfter (text : Json) (is : List Incident) : Json := is.foldl Incident.text text

section Text

variable {start m k : Coordinator} {is : List Incident}

theorem reply_text {kind : Inbound} (answers : kind ≠ .schemaUpdated) (payload : Json)
    (m : Coordinator) :
    (session (handle kind payload m).1).document.text = (session m).document.text := by
  cases kind with
  | parsed =>
    change (session (handleParsed payload m).1).document.text = _
    rcases session_of_parsed payload m with ⟨errors, status, same⟩ | ⟨schema, d, -, -, -, -, same⟩
    · rw [same]
      rfl
    · rw [same]
      rfl
  | parseFailed =>
    obtain ⟨errors, status, same⟩ := session_of_parseFailed payload m
    exact congrArg (·.document.text) same
  | schemaUpdated => exact absurd rfl answers

theorem handleSchemaUpdated_text (payload : Json) (m : Coordinator) :
    (session (handleSchemaUpdated payload m).1).document.text =
      (broughtBy payload).getD (session m).document.text := by
  obtain ⟨errors, status, same⟩ := session_of_schemaUpdated payload m
  exact congrArg (·.document.text) same

theorem textAfter_concat (old : Json) (is : List Incident) (i : Incident) :
    textAfter old (is ++ [i]) = i.text (textAfter old is) := by
  simp [textAfter]

/-- A history tells the text of the session. -/
theorem History.text (h : History start is m) :
    (session m).document.text = textAfter (session start).document.text is := by
  induction h with
  | start => rfl
  | other _ beside ih => exact beside.text.trans ih
  | request _ text connected ih =>
    rw [textAfter_concat]
    rfl
  | load _ id ih =>
    rw [textAfter_concat]
    rfl
  | commit _ schema ih | draw _ schema _ ih =>
    rw [textAfter_concat]
    exact ih
  | entitle _ id members ih =>
    rw [textAfter_concat]
    unfold entitled
    split <;> rfl
  | hear _ kind payload ih =>
    rw [textAfter_concat, ← ih]
    cases kind with
    | parsed => exact reply_text (show Inbound.parsed ≠ .schemaUpdated from nofun) payload _
    | parseFailed => exact reply_text (show Inbound.parseFailed ≠ .schemaUpdated from nofun) payload _
    | schemaUpdated => exact handleSchemaUpdated_text payload _
  | @beginSave _ k _ ih =>
    rw [beginning_session]
    exact ih
  | @endSave _ k _ ih =>
    rw [endSave_session]
    exact ih

/-- A current request has its place in the history. Since then no text has been sent to be parsed, no edit
    was committed and no load was started. -/
theorem requested_of_current {n : Nat} (current : Current (occurrences is) n) :
    ∃ earlier text sender later, is = earlier ++ .requested text sender :: later ∧
      requests (occurrences earlier) + 1 = n ∧ ∀ o ∈ occurrences later, o = .replied := by
  obtain ⟨before, after, split, number, rest⟩ := current
  obtain ⟨first, others, rfl, rfl, found⟩ := List.filterMap_eq_append_iff.mp split
  obtain ⟨apart, i, later, rfl, none, own, rfl⟩ := List.filterMap_eq_cons_iff.mp found
  obtain ⟨text, sender, rfl⟩ : ∃ text sender, i = .requested text sender := by
    cases i with
    | requested text sender => exact ⟨text, sender, rfl⟩
    | heard kind => cases kind <;> cases own
    | committed | loadStarted | brought | drawn => cases own
  refine ⟨first ++ apart, text, sender, later, by simp, ?_, rest⟩
  have silent : apart.filterMap Incident.occurrence? = [] := List.filterMap_eq_nil_iff.mpr none
  rw [← number]
  simp [occurrences, silent]

end Text

/-- In every run the requests carry their texts and their numbers. At each of its moments, an answer that
    echoes the number of a request and passes the test finds the text of that request in the session,
    unless a text has been written over it since the request was sent; and it leaves the text as it is. -/
theorem text_of_request_answered (settings : Settings) (delay : Float) (start : Session)
    (channel : Channel Inbound Unit) (notifier : Notifier Unit) (backend : Backend)
    (operations : List Operation) :
    let m₀ := fresh settings delay start channel notifier backend
    (∀ earlier text sender later,
      incidentsOf m₀ operations = earlier ++ .requested text sender :: later →
      (parseRequest text sender).2 =
        .obj [("dbmlText", text), ("version", .int (requests (occurrences earlier) + 1))]) ∧
    ∀ is m, Moment m₀ operations is m →
      ∀ (n : Nat) members, 1 ≤ n → n ≤ requests (occurrences is) →
        member members "version" = .int n → (accept (.obj members) m).2 = .ok true →
        ∃ earlier text sender later, is = earlier ++ .requested text sender :: later ∧
          requests (occurrences earlier) + 1 = n ∧ (∀ o ∈ occurrences later, o = .replied) ∧
          ∀ kind, kind ≠ .schemaUpdated →
            (session (handle kind (.obj members) m).1).document.text = textAfter text later := by
  intro m₀
  have sound : Sound .idle m₀ := sound_fresh settings delay start channel notifier backend
  refine ⟨fun earlier text sender later split => ?_,
    fun is m moment n members early sent version passes => ?_⟩
  · have asked : History m₀ earlier sender := (performAll_history sound operations).cut split rfl
    rw [← asked.course.tally.sent]
    rfl
  -- the test goes by the occurrences alone; the incidents have the texts that belong to them
  have history := moment.history sound
  have tally := history.course.tally
  have number : (sequence (member members "version") (m.world.parseReceived + 1)).1 = (n : Int) := by
    rw [version]
    rfl
  rw [accept_of_number number] at passes
  have first : m.world.acceptFrom ≤ n := by simpa using passes
  obtain ⟨earlier, text, sender, later, rfl, place, calm⟩ :=
    requested_of_current ((tally.acceptFrom_le_iff ⟨early, sent⟩).mp first)
  refine ⟨earlier, text, sender, later, rfl, place, calm, fun kind answers => ?_⟩
  rw [reply_text answers, history.text]
  simp [textAfter, Incident.text]

def overwriting : List Operation :=
  [.start, .parse (.str "Table t"),
    .deliver (Channel.Event.schemaUpdated, .obj [("dbmlText", .str "Table old")])]

/-- The answer to the request passes, and the text is the one that came since. -/
theorem text_of_request_overwritten :
    let m₀ := fresh {} 1.0 {} {} { capacity := 50 } {}
    let m := performAll overwriting m₀
    (accept (.obj [("version", .int 1)]) m).2 = .ok true ∧
      ∃ earlier text sender later,
        incidentsOf m₀ overwriting = earlier ++ .requested text sender :: later ∧
        requests (occurrences earlier) + 1 = 1 ∧
        ∀ kind, kind ≠ .schemaUpdated →
          (session (handle kind (.obj [("version", .int 1)]) m).1).document.text =
            textAfter text later := by
  intro m₀ m
  have is : occurrences (incidentsOf m₀ overwriting) = [.requested] := by decide +kernel
  have sent : 1 ≤ requests (occurrences (incidentsOf m₀ overwriting)) := by rw [is]; decide
  have passes : (accept (.obj [("version", .int 1)]) m).2 = .ok true := by decide +kernel
  obtain ⟨earlier, text, sender, later, split, number, -, same⟩ :=
    (text_of_request_answered {} 1.0 {} {} { capacity := 50 } {} overwriting).2 _ _ .now 1
      [("version", .int 1)] (by decide) sent rfl passes
  exact ⟨passes, earlier, text, sender, later, split, number, same⟩

/-- An edit passes, a text is sent to be parsed, the text of the edited schema arrives late, and then
    the answer to the request: it is accepted, and the session has a table of that answer with the text
    of the edit. -/
theorem text_of_edit_beside_answer :
    let operations : List Operation :=
      [.start, .edit (.addTable .null), .parse (.str "Table t"),
        .deliver (Channel.Event.schemaUpdated, .obj [("dbmlText", .str "Table new_table_1")]),
        .deliver sketched]
    let k := performAll operations (fresh {} 1.0 {} {} { capacity := 50 } {})
    Event.sent (Channel.Event.parse, .obj [("dbmlText", .str "Table t"), ("version", .int 1)]) ∈
        k.world.trace ∧
      sketched.2.get "version" = .int 1 ∧
      (session k).diagram.nodes.map (·.id) = ["t"] ∧
      (session k).document.text = .str "Table new_table_1" := by
  decide +kernel

end SchemaDiagram.Sync.Coordinator
