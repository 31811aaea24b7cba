import SchemaDiagram.Proofs.Fates
import SchemaDiagram.Proofs.ParseAnswers

/-!
How long a session parses, and when its status tells of its errors. A request begins the parsing and the
answers end it, whether they are taken over or dropped, but for those whose handlers fail; and the end
that a dropped answer brings leaves the errors as they are, whatever they are.
-/

set_option autoImplicit false

namespace SchemaDiagram.Sync.Coordinator

/-- Every request has had its answer, and no answer has come before its request. -/
structure AllAnswered (os : List Occurrence) : Prop where
  inTurn : ∀ earlier, earlier <+: os → replies earlier ≤ requests earlier
  all : replies os = requests os

namespace Incident

/-- What becomes of an answer that is heard. -/
def fate? : Incident → Option Fate
  | heard .schemaUpdated _ _ => none
  | heard kind payload m => some (fateOf kind payload m)
  | requested _ _ | committed _ | loadStarted | brought _ | drawn _ => none

def bears : Incident → Bool
  | requested _ _ | loadStarted => true
  | heard .schemaUpdated payload m => (handle .schemaUpdated payload m).2.isNone
  | heard kind payload m => fateOf kind payload m = .taken ∨ fateOf kind payload m = .lifted
  | committed _ | brought _ | drawn _ => false

end Incident

/-- Since the last request the handler of an answer has failed. -/
def RefusedSince (is : List Incident) : Prop :=
  ∃ earlier text sender later, is = earlier ++ .requested text sender :: later ∧
    .requested ∉ occurrences later ∧ ∃ i ∈ later, i.fate? = some .refused

/-- Why a session is still parsing: since the last request an answer has been refused, or more answers
    are expected, or none has come. -/
def KeepsParsing (is : List Incident) : Prop :=
  ∃ earlier text sender later, is = earlier ++ .requested text sender :: later ∧
    .requested ∉ occurrences later ∧
      ((∃ i ∈ later, i.fate? = some .refused) ∨
        replies (occurrences is) < requests (occurrences is) ∨ replies (occurrences later) = 0)

/-- The last incident that bears on status or errors is the end of the parsing by an answer that was out
    of date. -/
def LiftedLast (is : List Incident) : Prop :=
  ∃ earlier i later, is = earlier ++ i :: later ∧ i.fate? = some .lifted ∧
    ∀ j ∈ later, j.bears = false

/-- The status tells of errors if there are some, unless something excuses it. -/
structure Accords (excuse : Prop) (d : Document) : Prop where
  error : d.status = .error → d.errors ≠ []
  clean : d.status = .idle ∨ d.status = .saving → d.errors = [] ∨ excuse

section Status

variable {settings : Settings} {delay : Float} {s : Session} {channel : Channel Inbound Unit}
  {notifier : Notifier Unit} {backend : Backend} {start m k : Coordinator} {is : List Incident}
  {i : Incident}

theorem KeepsParsing.concat (h : KeepsParsing is) (other : i.occurrence? ≠ some .requested)
    (why : i.occurrence? ≠ some .replied ∨ i.fate? = some .refused ∨
      replies (occurrences (is ++ [i])) < requests (occurrences (is ++ [i]))) :
    KeepsParsing (is ++ [i]) := by
  obtain ⟨earlier, text, sender, later, rfl, last, kept⟩ := h
  have still : .requested ∉ occurrences (later ++ [i]) := by
    rw [occurrences_concat]
    simp [last, Option.mem_toList, other]
  refine ⟨earlier, text, sender, later ++ [i], by simp, still, ?_⟩
  rcases why with silent | refused | more
  · unfold requests replies at kept ⊢
    rw [count_concat_of_ne silent, count_concat_of_ne silent, count_concat_of_ne other]
    exact kept.imp_left fun ⟨j, among, refused⟩ => ⟨j, List.mem_append_left _ among, refused⟩
  · exact .inl ⟨i, by simp, refused⟩
  · exact .inr (.inl more)

/-- Of the incidents of a history each leaves a reason why the session is parsing, if it is. -/
theorem History.keepsParsing (h : History (fresh settings delay s channel notifier backend) is m)
    (rests : s.document.status ≠ .parsing) (parses : (session m).document.status = .parsing) :
    KeepsParsing is := by
  induction h with
  | start => exact absurd parses rests
  | other _ beside ih => exact ih (beside.status.symm.trans parses)
  | @request is m _ text connected ih => exact ⟨is, text, m, [], rfl, nofun, .inr (.inr rfl)⟩
  | commit _ schema ih => exact (ih parses).concat nofun (.inl nofun)
  | load _ id ih => cases parses
  | @entitle is m _ id members ih =>
    have same : (session (entitled id members m)).document.status = (session m).document.status := by
      unfold entitled
      split <;> rfl
    exact (ih (same.symm.trans parses)).concat nofun (.inl nofun)
  | draw _ schema d ih => exact (ih parses).concat nofun (.inl nofun)
  | @hear is m hm kind payload ih =>
    by_cases back : kind = .schemaUpdated
    · subst back
      rcases handle_status .schemaUpdated payload m with idle | failed | same
      · cases idle.symm.trans parses
      · cases failed.symm.trans parses
      · exact (ih (same.symm.trans parses)).concat nofun (.inl nofun)
    · have shows := reply_shows back payload m
      have own : (Incident.heard kind payload m).fate? = some (fateOf kind payload m) := by
        cases kind <;> first | rfl | exact absurd rfl back
      have counts : (Incident.heard kind payload m).occurrence? = some .replied := by
        cases kind <;> first | rfl | exact absurd rfl back
      have other : (Incident.heard kind payload m).occurrence? ≠ some .requested := by
        rw [counts]
        nofun
      generalize fateOf kind payload m = fate at shows own
      cases fate with
      | dropped =>
        -- it did not end the parsing, so by the counters more answers are expected
        obtain ⟨alike, more⟩ := shows
        have parsing := alike.status.symm.trans parses
        have tally := hm.course.tally
        have expected : ¬ m.world.parseSent ≤ m.world.parseReceived + 1 := fun le => more ⟨le, parsing⟩
        refine (ih parsing).concat other (.inr (.inr ?_))
        rw [occurrences_concat, counts, replies_append, requests_append]
        rw [tally.sent, tally.received] at expected
        change replies (occurrences is) + 1 < requests (occurrences is) + 0
        omega
      | lifted => cases shows.2.1.symm.trans parses
      | refused => exact (ih (shows.status.symm.trans parses)).concat other (.inr (.inl own))
      | taken =>
        have told := shows.symm.trans parses
        split at told <;> cases told
  | @beginSave is m _ ih =>
    rw [beginning_session] at parses
    rcases statusBegun_cases m with ⟨-, saving⟩ | same
    · cases saving.symm.trans parses
    · exact ih (same.symm.trans parses)
  | @endSave is m _ ih =>
    rw [endSave_session] at parses
    rcases statusAfter_cases m with ⟨-, idle⟩ | same
    · cases idle.symm.trans parses
    · exact ih (same.symm.trans parses)

theorem KeepsParsing.refusedSince (h : KeepsParsing is) (answered : AllAnswered (occurrences is)) :
    RefusedSince is := by
  obtain ⟨earlier, text, sender, later, rfl, last, refused | more | none⟩ := h
  · exact ⟨earlier, text, sender, later, rfl, last, refused⟩
  · exact absurd more (by rw [answered.all]; exact Nat.lt_irrefl _)
  · -- no answer since the last request: the answers before it were one more than the requests
    have whole : occurrences (earlier ++ .requested text sender :: later) =
        occurrences earlier ++ .requested :: occurrences later := occurrences_append ..
    rw [whole] at answered
    have before := answered.inTurn (occurrences earlier) (List.prefix_append _ _)
    have all := answered.all
    have asked : requests (.requested :: occurrences later) = requests (occurrences later) + 1 :=
      List.count_cons_self
    have silent : replies (.requested :: occurrences later) = replies (occurrences later) := rfl
    rw [requests_append, replies_append, asked, silent, none] at all
    omega

theorem LiftedLast.concat (h : LiftedLast is) (calm : i.bears = false) : LiftedLast (is ++ [i]) := by
  obtain ⟨earlier, j, later, rfl, lifted, rest⟩ := h
  refine ⟨earlier, j, later ++ [i], by simp, lifted, fun j hj => ?_⟩
  rcases List.mem_append.mp hj with hj | hj
  · exact rest j hj
  · exact List.mem_singleton.mp hj ▸ calm

theorem Accords.calm {excuse excuse' : Prop} {d e : Document} (h : Accords excuse d)
    (more : excuse → excuse') (errors : e.errors = d.errors)
    (error : e.status = .error → d.status = .error)
    (clean : e.status = .idle ∨ e.status = .saving → d.status = .idle ∨ d.status = .saving) :
    Accords excuse' e :=
  ⟨fun failed => errors ▸ h.error (error failed),
    fun calm => errors ▸ (h.clean (clean calm)).imp_right more⟩

theorem Accords.alike {excuse excuse' : Prop} (h : Accords excuse (session m).document)
    (more : excuse → excuse') (alike : Alike m k) : Accords excuse' (session k).document :=
  h.calm more alike.errors alike.status.symm.trans (by rw [alike.status]; exact id)

theorem Accords.told {excuse : Prop} {d : Document} (told : d.status = .error ↔ d.errors ≠ []) :
    Accords excuse d := by
  refine ⟨told.mp, fun calm => .inl (Decidable.byContradiction fun some => ?_)⟩
  rcases calm with calm | calm <;> cases (told.mpr some).symm.trans calm

theorem Accords.beginning {excuse : Prop} (h : Accords excuse (session m).document) :
    Accords excuse (session (beginning m)).document := by
  rw [beginning_session]
  rcases statusBegun_cases m with ⟨idle, saving⟩ | same
  · rw [saving]
    exact h.calm id rfl nofun fun _ => .inl idle
  · rw [same]
    exact h.calm id rfl id id

theorem Accords.endSave {excuse : Prop} (h : Accords excuse (session m).document) :
    Accords excuse (session (endSave m)).document := by
  rw [endSave_session]
  rcases statusAfter_cases m with ⟨saving, idle⟩ | same
  · rw [idle]
    exact h.calm id rfl nofun fun _ => .inr saving
  · rw [same]
    exact h.calm id rfl id id

/-- An answer leaves status and errors in agreement, or lifts the status. -/
theorem Accords.reply {kind : Inbound} (answers : kind ≠ .schemaUpdated) (payload : Json)
    (h : Accords (LiftedLast is) (session m).document) :
    Accords (LiftedLast (is ++ [.heard kind payload m])) (session (handle kind payload m).1).document := by
  have shows := reply_shows answers payload m
  have own : (Incident.heard kind payload m).fate? = some (fateOf kind payload m) := by
    cases kind <;> first | rfl | exact absurd rfl answers
  have calm (other : fateOf kind payload m ≠ .taken ∧ fateOf kind payload m ≠ .lifted) :
      (Incident.heard kind payload m).bears = false := by
    cases kind with
    | schemaUpdated => exact absurd rfl answers
    | parsed | parseFailed => exact decide_eq_false (not_or.mpr other)
  have still (bears : (Incident.heard kind payload m).bears = false)
      (alike : Alike m (handle kind payload m).1) :
      Accords (LiftedLast (is ++ [.heard kind payload m])) (session (handle kind payload m).1).document :=
    h.alike (fun lifted => lifted.concat bears) alike
  cases fate : fateOf kind payload m with
  | dropped =>
    rw [fate] at shows calm
    exact still (calm ⟨nofun, nofun⟩) shows.1
  | lifted =>
    rw [fate] at shows own
    refine ⟨fun failed => ?_, fun _ => .inr ⟨is, _, [], rfl, own, fun _ hj => nomatch hj⟩⟩
    cases shows.2.1.symm.trans failed
  | refused =>
    rw [fate] at shows calm
    exact still (calm ⟨nofun, nofun⟩) shows
  | taken =>
    rw [fate] at shows
    refine .told ⟨fun failed none => ?_, fun some => shows.trans (if_neg some)⟩
    cases (shows.trans (if_pos none)).symm.trans failed

theorem History.accords (h : History start is m) (first : Accords False (session start).document) :
    Accords (LiftedLast is) (session m).document := by
  induction h with
  | start => exact first.calm nofun rfl id id
  | other _ beside ih => exact ih.alike id ⟨beside.status, beside.errors⟩
  | request _ text connected ih => exact ⟨nofun, (·.elim nofun nofun)⟩
  | commit _ schema ih | draw _ schema _ ih => exact ih.calm (·.concat rfl) rfl id id
  | load _ id ih => exact ⟨nofun, fun _ => .inl rfl⟩
  | entitle _ id members ih =>
    refine ih.alike (·.concat rfl) ⟨?_, ?_⟩ <;> unfold entitled <;> split <;> rfl
  | @hear is m _ kind payload ih =>
    by_cases back : kind = .schemaUpdated
    · subst back
      have shows := handBack_shows payload m
      cases read : (handle .schemaUpdated payload m).2.isNone with
      | false =>
        rw [read] at shows
        exact ih.alike (·.concat read) shows
      | true =>
        rw [read, if_pos rfl] at shows
        refine .told ⟨fun failed none => ?_, fun some => shows.trans (if_pos some)⟩
        rw [if_neg (not_not_intro none)] at shows
        have told := shows.symm.trans failed
        split at told
        · cases told
        · contradiction
    · exact ih.reply back payload
  | beginSave _ ih => exact ih.beginning
  | endSave _ ih => exact ih.endSave

end Status

/-- At every moment of every run: when every request has had its answer, in whatever order and whatever
    the answers hold, the session is parsing only if since the last request an answer has been refused;
    and an answer is refused only by a handler that fails. -/
theorem parsing_only_if_refused (settings : Settings) (delay : Float) (start : Session)
    (channel : Channel Inbound Unit) (notifier : Notifier Unit) (backend : Backend)
    (rests : start.document.status ≠ .parsing) (operations : List Operation) :
    let m₀ := fresh settings delay start channel notifier backend
    (∀ is m, Moment m₀ operations is m → AllAnswered (occurrences is) →
      (session m).document.status = .parsing → RefusedSince is) ∧
    ∀ kind payload m, kind ≠ .schemaUpdated → fateOf kind payload m = .refused →
      ∃ f, (handle kind payload m).2 = some f := by
  intro m₀
  have sound : Sound .idle m₀ := sound_fresh settings delay start channel notifier backend
  refine ⟨fun is m moment answered parses => ?_, fun _ _ _ answers => refused_fails answers⟩
  exact ((moment.history sound).keepsParsing rests parses).refusedSince answered

def unreadable : Message :=
  (Channel.Event.parsed, .obj [("version", .int 1), ("errors", .arr [.obj []])])

def misread : List Operation := [.start, .parse (.str "Table t"), .deliver unreadable]

/-- The session is still parsing when its one request has been answered, since the handler of the answer
    has failed. -/
theorem parsing_after_refusal :
    let m₀ := fresh {} 1.0 {} {} { capacity := 50 } {}
    AllAnswered (occurrences (incidentsOf m₀ misread)) ∧
      (session (performAll misread m₀)).document.status = .parsing ∧
      RefusedSince (incidentsOf m₀ misread) := by
  intro m₀
  have is : occurrences (incidentsOf m₀ misread) = [.requested, .replied] := by decide +kernel
  have answered : AllAnswered (occurrences (incidentsOf m₀ misread)) := by
    rw [is]
    refine ⟨fun earlier part => ?_, rfl⟩
    simp only [List.prefix_cons_iff, List.prefix_nil] at part
    obtain rfl | ⟨_, rfl, rfl | ⟨_, rfl, rfl⟩⟩ := part <;> decide
  have parses : (session (performAll misread m₀)).document.status = .parsing := by decide +kernel
  have refusedSince := parsing_only_if_refused {} 1.0 {} {} { capacity := 50 } {} (by decide) misread
  exact ⟨answered, parses, refusedSince.1 _ _ .now answered parses⟩

/-- A text is sent to be parsed and the only answer cannot be read: no answer is expected, and the
    session is still parsing. -/
theorem parsing_with_all_answered :
    let k := performAll misread (fresh {} 1.0 {} {} { capacity := 50 } {})
    k.world.parseSent = 1 ∧ k.world.parseReceived = 1 ∧ (session k).document.status = .parsing := by
  decide +kernel

/-- If status and errors agree at first, then at every moment of every run a status of error comes with
    errors, and a status of idling or saving with none, unless an answer that was out of date has ended
    the parsing and nothing has told the errors since. -/
theorem status_tells_errors_unless_lifted (settings : Settings) (delay : Float) (start : Session)
    (channel : Channel Inbound Unit) (notifier : Notifier Unit) (backend : Backend)
    (accords : Accords False start.document) (operations : List Operation) :
    let m₀ := fresh settings delay start channel notifier backend
    ∀ is m, Moment m₀ operations is m → Accords (LiftedLast is) (session m).document :=
  fun _ _ moment =>
    (moment.history (sound_fresh settings delay start channel notifier backend)).accords accords

def failure : Message :=
  (Channel.Event.parseFailed, .obj [("version", .int 1), ("message", .str "bad")])

def empty : Message :=
  (Channel.Event.parsed, .obj [("version", .int 2), ("errors", .arr []),
    ("ast", .obj [("tables", .arr []), ("relationships", .arr [])])])

def lifting : List Operation :=
  [.start, .parse (.str "Table"), .deliver failure, .parse (.str "Table t"), .edit (.addTable .null),
    .deliver empty]

/-- The answer to the second text has lifted the status, and the errors of the first stay. -/
theorem accords_after_lifting :
    let m₀ := fresh {} 1.0 {} {} { capacity := 50 } {}
    (session (performAll lifting m₀)).document.errors ≠ [] ∧ LiftedLast (incidentsOf m₀ lifting) := by
  intro m₀
  have accords : Accords (LiftedLast (incidentsOf m₀ lifting)) (session (performAll lifting m₀)).document :=
    status_tells_errors_unless_lifted {} 1.0 {} {} { capacity := 50 } {} ⟨nofun, fun _ => .inl rfl⟩
      lifting _ _ .now
  have idle : (session (performAll lifting m₀)).document.status = .idle := by decide +kernel
  have some : (session (performAll lifting m₀)).document.errors ≠ [] := by decide +kernel
  exact ⟨some, (accords.clean (.inl idle)).resolve_left some⟩

/-- The second answer is dropped, and the session idles with the errors of the first. -/
theorem idle_with_errors :
    let k := performAll lifting (fresh {} 1.0 {} {} { capacity := 50 } {})
    (session k).document.status = .idle ∧
      (session k).document.errors = [{ message := "bad" }] := by
  decide +kernel

end SchemaDiagram.Sync.Coordinator
