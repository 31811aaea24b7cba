import SchemaDiagram.Proofs.History

/-!
Which answers to parse requests count. An answer passes the test exactly if it answers the newest
request and no edit was committed and no load was started since that request was sent, whether it
carries the number of its request or is matched by its place among the answers. The three counters
of the coordinator are what the incidents of a run make of them, at each of its moments.
-/

set_option autoImplicit false

namespace SchemaDiagram.Sync.Coordinator

/-- What the currency of answers turns on. -/
inductive Occurrence where
  | requested
  | committed
  | loadStarted
  | replied
  deriving DecidableEq

def Incident.occurrence? : Incident → Option Occurrence
  | .requested _ _ => some .requested
  | .committed _ => some .committed
  | .loadStarted => some .loadStarted
  | .heard .schemaUpdated _ _ | .brought _ | .drawn _ => none
  | .heard .parsed _ _ | .heard .parseFailed _ _ => some .replied

def occurrences (is : List Incident) : List Occurrence := is.filterMap Incident.occurrence?

def requests (os : List Occurrence) : Nat := os.count .requested

def replies (os : List Occurrence) : Nat := os.count .replied

/-- The request of that number is the newest, and since it was sent there have been answers at most,
    but no commit and no load. -/
def Current (os : List Occurrence) (n : Nat) : Prop :=
  ∃ earlier later, os = earlier ++ .requested :: later ∧ requests earlier + 1 = n ∧
    ∀ o ∈ later, o = .replied

/-- A moment to which a coordinator has come, with all that has occurred until then. An answer that
    arrives while a call is still being made has a moment of its own. -/
inductive Course (start : Coordinator) : List Occurrence → Coordinator → Prop where
  | start : Course start [] start
  | other {os : List Occurrence} {m k : Coordinator} (h : Course start os m) (steady : Steady m k) :
      Course start os k
  | request {os : List Occurrence} {m : Coordinator} (h : Course start os m) (text : Json)
      (connected : m.world.connected = true) :
      Course start (os ++ [.requested]) (requesting text m)
  | commit {os : List Occurrence} {m : Coordinator} (h : Course start os m) (schema : Schema) :
      Course start (os ++ [.committed]) (superseding schema m)
  | load {os : List Occurrence} {m : Coordinator} (h : Course start os m) (id : Json) :
      Course start (os ++ [.loadStarted]) (blanking id m)
  | reply {os : List Occurrence} {m : Coordinator} (h : Course start os m) {kind : Inbound}
      (answers : kind ≠ .schemaUpdated) (payload : Json) :
      Course start (os ++ [.replied]) (handle kind payload m).1

/-- A message may be the answer to a request: it carries the request's number, or it carries no
    number and comes in its place. -/
def Answers (os : List Occurrence) (n : Nat) (members : List (String × Json)) : Prop :=
  (1 ≤ n ∧ n ≤ requests os) ∧
    (member members "version" = .int n ∨ n = replies os + 1 ∧
      ∀ received, (sequence (member members "version") received).1 = received)

theorem occurrences_append (is is' : List Incident) :
    occurrences (is ++ is') = occurrences is ++ occurrences is' := List.filterMap_append

theorem occurrences_concat (is : List Incident) (i : Incident) :
    occurrences (is ++ [i]) = occurrences is ++ i.occurrence?.toList := by
  rw [occurrences_append]
  unfold occurrences
  cases h : i.occurrence? with
  | none => rw [List.filterMap_cons_none h]; rfl
  | some o => rw [List.filterMap_cons_some h]; rfl

theorem count_concat_of_ne {i : Incident} {o : Occurrence} (other : i.occurrence? ≠ some o)
    (is : List Incident) : (occurrences (is ++ [i])).count o = (occurrences is).count o := by
  have none : i.occurrence?.toList.count o = 0 :=
    List.count_eq_zero.mpr fun among => other (Option.mem_toList.mp among)
  rw [occurrences_concat, List.count_append, none, Nat.add_zero]

theorem requests_append (os os' : List Occurrence) : requests (os ++ os') = requests os + requests os' :=
  List.count_append

theorem replies_append (os os' : List Occurrence) : replies (os ++ os') = replies os + replies os' :=
  List.count_append

theorem current_append (os : List Occurrence) (o : Occurrence) (n : Nat) :
    Current (os ++ [o]) n ↔
      o = .requested ∧ n = requests os + 1 ∨ o = .replied ∧ Current os n := by
  constructor
  · rintro ⟨earlier, later, split, number, rest⟩
    rcases List.eq_nil_or_concat later with rfl | ⟨later, last, rfl⟩
    · obtain ⟨rfl, he⟩ := List.append_inj' split rfl
      exact .inl ⟨List.cons.inj he |>.1, number.symm⟩
    · rw [List.concat_eq_append, ← List.cons_append, ← List.append_assoc] at split
      obtain ⟨rfl, he⟩ := List.append_inj' split rfl
      have hl : last = .replied := rest last (by simp)
      exact .inr ⟨(List.cons.inj he).1.trans hl, earlier, later, rfl, number, fun o ho =>
        rest o (by simp [ho])⟩
  · rintro (⟨rfl, rfl⟩ | ⟨rfl, earlier, later, rfl, number, rest⟩)
    · exact ⟨os, [], rfl, rfl, fun _ ho => nomatch ho⟩
    · refine ⟨earlier, later ++ [.replied], by simp, number, fun o ho => ?_⟩
      rcases List.mem_append.mp ho with ho | ho
      · exact rest o ho
      · exact List.mem_singleton.mp ho

theorem Current.eq_requests {os : List Occurrence} {n : Nat} (h : Current os n) :
    n = requests os := by
  obtain ⟨earlier, later, rfl, rfl, rest⟩ := h
  have none : later.count .requested = 0 :=
    List.count_eq_zero.mpr fun ho => Occurrence.noConfusion (rest _ ho)
  simp [requests, none]

/-- The counters of a coordinator tell of its course. -/
structure Tally (os : List Occurrence) (m : Coordinator) : Prop where
  sent : m.world.parseSent = requests os
  received : m.world.parseReceived = replies os
  /-- Answers count from the newest request on, or from the one that will be next. -/
  acceptFrom : Current os (requests os) ∧ m.world.acceptFrom = requests os ∨
    ¬ Current os (requests os) ∧ (1 ≤ requests os → m.world.acceptFrom = requests os + 1)

section Tally

variable {os : List Occurrence} {m k : Coordinator}

theorem Tally.steady (h : Tally os m) (steady : Steady m k) : Tally os k :=
  ⟨steady.sent.trans h.sent, steady.received.trans h.received, steady.acceptFrom ▸ h.acceptFrom⟩

theorem Tally.request (h : Tally os m) (text : Json) :
    Tally (os ++ [.requested]) (requesting text m) := by
  have more : requests (os ++ [.requested]) = requests os + 1 := by simp [requests]
  refine ⟨?_, ?_, .inl ⟨(current_append _ _ _).mpr (.inl ⟨rfl, more⟩), ?_⟩⟩
  · exact (congrArg (· + 1) h.sent).trans more.symm
  · exact h.received.trans (by simp [replies])
  · exact (congrArg (· + 1) h.sent).trans more.symm

theorem Tally.outdate (h : Tally os m) {o : Occurrence} (outdates : o = .committed ∨ o = .loadStarted)
    (sent : k.world.parseSent = m.world.parseSent)
    (received : k.world.parseReceived = m.world.parseReceived)
    (acceptFrom : k.world.acceptFrom = m.world.parseSent + 1) : Tally (os ++ [o]) k := by
  have same : requests (os ++ [o]) = requests os := by
    rcases outdates with rfl | rfl <;> simp [requests]
  have none : replies (os ++ [o]) = replies os := by
    rcases outdates with rfl | rfl <;> simp [replies]
  refine ⟨same ▸ sent.trans h.sent, none ▸ received.trans h.received, .inr ⟨fun hc => ?_, fun _ => ?_⟩⟩
  · rcases (current_append _ _ _).mp hc with ⟨rfl, _⟩ | ⟨rfl, _⟩ <;> simp at outdates
  · rw [acceptFrom, h.sent, same]

end Tally

theorem Tally.reply {os : List Occurrence} {m k : Coordinator} (h : Tally os m)
    (counted : Counted m k) : Tally (os ++ [.replied]) k := by
  have same : requests (os ++ [.replied]) = requests os := by simp [requests]
  have keeps (n : Nat) : Current (os ++ [.replied]) n ↔ Current os n := by simp [current_append]
  refine ⟨?_, ?_, ?_⟩
  · rw [counted.sent, h.sent, same]
  · rw [counted.received, h.received]
    simp [replies]
  · rw [counted.acceptFrom, same, keeps]
    exact h.acceptFrom

theorem Course.tally {settings : Settings} {delay : Float} {session : Session}
    {channel : Channel Inbound Unit} {notifier : Notifier Unit} {backend : Backend}
    {os : List Occurrence} {m : Coordinator}
    (h : Course (fresh settings delay session channel notifier backend) os m) : Tally os m := by
  induction h with
  | start =>
    refine ⟨rfl, rfl, .inr ⟨?_, fun h => nomatch h⟩⟩
    rintro ⟨earlier, later, split, -⟩
    cases earlier <;> cases split
  | other _ steady ih => exact ih.steady steady
  | request _ text _ ih => exact ih.request text
  | commit _ schema ih => exact ih.outdate (.inl rfl) rfl rfl rfl
  | load _ id ih => exact ih.outdate (.inr rfl) rfl rfl rfl
  | reply _ answers payload ih =>
    exact ih.reply (@handle_counted (fun _ => True) trivial _ answers payload _).2

theorem Course.trans {start m k : Coordinator} {os os' : List Occurrence} (h : Course start os m)
    (h' : Course m os' k) : Course start (os ++ os') k := by
  induction h' with
  | start => exact (List.append_nil os).symm ▸ h
  | other _ steady ih => exact ih.other steady
  | request _ text connected ih => exact (List.append_assoc ..) ▸ ih.request text connected
  | commit _ schema ih => exact (List.append_assoc ..) ▸ ih.commit schema
  | load _ id ih => exact (List.append_assoc ..) ▸ ih.load id
  | reply _ answers payload ih => exact (List.append_assoc ..) ▸ ih.reply answers payload

/-- A coordinator comes from one moment to another. -/
def Leads (m k : Coordinator) : Prop := ∃ os, Course m os k

section Leads

variable {m k n : Coordinator}

theorem Leads.refl (m : Coordinator) : Leads m m := ⟨[], .start⟩

theorem History.course {is : List Incident} (h : History m is k) : Course m (occurrences is) k := by
  -- an incident without an occurrence leaves what the number of an answer is compared with
  have silent {is : List Incident} {i : Incident} {m' n : Coordinator} (none : i.occurrence? = none)
      (course : Course m (occurrences is) m') (steady : Steady m' n) :
      Course m (occurrences (is ++ [i])) n := by
    rw [occurrences_concat, none, Option.toList_none, List.append_nil]
    exact course.other steady
  induction h with
  | start => exact .start
  | other _ beside ih => exact ih.other beside.toSteady
  | request _ text connected ih => exact occurrences_concat .. ▸ ih.request text connected
  | commit _ schema ih => exact occurrences_concat .. ▸ ih.commit schema
  | load _ id ih => exact occurrences_concat .. ▸ ih.load id
  | entitle _ id members ih =>
    refine silent rfl ih ?_
    unfold entitled
    split <;> exact ⟨rfl, rfl, rfl⟩
  | draw _ schema d ih => exact silent rfl ih ⟨rfl, rfl, rfl⟩
  | hear _ kind payload ih =>
    cases kind with
    | parsed =>
      have answers : Inbound.parsed ≠ .schemaUpdated := nofun
      exact occurrences_concat .. ▸ ih.reply answers payload
    | parseFailed =>
      have answers : Inbound.parseFailed ≠ .schemaUpdated := nofun
      exact occurrences_concat .. ▸ ih.reply answers payload
    | schemaUpdated => exact silent rfl ih (handleSchemaUpdated_noted payload _).toSteady
  | @beginSave _ k _ ih =>
    have world := beginning_world k
    exact ih.other ⟨by rw [world], by rw [world], by rw [world]⟩
  | @endSave _ k _ ih =>
    have world := endSave_world k
    exact ih.other ⟨by rw [world], by rw [world], by rw [world]⟩

theorem performAll_leads (sound : Sound .idle m) (operations : List Operation) :
    Leads m (performAll operations m) :=
  ⟨_, (performAll_history sound operations).course⟩

end Leads

section Test

variable {os : List Occurrence} {n : Nat} {members : List (String × Json)} {m : Coordinator}

/-- The test compares the number of the request that is answered. -/
theorem accept_of_number {number : Int}
    (answered : (sequence (member members "version") (m.world.parseReceived + 1)).1 = number) :
    (accept (.obj members) m).2 = .ok (decide ((m.world.acceptFrom : Int) ≤ number)) := by
  subst answered
  unfold accept membersOf
  simp only
  split
  · rename_i h
    simp [h]
  · rename_i h
    split <;> simp [h]

theorem Tally.number (tally : Tally os m) (answers : Answers os n members) :
    (sequence (member members "version") (m.world.parseReceived + 1)).1 = (n : Int) := by
  rcases answers.2 with version | ⟨place, bare⟩
  · rw [version]
    rfl
  · rw [bare, tally.received, place]

theorem Tally.acceptFrom_le_iff (tally : Tally os m) (sent : 1 ≤ n ∧ n ≤ requests os) :
    m.world.acceptFrom ≤ n ↔ Current os n := by
  rcases tally.acceptFrom with ⟨current, first⟩ | ⟨outdated, first⟩
  · refine ⟨fun h => ?_, fun h => ?_⟩
    · obtain rfl : n = requests os := by omega
      exact current
    · exact Nat.le_of_eq (first.trans h.eq_requests.symm)
  · refine ⟨fun h => ?_, fun h => ?_⟩
    · have := first (by omega)
      omega
    · exact absurd (h.eq_requests ▸ h) outdated

/-- An answer that does not pass the test changes the status of the session at most. -/
theorem session_of_rejected {kind : Inbound} (answers : kind ≠ .schemaUpdated) {payload : Json}
    (rejected : (accept payload m).2 = .ok false) :
    ∃ status, session (handle kind payload m).1 = (session m).withStatus status := by
  obtain ⟨status, counted⟩ := accept_session payload m
  refine ⟨status, Eq.trans (congrArg session ?_) counted⟩
  cases kind with
  | parsed =>
    have parsed := handleParsed_parsed payload m
    rw [rejected] at parsed
    change (handleParsed payload m).1 = _
    generalize handleParsed payload m = step at parsed ⊢
    cases parsed with
    | stale => rfl
  | parseFailed =>
    have failed := handleParseFailed_parseFailed payload m
    rw [rejected] at failed
    change (handleParseFailed payload m).1 = _
    generalize handleParseFailed payload m = step at failed ⊢
    cases failed with
    | stale => rfl
  | schemaUpdated => exact absurd rfl answers

end Test

/-- In every run the requests are sent with their numbers, and at each of its moments an answer passes the
    test if and only if it answers the newest request and no edit was committed and no load was started
    since that was sent; any other leaves the session as it is, but for its status. Whether answers carry
    the number of their request or come in their place makes no difference. -/
theorem answer_passes_iff_current (settings : Settings) (delay : Float) (start : Session)
    (channel : Channel Inbound Unit) (notifier : Notifier Unit) (backend : Backend)
    (operations : List Operation) :
    let m₀ := fresh settings delay start channel notifier backend
    (∀ earlier text sender later,
      incidentsOf m₀ operations = earlier ++ .requested text sender :: later →
      (parseRequest text sender).2.get "version" = .int (requests (occurrences earlier) + 1)) ∧
    ∀ is m, Moment m₀ operations is m → ∀ n members, Answers (occurrences is) n members →
      ((accept (.obj members) m).2 = .ok true ↔ Current (occurrences is) n) ∧
      (¬ Current (occurrences is) n → ∀ kind, kind ≠ .schemaUpdated →
        ∃ status, session (handle kind (.obj members) m).1 = (session m).withStatus status) ∧
      ∀ members', Answers (occurrences is) n members' →
        (accept (.obj members) m).2 = (accept (.obj members') m).2 := by
  intro m₀
  have sound : Sound .idle m₀ := sound_fresh settings delay start channel notifier backend
  refine ⟨fun earlier text sender later split => ?_, fun is m moment n members answers => ?_⟩
  · have asked : History m₀ earlier sender := (performAll_history sound operations).cut split rfl
    rw [← asked.course.tally.sent]
    rfl
  have tally : Tally (occurrences is) m := (moment.history sound).course.tally
  have decision {members : List (String × Json)} (answers : Answers (occurrences is) n members) :
      (accept (.obj members) m).2 = .ok (decide (m.world.acceptFrom ≤ n)) := by
    rw [accept_of_number (tally.number answers)]
    simp
  have current := tally.acceptFrom_le_iff answers.1
  refine ⟨?_, fun outdated kind reply => ?_, fun members' answers' => ?_⟩
  · rw [decision answers, ← current]
    simp
  · refine session_of_rejected reply ?_
    rw [decision answers, decide_eq_false (mt current.mp outdated)]
  · rw [decision answers, decision answers']

def askingTwice : List Operation := [.start, .parse (.str "Table a"), .parse (.str "Table b")]

/-- Of two requests the second is the current one: its answer passes whether it carries its number or
    comes second, and the answer to the first does not. -/
theorem answer_passes_after_asking_twice :
    let m := performAll askingTwice (fresh {} 1.0 {} {} { capacity := 50 } {})
    (accept (.obj [("version", .int 2)]) m).2 = .ok true ∧
      (accept (.obj [("version", .int 1)]) m).2 ≠ .ok true ∧
      (accept (.obj []) m).2 ≠ .ok true := by
  intro m
  have is : occurrences (incidentsOf (fresh {} 1.0 {} {} { capacity := 50 } {}) askingTwice) =
      [.requested, .requested] := by decide +kernel
  have passes :=
    (answer_passes_iff_current {} 1.0 {} {} { capacity := 50 } {} askingTwice).2 _ _ .now
  rw [is] at passes
  have second : Current [.requested, .requested] 2 :=
    ⟨[.requested], [], rfl, rfl, fun _ ho => nomatch ho⟩
  have first : ¬ Current [.requested, .requested] 1 := fun h => by cases h.eq_requests
  have early : 1 ≤ 1 ∧ 1 ≤ requests [.requested, .requested] := by decide
  refine ⟨(passes 2 [("version", .int 2)] ⟨by decide, .inl rfl⟩).1.mpr second, fun h => ?_, fun h => ?_⟩
  · exact first ((passes 1 [("version", .int 1)] ⟨early, .inl rfl⟩).1.mp h)
  · exact first ((passes 1 [] ⟨early, .inr ⟨rfl, fun _ => rfl⟩⟩).1.mp h)

end SchemaDiagram.Sync.Coordinator
