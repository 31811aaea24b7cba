import SchemaDiagram.Proofs.FreshSaves
import SchemaDiagram.Proofs.ParseAnswers

/-!
Answers to requests that are older than a load. From its start on a load fences off every request that
was sent before. A request that is sent while the load waits for its reply is not fenced off when the
reply comes: as long as it is the newest, its answer counts in the session that was loaded.
-/

set_option autoImplicit false

namespace SchemaDiagram.Sync.Coordinator

section Fence

variable {start m k : Coordinator} {os os' : List Occurrence} {t : TaskId} {id : Json}

/-- The request that is current after a load has started was sent since. -/
theorem Current.after_load {number : Nat} (h : Current (os ++ .loadStarted :: os') number) :
    requests os < number := by
  obtain ⟨earlier, later, split, rfl, calm⟩ := h
  rcases List.append_eq_append_iff.mp split with ⟨since, rfl, -⟩ | ⟨since, -, rest⟩
  · unfold requests
    rw [List.count_append]
    omega
  · have among : Occurrence.loadStarted ∈ .requested :: later := by
      rw [rest]
      simp
    rcases List.mem_cons.mp among with h | h
    · cases h
    · cases calm _ h

theorem Starts.course {o : Operation} (starts : Starts m o t id) (sound : Sound .idle m)
    (course : Course start os m) :
    ∃ since, Course start (os ++ .loadStarted :: since) (perform m o) := by
  obtain ⟨n, resumes⟩ := starts.resumes
  have begun := course.trans (perform_history sound o).course
  rw [resumes.incidents] at begun
  exact ⟨_, begun⟩

end Fence

/-- From the start of a load on, an answer that echoes the number of a request sent before the load has
    returned leaves the session as it is, but for its status, unless that request was sent while the
    load waited and no other has been sent since. -/
theorem answers_fenced_by_load (settings : Settings) (delay : Float) (start : Session)
    (channel : Channel Inbound Unit) (notifier : Notifier Unit) (backend : Backend)
    (before : List Operation) (o : Operation) (waiting : List Operation) (t : TaskId) (id : Json) :
    let m := performAll before (fresh settings delay start channel notifier backend)
    let k := performAll waiting (perform m o)
    Starts m o t id →
    (∀ operations, Leads k (performAll operations k)) ∧
    ∀ n, Leads k n → ∀ (number : Nat) members, 1 ≤ number → number ≤ k.world.parseSent →
      member members "version" = .int number →
      ¬ (m.world.parseSent < number ∧ number = n.world.parseSent) →
      ∀ kind, kind ≠ .schemaUpdated →
        ∃ status, session (handle kind (.obj members) n).1 = (session n).withStatus status := by
  intro m k starts
  have fresh_sound := sound_fresh settings delay start channel notifier backend
  have sound : Sound .idle m := fresh_sound.performAll before
  have returned : Sound .idle k := (sound.perform o).performAll waiting
  refine ⟨performAll_leads returned, fun n later number members early sent version apart kind answers => ?_⟩
  -- one course from the first moment to the answer, in which the start of the load has its place
  obtain ⟨os, course⟩ := performAll_leads fresh_sound before
  obtain ⟨since, begun⟩ := starts.course sound course
  obtain ⟨during, waited⟩ := performAll_leads (sound.perform o) waiting
  obtain ⟨after, rest⟩ := later
  have ended := begun.trans waited
  have whole := ended.trans rest
  rw [List.append_assoc, List.cons_append] at ended
  rw [List.append_assoc, List.append_assoc, List.cons_append] at whole
  have tally := whole.tally
  have known : number ≤ requests (os ++ .loadStarted :: (since ++ (during ++ after))) := by
    have : requests (os ++ .loadStarted :: (since ++ during)) ≤
        requests (os ++ .loadStarted :: (since ++ (during ++ after))) := by
      simp only [requests, List.count_append, List.count_cons]
      omega
    rw [ended.tally.sent] at sent
    exact Nat.le_trans sent this
  have outdated : ¬ Current (os ++ .loadStarted :: (since ++ (during ++ after))) number := by
    refine fun current => apart ⟨?_, ?_⟩
    · rw [course.tally.sent]
      exact current.after_load
    · rw [tally.sent]
      exact current.eq_requests
  refine session_of_rejected answers ?_
  have numbered :
      (sequence (member members "version") (n.world.parseReceived + 1)).1 = (number : Int) := by
    rw [version]
    rfl
  rw [accept_of_number numbered]
  simpa using mt (tally.acceptFrom_le_iff ⟨early, known⟩).mp outdated

def slow : Backend :=
  { stored with loads := [{ delay := some 2.0 }] }

def emptied : List (String × Json) := [("version", .int 1), ("ast", .obj [])]

/-- A text is sent to be parsed, and then a diagram is loaded: the answer comes too late. -/
theorem answer_fenced_by_slow_load :
    let m := performAll [.start, .parse (.str "")] (fresh {} 1.0 {} {} { capacity := 50 } slow)
    let k := performAll [.advance, .turn] (perform m (.enter (.load (.str "d"))))
    k.loop.outcome? 0 = some (.returned (.bool true)) ∧
      ∃ status, session (handle .parsed (.obj emptied) k).1 = (session k).withStatus status := by
  have fenced := answers_fenced_by_load {} 1.0 {} {} { capacity := 50 } slow
    [.start, .parse (.str "")] (.enter (.load (.str "d"))) [.advance, .turn] 0 (.str "d")
  intro m k
  extract_lets at fenced
  have starts : Starts m (.enter (.load (.str "d"))) 0 (.str "d") := .inl ⟨rfl, by decide +kernel⟩
  have sent : 1 ≤ k.world.parseSent ∧ ¬ (m.world.parseSent < 1 ∧ 1 = k.world.parseSent) := by
    decide +kernel
  exact ⟨by decide +kernel, (fenced starts).2 k (.refl k) 1 emptied (Nat.le_refl 1) sent.1 rfl sent.2
    .parsed nofun⟩

/-- A text is sent to be parsed while a load waits. The load has returned when the answer comes, and
    still the answer is accepted: it replaces the diagram that was loaded. -/
theorem answer_replaces_loaded :
    let k := performAll [.start, .enter (.load (.str "d")), .parse (.str ""), .advance, .turn]
      (fresh {} 1.0 {} {} { capacity := 50 } slow)
    k.loop.outcome? 0 = some (.returned (.bool true)) ∧ k.world.parseSent = 1 ∧
      (session k).diagram.nodes.map (·.id) = ["t"] ∧
      (session (handle .parsed (.obj emptied) k).1).diagram.nodes = [] := by
  decide +kernel

end SchemaDiagram.Sync.Coordinator
