import SchemaDiagram.Proofs.SaveTurns

/-!
The history of a run. Every moment of a run is reached by steps of a few kinds, and the incidents of these
steps are those that were computed of the operations: a text that is sent to be parsed, a commit, the start
of a load, what its record brings, a message that is heard. Saves begin and end without an incident. What
later modules say of all moments they prove by induction on these steps.
-/

set_option autoImplicit false

namespace SchemaDiagram.Sync.Coordinator

/-- A moment to which a coordinator has come, with all that has happened until then. -/
inductive History (start : Coordinator) : List Incident → Coordinator → Prop where
  | start : History start [] start
  | other {is : List Incident} {m k : Coordinator} (h : History start is m) (beside : Beside m k) :
      History start is k
  | request {is : List Incident} {m : Coordinator} (h : History start is m) (text : Json)
      (connected : m.world.connected = true) :
      History start (is ++ [.requested text m]) (requesting text m)
  | commit {is : List Incident} {m : Coordinator} (h : History start is m) (schema : Schema) :
      History start (is ++ [.committed schema]) (superseding schema m)
  | load {is : List Incident} {m : Coordinator} (h : History start is m) (id : Json) :
      History start (is ++ [.loadStarted]) (blanking id m)
  | entitle {is : List Incident} {m : Coordinator} (h : History start is m) (id : Json)
      (members : List (String × Json)) :
      History start (is ++ [.brought (textIn members)]) (entitled id members m)
  | draw {is : List Incident} {m : Coordinator} (h : History start is m) (schema : Schema)
      (d : Diagram) : History start (is ++ [.drawn schema])
        (mapSession m fun s => (s.withSchema (some schema)).withDiagram d)
  | hear {is : List Incident} {m : Coordinator} (h : History start is m) (kind : Inbound)
      (payload : Json) :
      History start (is ++ [.heard kind payload m]) (handle kind payload m).1
  | beginSave {is : List Incident} {m : Coordinator} (h : History start is m) :
      History start is (beginning m)
  | endSave {is : List Incident} {m : Coordinator} (h : History start is m) :
      History start is (endSave m)

/-- A relation that spans what loads do, too. -/
structure Carries (R : Coordinator → List Incident → Coordinator → Prop) : Prop
    extends Spans (fun _ => True) R where
  load : ∀ id m, R m [.loadStarted] (blanking id m)
  entitle : ∀ id members m, R m [.brought (textIn members)] (entitled id members m)
  draw : ∀ {schema d} members m, drawnIn m.world.settings.grid members = .ok (schema, d) →
    R m [.drawn schema] (mapSession m fun s => (s.withSchema (some schema)).withDiagram d)
  of_world : ∀ {m k}, k.world = m.world → R m [] k

namespace Carries

variable {R : Coordinator → List Incident → Coordinator → Prop} (carries : Carries R)

include carries

theorem fill (id record : Json) (m : Coordinator) :
    R m (whileFilled id record m) (fill id record m).1 := by
  unfold Coordinator.fill whileFilled
  cases membersIn record with
  | error f => exact carries.refl m
  | ok members =>
    exact carries.trans (carries.entitle id members m)
      (carries.furnish carries.draw trivial members _)

theorem receiveLoad (t : TaskId) (id : Json) (reply : Reply) (m : Coordinator) :
    R m (whileReceived id reply m) (receiveLoad t id reply m) := by
  unfold Coordinator.receiveLoad whileReceived
  cases loaded id reply m with
  | error f =>
    have told (what : String) (message : Json) : R m [] (reportRefusal what message m).1 :=
      carries.unmoved ⟨(Noted.refl m).note.trans (notify_noted _ _), rfl, rfl⟩
    dsimp only
    split
    · exact carries.andThen (told _ _) (carries.of_world rfl)
    · exact carries.of_world rfl
    · contradiction
  | ok record =>
    have filled := carries.fill id record m
    dsimp only
    rcases hk : Coordinator.fill id record m with ⟨k, f⟩
    rw [hk] at filled
    cases f with
    | some f => exact carries.andThen filled (carries.of_world rfl)
    | none =>
      cases loadedName id with
      | error f => exact carries.andThen filled (carries.of_world rfl)
      | ok name => exact carries.andThen filled (carries.of_world rfl)

theorem beginLoad (t : TaskId) (id : Json) (m : Coordinator) :
    R m (whileLoaded id m) (beginLoad t id m) := by
  have begun := carries.load id m
  unfold Coordinator.beginLoad whileLoaded
  cases (loadReply m).delay with
  | some seconds => exact carries.andThen begun (carries.of_world rfl)
  | none => exact carries.trans begun (carries.receiveLoad t id _ _)

end Carries

section Turns

variable {R : Coordinator → List Incident → Coordinator → Prop} {start m k n : Coordinator}
  {o : Operation} {t : TaskId} {p : Debounce.Point Point Wait} {is is' earlier later : List Incident}

theorem Resumes.incidents (h : Resumes m o t p n) : incidents m o = whileResumed p n := by
  have resumed := h.resumed
  cases h with
  | enter e => rfl
  | turn ready target stands =>
    simp only [Coordinator.incidents, resumed]

theorem whileResumed_of_other (apart : isLoad p = false) (m : Coordinator) : whileResumed p m = [] := by
  cases p with
  | window _ | quiet _ | pause _ _ => rfl
  | own a => cases a <;> first | rfl | cases apart

theorem Carries.resumes (carries : Carries R) (h : Resumes m o t p n) (sound : Sound .idle m)
    (load : isLoad p = true) : R m (incidents m o) (perform m o) := by
  obtain ⟨signal, heard, resume⟩ := h.resume sound
  have begun : R m [] n := carries.of_world h.world
  rw [h.incidents, resume]
  refine carries.trans begun ?_
  cases p with
  | window _ | quiet _ | pause _ _ => cases load
  | own a =>
    cases a with
    | load id =>
      cases heard rfl
      exact carries.beginLoad t id n
    | loading id reply =>
      cases heard rfl
      exact carries.receiveLoad t id reply n
    | request _ | save _ _ | queued _ _ _ | sending _ _ | flush | drain | close | spawned _ => cases load

/-- Somebody goes on in an operation that is work of tasks, or nothing happens. -/
theorem resumes_or_nothing (sound : Sound .idle m) (works : o.works = true) :
    (∃ t p n, Resumes m o t p n) ∨ incidents m o = [] ∧ (perform m o).world = m.world := by
  rcases resumes_or_lull sound works with resumes | lull
  · exact .inl resumes
  · cases o with
    | start | parse _ | deliver _ | setConnected _ | edit _ | moveTable _ _ | postpone _ => cases works
    | enter e => exact .inl ⟨_, _, _, .enter e⟩
    | spawn _ | advance => exact .inr ⟨rfl, lull.world⟩
    | turn =>
      cases ready : m.loop.ready with
      | nil =>
        refine .inr ⟨?_, lull.world⟩
        simp only [incidents, resumed?, ready]
      | cons c rest =>
        cases stands : c.target?.bind m.loop.standing with
        | none =>
          refine .inr ⟨?_, lull.world⟩
          simp only [incidents, resumed?, ready, stands, Option.map_none]
        | some p =>
          obtain ⟨t, target, own⟩ := Option.bind_eq_some_iff.mp stands
          exact .inl ⟨t, p, _, .turn ready target own⟩

theorem Carries.works (carries : Carries R) (saves : ∀ {t p m k}, SaveTurn t p m k → R m [] k)
    (sound : Sound .idle m) (works : o.works = true) : R m (incidents m o) (perform m o) := by
  rcases resumes_or_nothing sound works with ⟨t, p, n, resumes⟩ | ⟨nothing, world⟩
  · cases load : isLoad p with
    | true => exact carries.resumes resumes sound load
    | false =>
      obtain ⟨signal, heard, resume⟩ := resumes.resume sound
      have turn := saves (resume_turn load (resumes.stands sound) heard)
      rw [resumes.incidents, whileResumed_of_other load, resume]
      exact carries.andThen (carries.of_world resumes.world) turn
  · rw [nothing]
    exact carries.of_world world

theorem History.trans (h : History start is m) (h' : History m is' k) :
    History start (is ++ is') k := by
  induction h' with
  | start => exact (List.append_nil is).symm ▸ h
  | other _ beside ih => exact ih.other beside
  | request _ text connected ih => exact List.append_assoc .. ▸ ih.request text connected
  | commit _ schema ih => exact List.append_assoc .. ▸ ih.commit schema
  | load _ id ih => exact List.append_assoc .. ▸ ih.load id
  | entitle _ id members ih => exact List.append_assoc .. ▸ ih.entitle id members
  | draw _ schema d ih => exact List.append_assoc .. ▸ ih.draw schema d
  | hear _ kind payload ih => exact List.append_assoc .. ▸ ih.hear kind payload
  | beginSave _ ih => exact ih.beginSave
  | endSave _ ih => exact ih.endSave

theorem Beside.history (h : Beside m k) : History m [] k := History.start.other h

theorem History.carries : Carries History where
  trans := trans
  unmoved := fun h => h.unseen.beside.history
  request := fun text _ connected => start.request text connected
  supersede := fun schema _ => start.commit schema
  handle := fun _ kind payload _ => start.hear kind payload
  schedule := fun m _ _ => Beside.history (.of_world (cancel_world m))
  spawn := fun _ _ _ => Beside.history (.of_world rfl)
  load := fun id _ => start.load id
  entitle := fun id members _ => start.entitle id members
  draw := fun _ _ _ => start.draw _ _
  of_world := fun same => Beside.history (.of_world same)

theorem Goes.history (h : Goes t m k) : History m [] k := by
  cases h with
  | waits underway => exact underway.toBeside.history
  | @ends k after result underway =>
    have released : Beside k (release k) := by
      refine ⟨⟨?_, ?_, ?_⟩, ?_, ?_, ?_, ?_⟩ <;> simp only [session, release_world]
    have ended : Beside (Coordinator.endSave (release k)) (leave t after result k) :=
      .of_world (afterSave_rests (t := t) after result _).world
    exact (underway.toBeside.history.other released).endSave.other ended

theorem SaveTurn.history (h : SaveTurn t p m k) : History m [] k := by
  cases h with
  | passes _ _ underway => exact underway.toBeside.history
  | begins _ _ underway rest => exact underway.toBeside.history.beginSave.trans rest.history
  | goesOn _ rest => exact rest.history

theorem perform_history (sound : Sound .idle m) (o : Operation) :
    History m (incidents m o) (perform m o) := by
  cases works : o.works with
  | false => exact History.carries.restrict.perform (fun h => h.beside.history) works
  | true => exact History.carries.works SaveTurn.history sound works

theorem performAll_history (sound : Sound .idle m) (operations : List Operation) :
    History m (incidentsOf m operations) (performAll operations m) := by
  induction operations generalizing m with
  | nil => exact .start
  | cons o rest ih => exact (perform_history sound o).trans (ih (sound.perform o))

theorem append_split {i j : Incident} (h : is ++ [j] = earlier ++ i :: later) :
    is = earlier ∧ j = i ∨ ∃ rest, is = earlier ++ i :: rest := by
  rcases List.eq_nil_or_concat later with rfl | ⟨rest, last, rfl⟩
  · obtain ⟨rfl, same⟩ := List.append_inj' h rfl
    exact .inl ⟨rfl, (List.cons.inj same).1⟩
  · rw [List.concat_eq_append, ← List.cons_append, ← List.append_assoc] at h
    exact .inr ⟨rest, (List.append_inj' h rfl).1⟩

/-- The history up to an incident of which the coordinator is on record. -/
theorem History.cut (h : History start is n) {i : Incident} (split : is = earlier ++ i :: later)
    (found : i.found? = some k) : History start earlier k := by
  induction h generalizing later with
  | start => simp at split
  | other _ _ ih | beginSave _ ih | endSave _ ih => exact ih split
  | request h text connected ih | hear h kind payload ih =>
    rcases append_split split with ⟨rfl, rfl⟩ | ⟨rest, before⟩
    · exact Option.some.inj found ▸ h
    · exact ih before
  | commit _ _ ih | load _ _ ih | entitle _ _ _ ih | draw _ _ _ ih =>
    rcases append_split split with ⟨rfl, rfl⟩ | ⟨rest, before⟩
    · cases found
    · exact ih before

theorem Moment.history {operations : List Operation} (h : Moment m operations is k)
    (sound : Sound .idle m) : History m is k := by
  have whole := performAll_history sound operations
  cases h with
  | now => exact whole
  | before calls => exact whole.cut calls rfl
  | after calls => exact (whole.cut calls rfl).hear _ _

end Turns

end SchemaDiagram.Sync.Coordinator
