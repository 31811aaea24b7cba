import SchemaDiagram.Proofs.PlainRuns
import SchemaDiagram.Proofs.RoundTrip

/-!
What is saved is one snapshot. In a session that starts blank the diagram always shows the schema:
an accepted answer projects it, an edit reduces it, a move changes only where a table stands. A save
sends schema and diagram of one moment, unless it was asked for by an edit and the session has
another schema by then.
-/

set_option autoImplicit false

namespace SchemaDiagram

namespace Diagram

/-- A diagram reduces to a schema, but for where the tables stand. -/
def Shows (d : Diagram) (s : Schema) : Prop :=
  d.reduce.map Schema.unplaced = .ok s.unplaced

instance (d : Diagram) (s : Schema) : Decidable (d.Shows s) :=
  inferInstanceAs (Decidable (_ = _))

theorem Shows.of_unplaced {d u : Diagram} {s : Schema} (h : d.Shows s)
    (same : u.unplaced = d.unplaced) : u.Shows s := by
  unfold Shows at h ⊢
  rw [← reduce_unplaced u, same, reduce_unplaced d, h]

theorem Shows.of_reduce {d : Diagram} {s : Schema} (reduced : d.reduce = .ok s) : d.Shows s := by
  unfold Shows
  rw [reduced]
  rfl

end Diagram

namespace Schema

variable {s : Schema} {grid : Grid} {places : Places}

theorem depicts_of_nodesFrom {index : Nat} {ts : List Table} {ns : List Node}
    (h : nodesFrom grid places index ts = .ok ns) : Depicts ts ns := by
  induction ts generalizing index ns with
  | nil =>
    cases h
    exact .nil
  | cons t rest ih =>
    obtain ⟨p, -, h⟩ := Result.bind_ok h
    obtain ⟨ms, hms, h⟩ := Result.bind_ok h
    cases h
    exact .cons rfl (ih hms)

theorem named_of_edgeOf {r : Relationship} {e : Edge} (h : s.edgeOf r = .ok e) :
    (∃ t ∈ s.tables, t.name = r.fromTable) ∧ ∃ t ∈ s.tables, t.name = r.toTable := by
  have known {name : String} {t : Table} (ht : s.table? name = some t) :
      ∃ t ∈ s.tables, t.name = name :=
    ⟨t, List.mem_of_find?_eq_some ht, by simpa using List.find?_some ht⟩
  unfold edgeOf at h
  cases hf : s.table? r.fromTable with
  | none =>
    rw [hf] at h
    cases h
  | some a =>
    cases ht : s.table? r.toTable with
    | none =>
      rw [hf, ht] at h
      cases h
    | some b => exact ⟨known hf, known ht⟩

theorem named_of_edges {rs : List Relationship} {es : List Edge} (h : rs.mapM s.edgeOf = .ok es) :
    ∀ r ∈ rs, (∃ t ∈ s.tables, t.name = r.fromTable) ∧ ∃ t ∈ s.tables, t.name = r.toTable := by
  intro r hr
  obtain ⟨e, -, he⟩ := exists_of_mem_right (Result.mapM_ok.mp h) hr
  exact named_of_edgeOf he

theorem parts_of_project {d : Diagram} (made : s.project grid places = .ok d) :
    nodesFrom grid places 0 s.tables = .ok d.nodes ∧ s.relationships.mapM s.edgeOf = .ok d.edges := by
  obtain ⟨ns, hns, made⟩ := Result.bind_ok made
  obtain ⟨es, hes, made⟩ := Result.bind_ok made
  cases made
  exact ⟨hns, hes⟩

/-- A schema whose tables can be told apart is shown by every diagram that is made of it. -/
theorem shows_of_project {d : Diagram} (made : s.project grid places = .ok d)
    (distinct : (s.tables.map Table.id).Nodup) (identified : ∀ t ∈ s.tables, t.id ≠ "") :
    d.Shows s := by
  obtain ⟨nodes, edges⟩ := parts_of_project made
  have shown := depicts_of_nodesFrom nodes
  obtain ⟨us, reduced, same, -, -⟩ := shown.tablesOf
  obtain ⟨es, edges', back⟩ := exists_edges fun r hr =>
    relationshipOf_edgeOf shown distinct identified (named_of_edges edges r hr).1
      (named_of_edges edges r hr).2
  obtain rfl : d.edges = es := Except.ok.inj (edges.symm.trans edges')
  unfold Diagram.Shows Diagram.reduce
  rw [reduced, back]
  change Except.ok (Schema.mk (us.map Table.unplaced) s.relationships) = _
  rw [same]
  rfl

end Schema

namespace Sync

def Payload.Consistent (p : Payload) : Prop :=
  ∀ s ∈ p.schema, Diagram.Shows ⟨p.nodes.getD [], p.edges.getD []⟩ s

instance (p : Payload) : Decidable p.Consistent :=
  inferInstanceAs (Decidable (∀ s ∈ p.schema, _))

namespace Coordinator

/-- Whatever schema an answer brings, its tables have distinct ids, none of them empty. -/
def Lawful (payload : Json) : Prop :=
  ∀ s : Schema, Record.validated .value (payload.get "ast") = .ok s →
    (s.tables.map Table.id).Nodup ∧ ∀ t ∈ s.tables, t.id ≠ ""

instance (payload : Json) : Decidable (Lawful payload) :=
  match read : (Record.validated .value (payload.get "ast") : Result Schema) with
  | .error _ => isTrue fun _ hs => nomatch read.symm.trans hs
  | .ok s =>
    decidable_of_iff ((s.tables.map Table.id).Nodup ∧ ∀ t ∈ s.tables, t.id ≠ "")
      ⟨fun h _ hu => Except.ok.inj (read.symm.trans hu) ▸ h, fun h => h s read⟩

structure Drawn (m : Coordinator) : Prop where
  voices : Voices Lawful m.world.channel.peer
  shows : ∀ s, (session m).document.schema = some s → (session m).diagram.Shows s

/-- A schema of an edit that has passed in a run, when the session has another one. -/
def Overtaken (m : Coordinator) (passed : List Operation) (s : Schema) : Prop :=
  (session (performAll passed m)).document.schema ≠ some s ∧
    ∃ earlier e, earlier ++ [.edit e] <+: passed ∧
      ((session (performAll earlier m)).attempt
        (performAll earlier m).world.settings.grid e).2.schema? = some s

/-- A payload sends the diagram of the session, which shows the schema that it sends. -/
def Snapshot (m : Coordinator) (passed : List Operation) (payload : Payload) : Prop :=
  let s := session (performAll passed m)
  payload.nodes = some s.diagram.nodes ∧ payload.edges = some s.diagram.edges ∧
    ∀ schema, payload.schema = some schema → s.diagram.Shows schema ∨ Overtaken m passed schema

section Drawn

variable {asks : Overrides → Prop} {m k : Coordinator}

namespace Drawn

theorem draws {schema : Option Schema} {d : Diagram} (drawn : Drawn m) (h : Draws schema d m k)
    (shown : ∀ s, schema = some s → d.Shows s) : Drawn k :=
  ⟨h.peer ▸ drawn.voices, fun s hs => h.diagram ▸ shown s (h.schema ▸ hs)⟩

theorem aside (drawn : Drawn m) (h : Aside m k) : Drawn k := drawn.draws h drawn.shows

theorem untouched (drawn : Drawn m) (h : Untouched m k) : Drawn k :=
  ⟨h.peer ▸ drawn.voices, fun s hs => h.diagram ▸ drawn.shows s (h.schema ▸ hs)⟩

theorem fresh (settings : Settings) (delay : Float) {channel : Channel Inbound Unit}
    (notifier : Notifier Unit) (backend : Backend) (voices : Voices Lawful channel.peer) :
    Drawn (Coordinator.fresh settings delay {} channel notifier backend) :=
  ⟨voices, fun _ hs => nomatch hs⟩

theorem schedule (drawn : Drawn m) (o : Overrides) : Drawn (m.schedule o) := by
  have same : (m.schedule o).world = m.world := cancel_world m
  refine ⟨same ▸ drawn.voices, fun s hs => ?_⟩
  unfold Coordinator.session at hs ⊢
  rw [same] at hs ⊢
  exact drawn.shows s hs

theorem speech (drawn : Drawn m) (h : Speech Lawful m k) : Drawn k := by
  induction h with
  | aside h => exact drawn.aside h
  | adopt hears read projected h =>
    obtain ⟨distinct, identified⟩ := hears _ read
    have shown := Schema.shows_of_project projected distinct identified
    refine (drawn.draws h fun s hs => ?_).schedule {}
    exact Option.some.inj hs ▸ shown
  | trans _ _ ih ih' => exact ih' (ih drawn)

theorem edit (drawn : Drawn m) (e : Edit) : Drawn (Coordinator.edit e m).1 := by
  have shown {schema : Schema} {d : Diagram} (reduced : d.reduce = .ok schema) :
      ∀ s, some schema = some s → d.Shows s := fun s hs => Option.some.inj hs ▸ .of_reduce reduced
  have edited := edit_edited drawn.voices e
  generalize Coordinator.edit e m = r at edited ⊢
  cases edited with
  | unpassed _ h => exact drawn.aside h
  | untold _ _ reduced h told => exact (drawn.draws h (shown reduced)).speech told
  | @saved schema _ _ n _ _ _ reduced h told settled =>
    have spawned : Drawn (spawning schema n) :=
      ((drawn.draws h (shown reduced)).speech told).untouched ⟨rfl, rfl, rfl, rfl⟩
    exact spawned.aside settled

theorem perform (drawn : Drawn m) (plain : Plain asks .idle m) (sound : Sound .idle m)
    {o : Operation} (own : o.plain = true) (asks_all : ∀ ov, asked m o ov → asks ov)
    (lawful : ∀ message, o = .deliver message → Lawful message.2) :
    Drawn (Coordinator.perform m o) := by
  cases o with
  | start => exact drawn.aside (start_aside m)
  | parse text => exact drawn.speech (parse_speech drawn.voices text)
  | deliver message => exact drawn.speech (deliver_speech (lawful message rfl) m)
  | setConnected up => exact drawn.speech (setConnected_speech up m)
  | edit e => exact drawn.edit e
  | moveTable id position =>
    change Drawn (moveTable id position m).1
    rcases moveTable_cases id position m with h | ⟨d, k, same, h, ends⟩
    · exact drawn.aside h
    · rw [ends]
      exact (drawn.draws h fun s hs => (drawn.shows s hs).of_unplaced same).schedule {}
  | postpone members =>
    obtain rfl : members = [] := List.isEmpty_iff.mp own
    exact drawn.schedule {}
  | spawn | enter | turn | advance =>
    exact drawn.untouched ((plain.perform sound own asks_all).2.2 rfl)

theorem performAll (drawn : Drawn m) (plain : Plain (fun _ => False) .idle m)
    (sound : Sound .idle m) {operations : List Operation}
    (own : ∀ o ∈ operations, o.plain = true)
    (lawful : ∀ message, .deliver message ∈ operations → Lawful message.2) :
    Drawn (Coordinator.performAll operations m) := by
  induction operations using List.reverseRecOn with
  | nil => exact drawn
  | append_singleton passed o ih =>
    rw [performAll_append]
    have early : ∀ p ∈ passed, p.plain = true := fun p hp => own p (List.mem_append_left _ hp)
    have later := (plain.performAll sound early).mono fun _ => AskedSince.earlier (o := o)
    refine (ih early fun message hm => lawful message (List.mem_append_left _ hm)).perform later
      (sound.performAll passed) (own o (by simp)) (fun _ => AskedSince.last) fun message ho => ?_
    exact lawful message (by simp [ho])

end Drawn

theorem Snapshot.of_saved {passed : List Operation} {ov : Overrides} {payload : Payload}
    (drawn : Drawn (performAll passed m)) (members : ov.members = [])
    (schema : ov.schema = none ∨ ∃ earlier e schema, earlier ++ [.edit e] <+: passed ∧
      ((session (performAll earlier m)).attempt
        (performAll earlier m).world.settings.grid e).2.schema? = some schema ∧
      ov.schema = some schema)
    (built : payloadOf ov (session (performAll passed m)) = .ok payload) :
    Snapshot m passed payload := by
  obtain ⟨sent, nodes, edges⟩ := payload_parts members built
  refine ⟨nodes, edges, fun s hs => ?_⟩
  rw [sent] at hs
  by_cases current : (session (performAll passed m)).document.schema = some s
  · exact .inl (drawn.shows s current)
  · rcases schema with none | ⟨earlier, e, schema, early, committed, own⟩
    · rw [none] at hs
      exact absurd hs current
    · rw [own] at hs
      exact .inr ⟨current, earlier, e, early, committed.trans hs⟩

/-- In every run from a blank session, in which answers bring schemas whose tables have distinct
    ids, every payload has the nodes and the edges that the session had at one moment of the run. A
    schema in it is shown by them, unless it was committed by an edit before and the session had
    another schema at that moment. -/
theorem saved_snapshot (settings : Settings) (delay : Float) (channel : Channel Inbound Unit)
    (notifier : Notifier Unit) (backend : Backend) (operations : List Operation) :
    let m := fresh settings delay {} channel notifier backend
    (∀ o ∈ operations, o.plain = true) → Voices Lawful channel.peer →
    (∀ message, .deliver message ∈ operations → Lawful message.2) →
    ∀ time id status payload,
      .save time id status payload ∈ (performAll operations m).world.trace →
      ∃ passed, passed <+: operations ∧ Snapshot m passed payload := by
  intro m
  induction operations using List.reverseRecOn with
  | nil => exact fun _ _ _ _ _ _ _ he => absurd he List.not_mem_nil
  | append_singleton passed o ih =>
    intro own voices lawful time id status payload he
    have early : ∀ p ∈ passed, p.plain = true := fun p hp => own p (List.mem_append_left _ hp)
    have sound : Sound .idle m := sound_fresh ..
    have sound' := sound.performAll passed
    have plain : Plain (fun _ => False) .idle m := .fresh ..
    have heard : ∀ message, .deliver message ∈ passed → Lawful message.2 := fun message hm =>
      lawful message (List.mem_append_left _ hm)
    have drawn : Drawn (performAll passed m) :=
      (Drawn.fresh settings delay notifier backend voices).performAll plain sound early heard
    have later := (plain.performAll sound early).mono fun _ => AskedSince.earlier (o := o)
    obtain ⟨-, ⟨events, trace, saves⟩, -⟩ :=
      later.perform sound' (own o (by simp)) fun _ => AskedSince.last
    rw [performAll_append] at he
    have before (he : .save time id status payload ∈ (performAll passed m).world.trace) :
        ∃ passed', passed' <+: passed ++ [o] ∧ Snapshot m passed' payload := by
      obtain ⟨passed', part, snapshot⟩ := ih early voices heard time id status payload he
      exact ⟨passed', part.trans (List.prefix_append _ _), snapshot⟩
    cases works : o.works with
    | false => exact before (perform_silent sound' works time id status payload he)
    | true =>
      rw [trace] at he
      rcases List.mem_append.mp he with he | he
      · exact before he
      · obtain ⟨ov, asked, built⟩ := saves time id status payload he
        obtain ⟨members, schema⟩ := asked.plain own
        refine ⟨passed, List.prefix_append _ _, .of_saved drawn members ?_ built⟩
        refine schema.imp_right fun ⟨earlier, e, schema, part, rest⟩ =>
          ⟨earlier, e, schema, ?_, rest⟩
        -- the edit has passed before, for what is at work now is no edit
        refine (List.prefix_concat_iff.mp part).resolve_left fun whole => ?_
        have last : Operation.edit e = o := by simpa using congrArg List.getLast? whole
        subst last
        cases works

def sketched : Message :=
  (Channel.Event.parsed, .obj [("version", .int 1), ("ast", .obj [
    ("tables", .arr [.obj [("id", .str "t"), ("name", .str "t"),
      ("columns", .arr [.obj [("name", .str "id"), ("type", .str "int")]])]]),
    ("relationships", .arr [])])])

def sketching : List Operation :=
  [.start, .parse (.str "Table t"), .deliver sketched,
    .edit (.renameTable (.str "t") (.str "u")), .turn, .turn,
    .moveTable (.str "t") (.obj [("x", .int 7), ("y", .int 7)]), .enter .flush,
    .turn, .advance, .turn, .turn, .turn]

theorem saved_snapshot_while_sketching :
    let m := fresh {} 1.0 {} {} { capacity := 50 } stored
    Lawful sketched.2 ∧ ∃ time id status payload passed,
      .save time id status payload ∈ (performAll sketching m).world.trace ∧
        payload.schema.isSome = true ∧ passed <+: sketching ∧ Snapshot m passed payload := by
  have saved := saved_snapshot {} 1.0 {} { capacity := 50 } stored sketching
  dsimp only at saved ⊢
  generalize hk : performAll sketching (fresh {} 1.0 {} {} { capacity := 50 } stored) = k at saved ⊢
  have lawful : Lawful sketched.2 := by decide +kernel
  have sent : (k.world.trace.filterMap Event.payload?).any
      (fun payload => payload.schema.isSome) = true := by
    rw [← hk]
    decide +kernel
  have heard : ∀ message, .deliver message ∈ sketching → Lawful message.2 := by
    intro message hm
    have only : message = sketched := by simpa [sketching] using hm
    exact only ▸ lawful
  obtain ⟨payload, hp, schema⟩ := List.any_eq_true.mp sent
  obtain ⟨time, id, status, he⟩ := Event.mem_payloads.mp hp
  obtain ⟨passed, part, snapshot⟩ :=
    saved (by decide) (fun _ hp => nomatch hp) heard time id status payload he
  exact ⟨lawful, time, id, status, payload, passed, he, schema, part, snapshot⟩

/-- The save of an edit keeps the schema of the edit, although another edit has passed before it
    could begin: it sends the nodes of two tables with a schema of one. -/
theorem edit_beside_later_edit_splits :
    let operations : List Operation := [.edit (.addTable .null), .edit (.addTable .null), .turn]
    let m := fresh {} 1.0 {} {} { capacity := 50 } {}
    (∀ o ∈ operations, o.plain = true) ∧
      ∃ payload ∈ (performAll operations m).world.trace.filterMap Event.payload?,
        ¬ payload.Consistent := by
  decide +kernel

end Drawn

end Coordinator

end Sync

end SchemaDiagram
