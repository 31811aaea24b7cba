import SchemaDiagram.Proofs.Replacement
import SchemaDiagram.Proofs.Selections

/-!
The selection in runs of a coordinator. Edits and moves keep all tables but those that are removed, an
answer or a record draws the diagram of its schema, and a load begins with a blank session. So a selection
dangles only if the schema that an input drew last has no such table, or if the removal of its table was
carried out by a call that failed.
-/

set_option autoImplicit false

namespace SchemaDiagram.Sync.Coordinator

open Diagram (ids_mapNode)

/-- The schema that is drawn with an incident: of an answer that is taken over, or of a record. -/
def Incident.Draws (schema : Schema) : Incident → Prop
  | drawn s => s = schema
  | heard .parsed payload m => ∃ d, Brings m payload schema d
  | heard .parseFailed _ _ | heard .schemaUpdated _ _ | requested _ _ | committed _ | loadStarted
  | brought _ => False

/-- After the drawing of this schema nothing has been drawn. -/
def DrawnLast (schema : Schema) (is : List Incident) : Prop :=
  ∃ earlier i later, is = earlier ++ i :: later ∧ i.Draws schema ∧ ∀ j ∈ later, ∀ s, ¬ j.Draws s

/-- With these incidents a session comes from one state to another: nothing is selected any more, or the
    same is selected as before, and the tables of the schema drawn last are there, or, if none was drawn,
    those that were there. -/
def Leaves (s : Session) (is : List Incident) (t : Session) : Prop :=
  t.selection.node = .null ∨ t.selection = s.selection ∧
    ((∃ schema, DrawnLast schema is ∧ schema.tables.map Table.id ⊆ t.diagram.ids) ∨
      (∀ i ∈ is, ∀ schema, ¬ i.Draws schema) ∧ s.diagram.ids ⊆ t.diagram.ids)

section Sessions

variable {s t u : Session} {is is' : List Incident}

theorem Leaves.trans (h : Leaves s is t) (h' : Leaves t is' u) : Leaves s (is ++ is') u := by
  rcases h' with none | ⟨same', drawn'⟩
  · exact .inl none
  rcases h with none | ⟨same, drawn⟩
  · exact .inl (same' ▸ none)
  refine .inr ⟨same'.trans same, ?_⟩
  rcases drawn' with ⟨schema, ⟨earlier, i, later, rfl, draws, rest⟩, shown⟩ | ⟨nothing, kept⟩
  · exact .inl ⟨schema, ⟨is ++ earlier, i, later, by simp, draws, rest⟩, shown⟩
  rcases drawn with ⟨schema, ⟨earlier, i, later, rfl, draws, rest⟩, shown⟩ | ⟨nothing', kept'⟩
  · refine .inl ⟨schema, ⟨earlier, i, later ++ is', by simp, draws, fun j among => ?_⟩,
      List.Subset.trans shown kept⟩
    exact (List.mem_append.mp among).elim (rest j) (nothing j)
  · refine .inr ⟨fun j among => ?_, List.Subset.trans kept' kept⟩
    exact (List.mem_append.mp among).elim (nothing' j) (nothing j)

theorem Leaves.kept (nothing : ∀ i ∈ is, ∀ schema, ¬ i.Draws schema)
    (selection : t.selection = s.selection) (ids : s.diagram.ids ⊆ t.diagram.ids) : Leaves s is t :=
  .inr ⟨selection, .inr ⟨nothing, ids⟩⟩

theorem Leaves.grown (selection : t.selection = s.selection) (ids : s.diagram.ids ⊆ t.diagram.ids) :
    Leaves s [] t := .kept (List.forall_mem_nil _) selection ids

theorem Leaves.calm (selection : t.selection = s.selection) (diagram : t.diagram = s.diagram) :
    Leaves s [] t := .grown selection (diagram ▸ List.Subset.refl _)

theorem Leaves.silent {i : Incident} (nothing : ∀ schema, ¬ i.Draws schema)
    (selection : t.selection = s.selection) (diagram : t.diagram = s.diagram) : Leaves s [i] t :=
  .kept (fun _ among => List.mem_singleton.mp among ▸ nothing) selection
    (diagram ▸ List.Subset.refl _)

theorem Leaves.draw {i : Incident} {schema : Schema} (draws : i.Draws schema)
    (selection : t.selection = s.selection) {grid : Grid} {places : Places}
    (projected : schema.project grid places = .ok t.diagram) : Leaves s [i] t := by
  refine .inr ⟨selection, .inl ⟨schema, ⟨[], i, [], rfl, draws, List.forall_mem_nil _⟩, ?_⟩⟩
  have depicts := Schema.depicts_of_nodesFrom (Schema.parts_of_project projected).1
  rw [← depicts.ids]
  exact List.Subset.refl _

def LeftOut (is : List Incident) (t : Session) : Prop :=
  ∃ id schema, t.selection.node = .str id ∧ DrawnLast schema is ∧ id ∉ schema.tables.map Table.id

theorem Leaves.points (h : Leaves s is t) (points : s.Points) : t.Points ∨ LeftOut is t := by
  rcases h with none | ⟨same, drawn⟩
  · exact .inl (.inl none)
  unfold Session.Points
  rw [same]
  rcases points with none | ⟨id, known, own⟩
  · exact .inl (.inl none)
  by_cases still : id ∈ t.diagram.ids
  · exact .inl (.inr ⟨id, still, own⟩)
  rcases drawn with ⟨schema, last, shown⟩ | ⟨-, kept⟩
  · exact .inr ⟨id, schema, same ▸ own, last, fun among => still (shown among)⟩
  · exact absurd (kept known) still

theorem Leaves.points_of_removal {id : String} (h : Leaves t is u)
    (selection : t.selection = s.selection) (others : ∀ x ∈ s.diagram.ids, x ≠ id → x ∈ t.diagram.ids)
    (points : s.Points) (apart : u.selection.node ≠ .str id) : u.Points ∨ LeftOut is u := by
  rcases h with none | ⟨same, drawn⟩
  · exact .inl (.inl none)
  refine Leaves.points (.inr ⟨same, drawn⟩) ?_
  unfold Session.Points
  rw [selection]
  refine points.imp_right fun ⟨x, known, own⟩ => ⟨x, others x known ?_, own⟩
  rintro rfl
  exact apart ((congrArg Selection.node (same.trans selection)).trans own)

end Sessions

section Talk

variable {m k n : Coordinator} {o : Operation} {t : TaskId} {p : Debounce.Point Point Wait}

theorem handle_leaves (kind : Inbound) (payload : Json) (m : Coordinator) :
    Leaves (session m) [.heard kind payload m] (session (handle kind payload m).1) := by
  cases kind with
  | parsed =>
    by_cases brought : ∃ schema d, Brings m payload schema d
    · obtain ⟨schema, d, brings⟩ := brought
      have adopted : session (handle .parsed payload m).1 = adopt (session m) schema d := brings.adopted.2
      rw [adopted]
      have draws : (Incident.heard .parsed payload m).Draws schema := ⟨d, brings⟩
      exact .draw draws rfl brings.drawn
    · obtain ⟨errors, status, same⟩ := session_of_not_brings brought
      have same : session (handle .parsed payload m).1 = _ := same
      rw [same]
      exact .silent (fun schema ⟨d, brings⟩ => brought ⟨schema, d, brings⟩) rfl rfl
  | parseFailed =>
    obtain ⟨errors, status, same⟩ := session_of_parseFailed payload m
    have same : session (handle .parseFailed payload m).1 = _ := same
    rw [same]
    exact .silent (fun _ => id) rfl rfl
  | schemaUpdated =>
    obtain ⟨errors, status, same⟩ := session_of_schemaUpdated payload m
    have same : session (handle .schemaUpdated payload m).1 = _ := same
    rw [same]
    exact .silent (fun _ => id) rfl rfl

theorem drawnIn_projected {grid : Grid} {members : List (String × Json)} {schema : Schema} {d : Diagram}
    (drawn : drawnIn grid members = .ok (schema, d)) :
    ∃ places, schema.project grid places = .ok d := by
  obtain ⟨s, -, drawn⟩ := Result.bind_ok drawn
  obtain ⟨stored, -, drawn⟩ := Result.bind_ok drawn
  obtain ⟨u, projected, drawn⟩ := Result.bind_ok drawn
  cases drawn
  exact ⟨_, projected⟩

theorem leaves_of_world (same : k.world = m.world) : Leaves (session m) [] (session k) := by
  have same : session k = session m := congrArg World.session same
  rw [same]
  exact .calm rfl rfl

theorem carries_selection : Carries fun m is k => Leaves (session m) is (session k) where
  trans := .trans
  unmoved := fun h => .calm (congrArg Session.selection h.session) (congrArg Session.diagram h.session)
  request := fun _ _ _ => .silent (fun _ => id) rfl rfl
  supersede := fun _ _ => .silent (fun _ => id) rfl rfl
  handle := fun _ => handle_leaves
  schedule := fun m _ _ => leaves_of_world (cancel_world m)
  spawn := fun _ _ _ => leaves_of_world rfl
  load := fun _ _ => .inl rfl
  entitle := fun id members m => by
    unfold entitled
    split <;> exact .silent (fun _ h => h) rfl rfl
  draw := fun members m drawn => by
    obtain ⟨places, projected⟩ := drawnIn_projected drawn
    exact .draw rfl rfl projected
  of_world := leaves_of_world

theorem Goes.leaves (h : Goes t m k) : Leaves (session m) [] (session k) := by
  cases h with
  | waits underway => exact .calm underway.selection underway.diagram
  | @ends n after result underway =>
    have ended := (leave_ended t after result n).session
    rw [ended]
    exact .calm underway.selection underway.diagram

theorem SaveTurn.leaves (h : SaveTurn t p m k) : Leaves (session m) [] (session k) := by
  cases h with
  | passes _ _ underway => exact .calm underway.selection underway.diagram
  | @begins n _ _ _ underway rest =>
    have begun : Leaves (session n) [] (session (beginning n)) := by
      rw [beginning_session]
      exact .calm rfl rfl
    exact (Leaves.calm underway.selection underway.diagram).trans (begun.trans rest.leaves)
  | goesOn _ rest => exact rest.leaves

theorem moveTable_leaves (id position : Json) (m : Coordinator) :
    Leaves (session m) [] (session (moveTable id position m).1) := by
  unfold moveTable
  cases run : (Diagram.moveTable id position).run (session m).diagram with
  | error f d => exact .calm rfl (Diagram.moveTable_clean id position _ f d run)
  | ok _ d =>
    obtain ⟨n, p, -, -, rfl⟩ := Diagram.moveTable_ok.mp run
    have ids : ((session m).diagram.mapNode n.id fun u => { u with position := p }).ids =
        (session m).diagram.ids := ids_mapNode fun _ => rfl
    have moved : Leaves (session m) [] (session (mapSession m (·.withDiagram
        ((session m).diagram.mapNode n.id fun u => { u with position := p })))) :=
      .grown rfl (ids.symm ▸ List.Subset.refl _)
    exact moved.trans (leaves_of_world (cancel_world _))

theorem uncommitted_leaves {e : Edit} (unpassed : committed m (.edit e) = none) :
    Leaves (session m) (whileEdited e m) (session (edit e m).1) := by
  have same : session (edit e m).1 = (session m).saved :=
    EditHost.session_of_unpassed editHost_lawful unpassed
  have nothing : whileEdited e m = [] := by
    change ((session m).attempt m.world.settings.grid e).2.schema? = none at unpassed
    unfold whileEdited
    rcases ha : (session m).attempt m.world.settings.grid e with ⟨s, a⟩
    rw [ha] at unpassed
    cases a with
    | passed schema id => cases unpassed
    | failed f | rolledBack v => rfl
  rw [same, nothing]
  exact .calm rfl rfl

/-- The change of an edit that commits is put into the session, then the edit is told of; if that does not
    fail, it is settled. -/
theorem committed_leaves {e : Edit} {schema : Schema} (passed : committed m (.edit e) = some schema) :
    ∃ d id n, (e.apply m.world.settings.grid).run (session m).diagram = .ok id d ∧
      Leaves ((session m).saved.withDiagram d) (whileEdited e m) (session n) ∧
      ((edit e m).1 = n ∧ (∃ f, (edit e m).2 = .error f) ∨ (edit e m).1 = editHost.settle e n) := by
  have hs : editHost.session m = session m := rfl
  change ((session m).attempt m.world.settings.grid e).2.schema? = some schema at passed
  obtain ⟨d, id, run, -, -, ha⟩ := Session.passed_of_schema? passed
  have made : edit e m = _ := EditHost.run_passed (t := (session m).saved.withDiagram d) (hs ▸ ha)
  have told : whileEdited e m = whileCommitted schema
      (editHost.commitState e ((session m).saved.withDiagram d) schema m) := by
    unfold whileEdited
    rw [ha]
  have put : session (editHost.commitState e ((session m).saved.withDiagram d) schema m) =
      (session m).saved.withDiagram d := rfl
  rw [made, told]
  generalize editHost.commitState e ((session m).saved.withDiagram d) schema m = c at put ⊢
  have told : Leaves (session c) (whileCommitted schema c) (session (editHost.commit schema c).1) :=
    carries_selection.commit trivial trivial c
  rw [put] at told
  rcases hk : editHost.commit schema c with ⟨n, f⟩
  rw [hk] at told
  refine ⟨d, id, n, run, told, ?_⟩
  cases f with
  | some f => exact .inl ⟨rfl, f, rfl⟩
  | none => exact .inr rfl

/-- An edit loses the selected table only if it removes it and its call fails after the change, or if an
    answer is drawn meanwhile. -/
theorem edit_points (e : Edit) (m : Coordinator) (points : (session m).Points) :
    (session (edit e m).1).Points ∨ LeftOut (whileEdited e m) (session (edit e m).1) ∨
      ∃ id, e = .removeTable (.str id) ∧ (session (edit e m).1).selection.node = .str id ∧
        (committed m (.edit e)).isSome = true ∧ ∃ f, (edit e m).2 = .error f := by
  cases passed : committed m (.edit e) with
  | none => exact ((uncommitted_leaves passed).points points).imp_right .inl
  | some schema =>
    obtain ⟨d, answer, n, run, told, ends⟩ := committed_leaves passed
    rcases Edit.ids_apply run with ⟨other, kept⟩ | ⟨id, rfl, removes⟩
    · have same : (edit e m).1 = n := by
        rcases ends with ⟨same, -⟩ | settled
        · exact same
        · rcases settle_cases e n with ⟨id, removes, -⟩ | ⟨-, still⟩
          · exact absurd removes (other id)
          · exact settled.trans still
      have put : Leaves (session m) [] ((session m).saved.withDiagram d) := .grown rfl kept
      rw [same]
      exact ((put.trans told).points points).imp_right .inl
    · have others : ∀ x ∈ (session m).diagram.ids, x ≠ id → x ∈ d.ids := Diagram.ids_removeTable removes
      rcases ends with ⟨same, failed⟩ | settled
      · rw [same]
        by_cases own : (session n).selection.node = .str id
        · exact .inr (.inr ⟨id, rfl, own, rfl, failed⟩)
        · exact (told.points_of_removal (s := session m) rfl others points own).imp_right .inl
      · have deselected : session (edit (.removeTable (.str id)) m).1 =
            (session n).deselect (.str id) := congrArg session settled
        rw [deselected]
        unfold Session.deselect
        split
        · exact .inl (.inl rfl)
        · rename_i own
          exact (told.points_of_removal (s := session m) rfl others points own).imp_right .inl

theorem perform_leaves (sound : Sound .idle m) (other : ∀ e, o ≠ .edit e) :
    Leaves (session m) (incidents m o) (session (perform m o)) := by
  cases o with
  | start => exact carries_selection.start m
  | parse text => exact carries_selection.parse trivial text m
  | deliver message => exact carries_selection.deliver trivial message m
  | setConnected up => exact carries_selection.setConnected up m
  | postpone members => exact carries_selection.postpone members trivial m
  | moveTable id position => exact moveTable_leaves id position m
  | edit e => exact absurd rfl (other e)
  | spawn _ | enter _ | turn | advance => exact carries_selection.works SaveTurn.leaves sound rfl

end Talk

inductive Input where
  | operation (o : Operation)
  | select (id : String)
  deriving DecidableEq

def selecting (id : String) (m : Coordinator) : Coordinator :=
  mapSession m fun s => { s with selection := .select (.str id) }

def take (m : Coordinator) : Input → Coordinator
  | .operation o => perform m o
  | .select id => selecting id m

def takeAll (inputs : List Input) (m : Coordinator) : Coordinator := inputs.foldl take m

/-- At the moment of its selection a table is there. -/
def Input.Known (m : Coordinator) : Input → Prop
  | operation _ => True
  | select id => id ∈ (session m).diagram.ids

instance (m : Coordinator) : (i : Input) → Decidable (i.Known m)
  | .operation _ => inferInstanceAs (Decidable True)
  | .select id => inferInstanceAs (Decidable (id ∈ (session m).diagram.ids))

def AllAlong (P : Coordinator → Input → Prop) : List Input → Coordinator → Prop
  | [], _ => True
  | i :: rest, m => P m i ∧ AllAlong P rest (take m i)

/-- With this operation the selection comes to dangle: the last schema that is drawn in it, of an answer or
    of a record, has no table with the id that is selected, or the operation removes that table, and its
    call fails after the change has been made. -/
def LosesSelected (m : Coordinator) : Input → Prop
  | .operation o => ∃ id, (session (perform m o)).selection.node = .str id ∧
      ((∃ schema, DrawnLast schema (incidents m o) ∧ id ∉ schema.tables.map Table.id) ∨
        o = .edit (.removeTable (.str id)) ∧ (committed m o).isSome = true ∧
          ∃ f, (edit (.removeTable (.str id)) m).2 = .error f)
  | .select _ => False

/-- From some input of a run on the selection dangles. -/
def DanglesSince (inputs : List Input) (m : Coordinator) : Prop :=
  ∃ earlier i later, inputs = earlier ++ i :: later ∧
    (session (takeAll earlier m)).Points ∧ LosesSelected (takeAll earlier m) i ∧
    ∀ rest, rest <+: later → ¬ (session (takeAll (earlier ++ i :: rest) m)).Points

section Runs

variable {m : Coordinator} {inputs : List Input} {i : Input}

theorem Sound.select (sound : Sound .idle m) (id : String) : Sound .idle (selecting id m) := by
  have told : Talk (fun _ => True) m (selecting id m) :=
    .told ⟨rfl, rfl, .silent rfl rfl rfl rfl rfl rfl⟩
  exact sound.talk told

theorem sound_take (sound : Sound .idle m) (i : Input) : Sound .idle (take m i) := by
  cases i with
  | operation o => exact sound.perform o
  | select id => exact sound.select id

theorem take_points (sound : Sound .idle m) (known : i.Known m) (points : (session m).Points) :
    (session (take m i)).Points ∨ LosesSelected m i := by
  cases i with
  | select id => exact .inl (.inr ⟨id, known, rfl⟩)
  | operation o =>
    have lost (out : LeftOut (incidents m o) (session (perform m o))) :
        LosesSelected m (.operation o) := by
      obtain ⟨id, schema, own, last, missing⟩ := out
      exact ⟨id, own, .inl ⟨schema, last, missing⟩⟩
    by_cases edits : ∃ e, o = .edit e
    · obtain ⟨e, rfl⟩ := edits
      rcases edit_points e m points with still | out | ⟨id, rfl, own, passed, failed⟩
      · exact .inl still
      · exact .inr (lost out)
      · exact .inr ⟨id, own, .inr ⟨rfl, passed, failed⟩⟩
    · exact ((perform_leaves sound fun e h => edits ⟨e, h⟩).points points).imp_right lost

theorem DanglesSince.cons (h : DanglesSince inputs (take m i)) : DanglesSince (i :: inputs) m := by
  obtain ⟨earlier, j, later, rfl, points, loses, since⟩ := h
  exact ⟨i :: earlier, j, later, rfl, points, loses, since⟩

theorem takeAll_points (sound : Sound .idle m) (known : AllAlong (fun k i => i.Known k) inputs m) :
    (session (takeAll inputs m)).Points ∨ DanglesSince inputs m ∨
      ∀ rest, rest <+: inputs → ¬ (session (takeAll rest m)).Points := by
  induction inputs generalizing m with
  | nil =>
    by_cases points : (session m).Points
    · exact .inl points
    · refine .inr (.inr fun rest first => ?_)
      obtain rfl := List.prefix_nil.mp first
      exact points
  | cons i inputs ih =>
    rcases ih (sound_take sound i) known.2 with last | since | never
    · exact .inl last
    · exact .inr (.inl since.cons)
    · by_cases points : (session m).Points
      · have loses := (take_points sound known.1 points).resolve_left (never [] List.nil_prefix)
        exact .inr (.inl ⟨[], i, inputs, rfl, points, loses, never⟩)
      · refine .inr (.inr fun rest first => ?_)
        rcases List.prefix_cons_iff.mp first with rfl | ⟨rest, rfl, further⟩
        · exact points
        · exact never rest further

end Runs

/-- When nothing is selected at first, and only tables that are there are selected, what is selected at
    the end of a run is a table of the diagram, unless since some input it dangles: the last schema that
    was drawn with that input, of an answer or of a record, has no such table, or the input removed the
    table and its call failed after the change. -/
theorem selection_points_or_dangles_since (settings : Settings) (delay : Float) (start : Session)
    (channel : Channel Inbound Unit) (notifier : Notifier Unit) (backend : Backend)
    (unselected : start.selection.node = .null) (inputs : List Input) :
    let m₀ := fresh settings delay start channel notifier backend
    AllAlong (fun k i => i.Known k) inputs m₀ →
      (session (takeAll inputs m₀)).Points ∨ DanglesSince inputs m₀ := by
  intro m₀ known
  have sound := sound_fresh settings delay start channel notifier backend
  have points : (session m₀).Points := .inl unselected
  rcases takeAll_points sound known with last | since | never
  · exact .inl last
  · exact .inr since
  · exact absurd points (never [] List.nil_prefix)

def replacing : List Input := [
  .operation .start,
  .select "old",
  .operation (.parse (.str "Table new")),
  .operation (.deliver (Channel.Event.parsed, .obj [("version", .int 1),
    ("ast", .obj [("tables", .arr [.obj [("id", .str "new"), ("name", .str "new")]])])]))]

def oneTable : Session := Session.withDiagram {} { nodes := [{ id := "old" }] }

/-- The answer that leaves out the selected table leaves the selection as it is. -/
theorem answer_leaves_selection :
    let m₀ := fresh {} 1.0 oneTable {} { capacity := 50 } {}
    let s := session (takeAll replacing m₀)
    oneTable.selection.node = .null ∧ AllAlong (fun k i => i.Known k) replacing m₀ ∧
      s.diagram.ids = ["new"] ∧ s.selection.node = .str "old" ∧ ¬ s.Points := by
  intro m₀ s
  have known : AllAlong (fun k i => i.Known k) replacing m₀ :=
    ⟨trivial, by decide +kernel, trivial, trivial, trivial⟩
  exact ⟨rfl, known, by decide +kernel, by decide +kernel, by decide +kernel⟩

/-- It dangles since the answer, as the table was there up to it. -/
theorem selection_dangles_since_answer :
    let m₀ := fresh {} 1.0 oneTable {} { capacity := 50 } {}
    oneTable.selection.node = .null ∧ DanglesSince replacing m₀ := by
  intro m₀
  have known : AllAlong (fun k i => i.Known k) replacing m₀ :=
    ⟨trivial, by decide +kernel, trivial, trivial, trivial⟩
  have dangles : ¬ (session (takeAll replacing m₀)).Points := by decide +kernel
  have since :=
    selection_points_or_dangles_since {} 1.0 oneTable {} { capacity := 50 } {} rfl replacing known
  exact ⟨rfl, since.resolve_left dangles⟩

end SchemaDiagram.Sync.Coordinator
