import SchemaDiagram.Proofs.EditAtomic
import SchemaDiagram.Proofs.Unplaced
import SchemaDiagram.Session.Action

/-!
Runs of edits, moves, reverts and selections. The invariant covers the rollback buffer as well as
the diagram, because a revert may come at any moment. Every schema that is handed on is that of the
diagram right after the edit that hands it on.
-/

set_option autoImplicit false

namespace SchemaDiagram

/-- What is done to a session while it is edited. -/
inductive Gesture where
  | edit (e : Edit)
  | moveTable (id position : Json)
  | revert
  | select (node : Json)
  | clearSelection
  deriving DecidableEq

namespace EditHost

variable {S : Type}

def act (h : EditHost S) (grid : Grid) (a : Action) (s : S) : S × Result Json :=
  (h.putSession (a.perform grid (h.session s)).1 s, (a.perform grid (h.session s)).2)

def perform (h : EditHost S) (grid : Grid) (g : Gesture) (s : S) : S × Result Json :=
  match g with
  | .edit e => h.run grid e s
  | .moveTable id position => h.act grid (.moveTable id position) s
  | .revert => h.act grid .revert s
  | .select node => h.act grid (.select node) s
  | .clearSelection => h.act grid .clearSelection s

def performAll (h : EditHost S) (grid : Grid) (gestures : List Gesture) (s : S) : S :=
  gestures.foldl (fun s g => (h.perform grid g s).1) s

end EditHost

structure Moment (S : Type) where
  gesture : Gesture
  before : S
  after : S

namespace EditHost

variable {S : Type}

def moments (h : EditHost S) (grid : Grid) : List Gesture → S → List (Moment S)
  | [], _ => []
  | g :: rest, s =>
    let after := (h.perform grid g s).1
    ⟨g, s, after⟩ :: moments h grid rest after

def Commits (h : EditHost S) (grid : Grid) (m : Moment S) : Prop :=
  match m.gesture with
  | .edit e => ¬ h.Uncommitted grid e m.before
  | _ => False

instance (h : EditHost S) (grid : Grid) : DecidablePred (h.Commits grid) := fun m =>
  match m with
  | ⟨.edit e, before, _⟩ => inferInstanceAs (Decidable ¬ h.Uncommitted grid e before)
  | ⟨.moveTable _ _, _, _⟩ => inferInstanceAs (Decidable False)
  | ⟨.revert, _, _⟩ => inferInstanceAs (Decidable False)
  | ⟨.select _, _, _⟩ => inferInstanceAs (Decidable False)
  | ⟨.clearSelection, _, _⟩ => inferInstanceAs (Decidable False)

/-- Handing a schema on leaves the canvas alone. -/
structure KeepsCanvas (h : EditHost S) : Prop extends h.Lawful where
  canvas_commit : ∀ schema s, (h.session (h.commit schema s).1).canvas = (h.session s).canvas

end EditHost

/-- The diagram is accepted, and so is the one that a revert would put in its place. -/
structure Canvas.Sound (c : Canvas) : Prop where
  diagram : c.diagram.Accepted
  previous : ∀ d, c.previous = some d → d.Accepted

namespace Canvas.Sound

variable {c : Canvas}

theorem save (sound : c.Sound) : c.save.Sound where
  diagram := sound.diagram
  previous d hd := by
    cases hd
    exact sound.diagram

theorem revert (sound : c.Sound) : c.revert.Sound := by
  unfold Canvas.revert
  cases hp : c.previous with
  | none => exact sound
  | some d => exact ⟨sound.previous d hp, fun u hu => sound.previous u (hp ▸ hu)⟩

theorem withDiagram (sound : c.Sound) {d : Diagram} (hd : d.Accepted) :
    Canvas.Sound { c with diagram := d } := ⟨hd, sound.previous⟩

end Canvas.Sound

namespace Diagram

theorem mapNode_unplaced (d : Diagram) (id : String) (p : Position) :
    (d.mapNode id fun n => { n with position := p }).unplaced = d.unplaced := by
  unfold mapNode unplaced
  simp only [List.map_map, Diagram.mk.injEq, and_true]
  refine List.map_congr_left fun n _ => ?_
  change (if n.id = id then { n with position := p } else n).unplaced = n.unplaced
  split <;> rfl

theorem moveTable_unplaced (id position : Json) (d : Diagram) :
    match (moveTable id position).run d with
    | .ok _ d' | .error _ d' => d'.unplaced = d.unplaced := by
  cases hm : (moveTable id position).run d with
  | error f d' =>
    change d'.unplaced = d.unplaced
    rw [moveTable_clean id position d f d' hm]
  | ok _ d' =>
    change d'.unplaced = d.unplaced
    obtain ⟨moved, u, hr, hm⟩ := Change.run_bind_ok hm
    obtain ⟨p, v, hp, hm⟩ := Change.run_bind_ok hm
    have hu : u = d := (reads_requireNode id d).1 moved u hr
    have hv : v = u := (Change.reads_lift _ u).1 p v hp
    cases hm
    rw [hv, hu]
    exact mapNode_unplaced d moved.id p

end Diagram

namespace EditHost

variable {S : Type} {h : EditHost S} {grid : Grid} {s : S}

theorem session_act (lawful : h.Lawful) (a : Action) :
    h.session (h.act grid a s).1 = (a.perform grid (h.session s)).1 := lawful.session_put _ _

theorem canvas_settle (lawful : h.Lawful) (e : Edit) (s : S) :
    (h.session (h.settle e s)).canvas = (h.session s).canvas := by
  unfold settle
  split
  · rw [lawful.session_put, Session.canvas_deselect]
  · rfl

theorem canvas_of_passed (keeps : h.KeepsCanvas) {e : Edit} {t : Session} {schema : Schema}
    {id : Option String} (ha : (h.session s).attempt grid e = (t, .passed schema id)) :
    (h.session (h.run grid e s).1).canvas = t.canvas := by
  have hc : (h.session (h.commit schema (h.commitState e t schema s)).1).canvas = t.canvas := by
    calc
      (h.session (h.commit schema (h.commitState e t schema s)).1).canvas
          = (h.session (h.commitState e t schema s)).canvas := keeps.canvas_commit _ _
      _ = (h.session (h.putVerdict schema.check (h.putSession t s))).canvas := by
          rw [commitState, keeps.session_log]
      _ = (h.session (h.putSession t s)).canvas := by rw [keeps.session_verdict]
      _ = t.canvas := by rw [keeps.session_put]
  rw [run_passed ha]
  rcases hx : h.commit schema (h.commitState e t schema s) with ⟨s', f⟩
  rw [hx] at hc
  cases f with
  | some f => exact hc
  | none => exact (canvas_settle keeps.toLawful e s').trans hc

theorem run_sound (keeps : h.KeepsCanvas) (e : Edit) (sound : (h.session s).canvas.Sound) :
    (h.session (h.run grid e s).1).canvas.Sound := by
  by_cases hp : ((h.session s).attempt grid e).2.schema? = none
  · -- the diagram is as before, but it has taken the place of the one in the buffer
    rw [session_of_unpassed keeps.toLawful hp]
    exact sound.save
  · obtain ⟨schema, hp⟩ := Option.ne_none_iff_exists'.mp hp
    obtain ⟨d, id, -, hr, hv, ha⟩ := Session.passed_of_schema? hp
    rw [canvas_of_passed keeps ha]
    exact sound.save.withDiagram ⟨schema, hr, hv⟩

theorem perform_sound (keeps : h.KeepsCanvas) (grid : Grid) (g : Gesture)
    (sound : (h.session s).canvas.Sound) :
    (h.session (h.perform grid g s).1).canvas.Sound := by
  cases g with
  | edit e => exact run_sound keeps e sound
  | moveTable id position =>
    -- the check does not look at positions, which are all that a move changes
    have hm := Diagram.moveTable_unplaced id position (h.session s).diagram
    change (h.session (h.act grid (.moveTable id position) s).1).canvas.Sound
    rw [session_act keeps.toLawful]
    change (Action.carryOut _ _ _).1.canvas.Sound
    unfold Action.carryOut
    cases hr : (Diagram.moveTable id position).run (h.session s).diagram with
    | ok u d =>
      rw [hr] at hm
      exact sound.withDiagram (sound.diagram.of_unplaced hm)
    | error f d =>
      rw [hr] at hm
      exact sound.withDiagram (sound.diagram.of_unplaced hm)
  | revert =>
    change (h.session (h.act grid .revert s).1).canvas.Sound
    rw [session_act keeps.toLawful]
    exact sound.revert
  | select node =>
    change (h.session (h.act grid (.select node) s).1).canvas.Sound
    rw [session_act keeps.toLawful]
    exact sound
  | clearSelection =>
    change (h.session (h.act grid .clearSelection s).1).canvas.Sound
    rw [session_act keeps.toLawful]
    exact sound

def handed (h : EditHost S) (grid : Grid) (g : Gesture) (s : S) : List Schema :=
  match g with
  | .edit e => ((h.session s).attempt grid e).2.schema?.toList
  | _ => []

theorem perform_recording (h : EditHost S) (grid : Grid) (g : Gesture) (s : S)
    (calls : List Schema) :
    (h.recording.perform grid g (s, calls)).1 =
      ((h.perform grid g s).1, calls ++ h.handed grid g s) := by
  cases g with
  | edit e =>
    change (h.recording.run grid e (s, calls)).1 = _
    rw [run_recording]
    rfl
  | moveTable _ _ | revert | select _ | clearSelection =>
    change (h.putSession _ s, calls) = (h.putSession _ s, calls ++ [])
    rw [List.append_nil]
    rfl

theorem handed_eq (keeps : h.KeepsCanvas) (grid : Grid) (g : Gesture) (s : S) :
    (h.handed grid g s).map Except.ok =
      if h.Commits grid ⟨g, s, (h.perform grid g s).1⟩ then
        [(h.session (h.perform grid g s).1).diagram.reduce]
      else [] := by
  cases g with
  | edit e =>
    have hu : h.Uncommitted grid e s ↔ _ := uncommitted_iff
    change (((h.session s).attempt grid e).2.schema?.toList).map Except.ok =
      if ¬ h.Uncommitted grid e s then [(h.session (h.run grid e s).1).diagram.reduce] else []
    cases hp : ((h.session s).attempt grid e).2.schema? with
    | none =>
      rw [if_neg (not_not_intro (hu.mpr hp))]
      rfl
    | some schema =>
      obtain ⟨d, id, -, hr, -, ha⟩ := Session.passed_of_schema? hp
      have hd : (h.session (h.run grid e s).1).diagram = d :=
        congrArg Canvas.diagram (canvas_of_passed keeps ha)
      have committed : ¬ h.Uncommitted grid e s := fun un => nomatch (hu.mp un).symm.trans hp
      rw [if_pos committed, hd, hr]
      rfl
  | moveTable _ _ | revert | select _ | clearSelection =>
    exact (if_neg not_false).symm

theorem moments_sound (keeps : h.KeepsCanvas) (gestures : List Gesture)
    (sound : (h.session s).canvas.Sound) :
    ∀ m ∈ h.moments grid gestures s, (h.session m.after).canvas.Sound := by
  induction gestures generalizing s with
  | nil =>
    intro m hm
    cases hm
  | cons g rest ih =>
    have hg := perform_sound keeps grid g sound
    intro m hm
    rcases List.mem_cons.mp hm with rfl | hm
    · exact hg
    · exact ih hg m hm

theorem performAll_recording (keeps : h.KeepsCanvas) (gestures : List Gesture)
    (calls : List Schema) :
    (h.recording.performAll grid gestures (s, calls)).2.map Except.ok =
      calls.map Except.ok ++
        ((h.moments grid gestures s).filter (h.Commits grid)).map
          fun m => (h.session m.after).diagram.reduce := by
  induction gestures generalizing s calls with
  | nil => exact (List.append_nil _).symm
  | cons g rest ih =>
    have hs := perform_recording h grid g s calls
    have hg := handed_eq keeps grid g s
    change (h.recording.performAll grid rest (h.recording.perform grid g (s, calls)).1).2.map _ = _
    rw [hs, ih, List.map_append, hg, List.append_assoc]
    congr 1
    change _ = ((_ :: h.moments grid rest (h.perform grid g s).1).filter _).map _
    by_cases hc : h.Commits grid ⟨g, s, (h.perform grid g s).1⟩
    · rw [if_pos hc, List.filter_cons_of_pos (by simpa using hc)]
      rfl
    · rw [if_neg hc, List.filter_cons_of_neg (by simpa using hc)]
      rfl

/-- Edits, moves, reverts and selections in any order, and whatever becomes of them, keep the
    diagram accepted, and each edit that commits hands on the schema of the diagram right after
    it. -/
theorem accepted_throughout_run (keeps : h.KeepsCanvas)
    (accepted : (h.session s).diagram.Accepted) (empty : (h.session s).canvas.previous = none)
    (gestures : List Gesture) :
    (∀ m ∈ h.moments grid gestures s, (h.session m.after).diagram.Accepted) ∧
      (h.recording.performAll grid gestures (s, [])).2.map Except.ok =
        ((h.moments grid gestures s).filter (h.Commits grid)).map
          fun m => (h.session m.after).diagram.reduce := by
  have sound : (h.session s).canvas.Sound := ⟨accepted, fun d hd => nomatch empty ▸ hd⟩
  constructor
  · intro m hm
    exact (moments_sound keeps gestures sound m hm).diagram
  · exact performAll_recording keeps gestures []

end EditHost

namespace Desk

theorem host_keepsCanvas (handler : Note → Option Fault) : (host handler).KeepsCanvas :=
  ⟨host_lawful handler, fun _ _ => rfl⟩

theorem usersAndPosts_accepted : usersAndPosts.Accepted :=
  ⟨_, rfl, by decide⟩

def busyDay : List Gesture := [
  .edit (.renameTable (.str "a") (.str "accounts")),
  .moveTable (.str "a") (.obj [("x", .int 5), ("y", .int 7)]),
  .revert,
  .edit (.removeTable (.str "nowhere")),
  .select (.str "b"),
  .edit (.renameTable (.str "b") (.str " ")),
  .edit (.removeTable (.str "b")),
  .clearSelection]

theorem accepted_throughout_busyDay :
    let h := host fun _ => none
    let s : Desk := { session := Session.blank.withDiagram usersAndPosts }
    h.KeepsCanvas ∧ (h.session s).diagram.Accepted ∧ (h.session s).canvas.previous = none ∧
      (∀ m ∈ h.moments {} busyDay s, (h.session m.after).diagram.Accepted) ∧
      (h.recording.performAll {} busyDay (s, [])).2.length = 2 := by
  intro h s
  have keeps : h.KeepsCanvas := host_keepsCanvas _
  have accepted : (h.session s).diagram.Accepted := usersAndPosts_accepted
  have empty : (h.session s).canvas.previous = none := rfl
  obtain ⟨hm, hc⟩ := EditHost.accepted_throughout_run keeps accepted empty busyDay
  refine ⟨keeps, accepted, empty, hm, ?_⟩
  have hl := congrArg List.length hc
  rw [List.length_map, List.length_map] at hl
  rw [hl]
  decide +kernel

end Desk

end SchemaDiagram
