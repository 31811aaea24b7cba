import SchemaDiagram.Diagram.Edit

/-!
Changes of a diagram step by step. A change is clean when it can only fail while nothing has been
put in place. Looking up and reading arguments puts nothing in place, putting nodes and edges in
place never fails, and a change that does the first before the second is clean. All changes here
are.
-/

set_option autoImplicit false

namespace SchemaDiagram.Diagram.Change

variable {α β : Type}

def Reads (x : Change α) : Prop :=
  ∀ d, (∀ a d', x.run d = .ok a d' → d' = d) ∧ ∀ f d', x.run d = .error f d' → d' = d

def Total (x : Change α) : Prop := ∀ d, ∃ a d', x.run d = .ok a d'

def Clean (x : Change α) : Prop := ∀ d f d', x.run d = .error f d' → d' = d

theorem run_bind_ok {x : Change α} {k : α → Change β} {d d' : Diagram} {b : β}
    (h : (x >>= k).run d = .ok b d') :
    ∃ a u, x.run d = .ok a u ∧ (k a).run u = .ok b d' := by
  rw [EStateM.run_bind] at h
  cases hx : x.run d with
  | ok a u =>
    rw [hx] at h
    exact ⟨a, u, rfl, h⟩
  | error f u =>
    rw [hx] at h
    cases h

theorem run_bind_error {x : Change α} {k : α → Change β} {d d' : Diagram} {f : Fault}
    (h : (x >>= k).run d = .error f d') :
    x.run d = .error f d' ∨ ∃ a u, x.run d = .ok a u ∧ (k a).run u = .error f d' := by
  rw [EStateM.run_bind] at h
  cases hx : x.run d with
  | ok a u =>
    rw [hx] at h
    exact .inr ⟨a, u, rfl, h⟩
  | error g u =>
    rw [hx] at h
    cases h
    exact .inl rfl

theorem reads_get : Reads (get : Change Diagram) := by
  intro d
  constructor
  · intro a d' h
    cases h
    rfl
  · intro f d' h
    cases h

theorem reads_pure (a : α) : Reads (pure a : Change α) := by
  intro d
  constructor
  · intro b d' h
    cases h
    rfl
  · intro f d' h
    cases h

theorem reads_throw (f : Fault) : Reads (throw f : Change α) := by
  intro d
  constructor
  · intro a d' h
    cases h
  · intro g d' h
    cases h
    rfl

theorem reads_lift (r : Result α) : Reads (liftM r : Change α) := by
  cases r with
  | ok a => exact reads_pure a
  | error f => exact reads_throw f

theorem Reads.bind {x : Change α} {k : α → Change β} (hx : Reads x) (hk : ∀ a, Reads (k a)) :
    Reads (x >>= k) := by
  intro d
  constructor
  · intro b d' h
    obtain ⟨a, u, ha, hb⟩ := run_bind_ok h
    have hu : u = d := (hx d).1 a u ha
    subst hu
    exact (hk a u).1 b d' hb
  · intro f d' h
    rcases run_bind_error h with h | ⟨a, u, ha, hb⟩
    · exact (hx d).2 f d' h
    · have hu : u = d := (hx d).1 a u ha
      subst hu
      exact (hk a u).2 f d' hb

theorem total_pure (a : α) : Total (pure a : Change α) := fun d => ⟨a, d, rfl⟩

theorem total_modify (g : Diagram → Diagram) : Total (modify g : Change PUnit) :=
  fun d => ⟨.unit, g d, rfl⟩

theorem Total.bind {x : Change α} {k : α → Change β} (hx : Total x) (hk : ∀ a, Total (k a)) :
    Total (x >>= k) := by
  intro d
  obtain ⟨a, u, ha⟩ := hx d
  obtain ⟨b, v, hb⟩ := hk a u
  refine ⟨b, v, ?_⟩
  rw [EStateM.run_bind, ha]
  exact hb

theorem Total.clean {x : Change α} (hx : Total x) : Clean x := by
  intro d f d' h
  obtain ⟨a, u, ha⟩ := hx d
  rw [ha] at h
  cases h

theorem Reads.bind_clean {x : Change α} {k : α → Change β} (hx : Reads x)
    (hk : ∀ a, Clean (k a)) : Clean (x >>= k) := by
  intro d f d' h
  rcases run_bind_error h with h | ⟨a, u, ha, hb⟩
  · exact (hx d).2 f d' h
  · have hu : u = d := (hx d).1 a u ha
    subst hu
    exact hk a u f d' hb

theorem Clean.bind_total {x : Change α} {k : α → Change β} (hx : Clean x)
    (hk : ∀ a, Total (k a)) : Clean (x >>= k) := by
  intro d f d' h
  rcases run_bind_error h with h | ⟨a, u, ha, hb⟩
  · exact hx d f d' h
  · obtain ⟨b, v, hv⟩ := hk a u
    rw [hv] at hb
    cases hb

end SchemaDiagram.Diagram.Change

namespace SchemaDiagram.Diagram

open Change

theorem reads_requireNode (id : Json) : Reads (requireNode id) := by
  refine reads_get.bind fun d => ?_
  split
  · exact reads_pure _
  · exact reads_throw _

theorem reads_requireEdge (id : Json) : Reads (requireEdge id) := by
  refine reads_get.bind fun d => ?_
  split
  · exact reads_pure _
  · exact reads_throw _

theorem moveTable_clean (id position : Json) : Clean (moveTable id position) := by
  refine (reads_requireNode id).bind_clean fun moved => ?_
  refine (reads_lift _).bind_clean fun p => ?_
  exact (total_modify _).clean

theorem addTable_clean (grid : Grid) (position : Json) : Clean (addTable grid position) := by
  refine reads_get.bind_clean fun d => ?_
  refine (reads_lift _).bind_clean fun id => ?_
  refine (reads_lift _).bind_clean fun p => ?_
  refine (reads_lift _).bind_clean fun name => ?_
  exact ((total_modify _).bind fun _ => total_pure _).clean

theorem renameTable_clean (id name : Json) : Clean (renameTable id name) := by
  refine (reads_requireNode id).bind_clean fun n => ?_
  exact (total_modify _).clean

theorem removeTable_clean (id : Json) : Clean (removeTable id) := by
  refine (reads_requireNode id).bind_clean fun removed => ?_
  exact ((total_modify _).bind fun _ => total_modify _).clean

theorem addColumn_clean (id update : Json) : Clean (addColumn id update) := by
  refine (reads_requireNode id).bind_clean fun n => ?_
  refine (reads_lift _).bind_clean fun column => ?_
  exact ((total_modify _).bind fun _ => total_pure _).clean

theorem removeColumn_clean (id title : Json) : Clean (removeColumn id title) := by
  refine (reads_requireNode id).bind_clean fun n => ?_
  refine (reads_lift _).bind_clean fun removed => ?_
  exact ((total_modify _).bind fun _ => total_modify _).clean

theorem updateColumn_clean (id title update : Json) : Clean (updateColumn id title update) := by
  refine (reads_requireNode id).bind_clean fun n => ?_
  refine (reads_lift _).bind_clean fun current => ?_
  refine (reads_lift _).bind_clean fun updated => ?_
  -- the columns are in place from here on, and the handles of edges are still to follow
  refine ((total_modify _).bind fun _ => ?_).clean
  split
  · exact total_modify _
  · exact total_pure _

theorem addRelationship_clean (fromId fromColumn toId toColumn cardinality : Json) :
    Clean (addRelationship fromId fromColumn toId toColumn cardinality) := by
  refine (reads_requireNode fromId).bind_clean fun source => ?_
  refine (reads_requireNode toId).bind_clean fun goal => ?_
  refine (reads_lift _).bind_clean fun c => ?_
  refine reads_get.bind_clean fun d => ?_
  refine (reads_lift _).bind_clean fun id => ?_
  refine (reads_lift _).bind_clean fun target => ?_
  exact ((total_modify _).bind fun _ => total_pure _).clean

theorem removeRelationship_clean (id : Json) : Clean (removeRelationship id) := by
  refine (reads_requireEdge id).bind_clean fun removed => ?_
  exact (total_modify _).clean

theorem retypeRelationship_clean (id cardinality : Json) :
    Clean (retypeRelationship id cardinality) := by
  refine (reads_requireEdge id).bind_clean fun retyped => ?_
  refine (reads_lift _).bind_clean fun c => ?_
  exact (total_modify _).clean

end SchemaDiagram.Diagram
