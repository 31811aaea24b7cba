import SchemaDiagram.Proofs.Changes
import SchemaDiagram.Proofs.ColumnReadings

/-!
The forms of an update. Values for some fields of a column may be given under the wire spellings of the
fields, under their plain spellings, or as a column that was read of them, of which only the given fields
count. A column that is read of any form has the same given fields, so all forms do the same to a diagram:
the given fields are those of the column that was read, the others stay.
-/

set_option autoImplicit false

namespace SchemaDiagram

open Record (decode write)

namespace Diagram

/-- Members that bring values to a column: each of them is of a field that is given, under its plain
    spelling. -/
structure Brings (g : ColumnValues) (c : NodeColumn) (members : List (String × Json)) : Prop where
  plain : ∀ m ∈ members, ∃ f ∈ columnFields, m.1 = f.plain
  once : (members.map fun m => m.1).Nodup
  read : Record.read .value members = .ok c
  given : ∀ f ∈ columnFields, (f.find? members).isSome = g.gives f

/-- A form in which values are handed over that are read as a column: an object with its keys, and those
    of a foreign key, in either spelling, or the column that was read of such an object. -/
inductive Presents (g : ColumnValues) (c : NodeColumn) : Json → Prop where
  | keys (outer inner : Form) : Presents g c (g.spelled outer inner)
  | column (outer inner : Form) : Presents g c (Record.given (g.spelled outer inner) c)

variable {g : ColumnValues} {c : NodeColumn} {outer inner : Form} {members : List (String × Json)}

theorem plainKey_key (form : Form) {f : Field} (hf : f ∈ columnFields) :
    plainKey (form.key f) = f.plain := by
  have both : ∀ f ∈ columnFields, plainKey f.wire = f.plain ∧ plainKey f.plain = f.plain := by decide
  cases form with
  | wire => exact (both f hf).1
  | full => exact (both f hf).2

theorem updateMembers_of_keys {renamed : List (String × Json)}
    (same : members.map (fun m => (plainKey m.1, m.2)) = renamed)
    (once : (renamed.map fun m => m.1).Nodup) : updateMembers (.obj members) = .ok renamed := by
  have merged : Json.merge [] renamed = [] ++ renamed := Json.merge_append once
  change Except.ok (Json.merge [] (members.map fun m => (plainKey m.1, m.2))) = _
  rw [same, merged]
  rfl

theorem ColumnValues.separate (g : ColumnValues) (inner : Form) :
    Field.Separate ((g.values inner).map fun p => p.1) := by
  unfold ColumnValues.values
  rw [List.map_map]
  exact Field.separate_given g apart_columnFields

theorem ColumnValues.isSome_find? (outer inner : Form) {f : Field} (hf : f ∈ columnFields) :
    (f.find? (spelledMembers outer (g.values inner))).isSome = g.gives f := by
  unfold ColumnValues.gives
  by_cases given : f ∈ g.entries.map fun p => p.1
  · rw [decide_eq_true given]
    obtain ⟨⟨f, e⟩, he, rfl⟩ := List.mem_map.mp given
    rw [Field.find?_spelledMembers (g.separate inner) (List.mem_map.mpr ⟨_, he, rfl⟩)]
    rfl
  · rw [decide_eq_false given, Field.find?_spelledMembers_of_absent fun p hp => ?_]
    · rfl
    · obtain ⟨q, hq, rfl⟩ := List.mem_map.mp hp
      refine apart_columnFields f hf q.1 (g.known q hq) ?_
      rintro rfl
      exact given (List.mem_map_of_mem hq)

theorem brings_spelled (read : Record.read .value (spelledMembers .full (g.values inner)) = .ok c) :
    Brings g c (spelledMembers .full (g.values inner)) where
  plain := by
    intro m hm
    obtain ⟨p, hp, rfl⟩ := List.mem_map.mp hm
    obtain ⟨q, hq, rfl⟩ := List.mem_map.mp hp
    exact ⟨q.1, g.known q hq, rfl⟩
  once := Field.keys_spelledMembers (g.separate inner)
  read := read
  given _ hf := ColumnValues.isSome_find? .full inner hf

theorem brings_given (accepted : decode .value (g.spelled outer inner) = .ok c) :
    Brings g c (Shape.givenFields NodeColumn.shapes (spelledMembers outer (g.values inner))
      (fullMembers c.fields)) where
  plain := by
    intro m hm
    obtain ⟨p, hp, same⟩ := List.mem_map.mp (Shape.keys_givenFields.subset (List.mem_map_of_mem hm))
    exact ⟨p.1, List.mem_map_of_mem hp, same.symm⟩
  once := by
    have plains : (NodeColumn.shapes.map fun p => p.1.plain).Nodup := by decide
    exact plains.sublist Shape.keys_givenFields
  read := NodeColumn.read_given accepted
  given f hf := by
    obtain ⟨p, hp, rfl⟩ : ∃ p ∈ NodeColumn.shapes, p.1 = f := List.mem_map.mp hf
    have written : (Json.lookup p.1.plain (fullMembers c.fields)).isSome = true := by
      simp only [NodeColumn.shapes, List.mem_cons, List.not_mem_nil, or_false] at hp
      rcases hp with rfl | rfl | rfl | rfl | rfl | rfl | rfl | rfl <;> rfl
    rw [Shape.isSome_find?_givenFields NodeColumn.separate_shapes hp written]
    exact ColumnValues.isSome_find? outer inner hf

theorem Presents.brings {update : Json} (presents : Presents g c update)
    (accepted : decode .value (g.spelled outer inner) = .ok c) :
    ∃ members, updateMembers update = .ok members ∧ Brings g c members := by
  cases presents with
  | keys outer' inner' =>
    refine ⟨_, updateMembers_of_keys ?_ (Field.keys_spelledMembers (g.separate inner')),
      brings_spelled (ColumnValues.read_spelled accepted)⟩
    unfold spelledMembers
    rw [List.map_map]
    refine List.map_congr_left fun p hp => ?_
    obtain ⟨q, hq, rfl⟩ := List.mem_map.mp hp
    exact Prod.ext (plainKey_key outer' (g.known q hq)) rfl
  | column outer' inner' =>
    have read : decode .value (g.spelled outer' inner') = .ok c := ColumnValues.read_spelled accepted
    have brings := brings_given read
    refine ⟨_, ?_, brings⟩
    unfold ColumnValues.spelled
    rw [NodeColumn.given_eq]
    refine updateMembers_of_keys ?_ brings.once
    refine (List.map_congr_left fun m hm => ?_).trans (List.map_id _)
    obtain ⟨f, hf, same⟩ := brings.plain m hm
    exact Prod.ext (same ▸ plainKey_key .full hf) rfl

theorem Brings.merged {values : List (String × Json)} {base : NodeColumn} (h : Brings g c members)
    (plain : ∀ m ∈ values, ∃ f ∈ columnFields, m.1 = f.plain)
    (before : Record.read .value values = .ok base) :
    Record.read .value (Json.merge values members) = .ok (c.laidOver g.gives base) := by
  have wires : ∀ f ∈ columnFields, ∀ f' ∈ columnFields, f.wire = f'.plain → f.wire = f.plain := by
    decide
  have apart {f : Field} (hf : f ∈ columnFields) : f.wire = f.plain ∨
      f.wire ∉ members.map (fun m => m.1) ∧ f.wire ∉ values.map fun m => m.1 := by
    have absent {ms : List (String × Json)} (plain : ∀ m ∈ ms, ∃ f ∈ columnFields, m.1 = f.plain)
        (other : f.wire ≠ f.plain) : f.wire ∉ ms.map fun m => m.1 := by
      intro given
      obtain ⟨m, hm, same⟩ := List.mem_map.mp given
      obtain ⟨f', hf', key⟩ := plain m hm
      exact other (wires f hf f' hf' (same ▸ key))
    by_cases same : f.wire = f.plain
    · exact .inl same
    · exact .inr ⟨absent h.plain same, absent plain same⟩
  have field {f : Field} (hf : f ∈ columnFields) {α : Type} {read : Json → Decoded α} {default x y : α}
      (stored : f.optional default read members = .ok x)
      (kept : f.optional default read values = .ok y) :
      f.optional default read (Json.merge values members) = .ok (if g.gives f then x else y) := by
    rw [optional_merge h.once (apart hf) stored kept, h.given f hf]
  have new := NodeColumn.read_ok.mp h.read
  have old := NodeColumn.read_ok.mp before
  exact NodeColumn.read_ok.mpr {
    title := field (by decide) new.title old.title
    type := field (by decide) new.type old.type
    primaryKey := field (by decide) new.primaryKey old.primaryKey
    foreignKey := field (by decide) new.foreignKey old.foreignKey
    nullable := field (by decide) new.nullable old.nullable
    unique := field (by decide) new.unique old.unique
    defaultValue := field (by decide) new.defaultValue old.defaultValue
    autoIncrement := field (by decide) new.autoIncrement old.autoIncrement }

def plainColumn (title : String) : NodeColumn where
  title := title
  type := "varchar"
  primaryKey := some false
  nullable := some true
  unique := some false

def changeColumn (made : NodeColumn → NodeColumn) (id title : Json) (d : Diagram) :
    EStateM.Result Fault Diagram Unit :=
  match d.node? id with
  | none => .error (.noTable id) d
  | some n =>
    match requireColumn n title with
    | .error f => .error f d
    | .ok old => .ok () (retitle n.id old.title (made old).title (d.putData n.id
        { n.data with columns := replaceColumn old.title (made old) n.data.columns }))

def appendColumn (made : NodeColumn → NodeColumn) (id : Json) (d : Diagram) :
    EStateM.Result Fault Diagram String :=
  match d.node? id with
  | none => .error (.noTable id) d
  | some n =>
    let new := made (plainColumn (Naming.nextColumnName n.data.columns))
    .ok new.title (d.putData n.id { n.data with columns := n.data.columns ++ [new] })

theorem title_of_requireColumn {n : Node} {title : Json} {old : NodeColumn}
    (known : requireColumn n title = .ok old) : .str old.title = title := by
  unfold requireColumn at known
  split at known
  · rename_i found
    cases known
    exact of_decide_eq_true (List.find?_some found :)
  · cases known

theorem node?_putData_first {d : Diagram} {id : Json} {n : Node} {data : NodeData}
    (found : d.node? id = some n) :
    (d.putData n.id data).node? id = some { n with data := data } := by
  have kept : (fun m : Node => decide (.str m.id = id)) ∘
      (fun m : Node => if m.id = n.id then { m with data := data } else m) =
        fun m => decide (.str m.id = id) := by
    funext m
    dsimp only [Function.comp_apply]
    split <;> rfl
  change List.find? _ (d.nodes.map _) = _
  rw [List.find?_map, kept]
  change ((d.node? id).map _) = _
  rw [found]
  exact congrArg some (if_pos rfl)

section Replaced

variable {n : Node} {title : Json} {old u : NodeColumn}

theorem requireColumn_replaced (known : requireColumn n title = .ok old) (same : u.title = old.title) :
    requireColumn { n with data := { n.data with
      columns := replaceColumn old.title u n.data.columns } } title = .ok u := by
  have titled := title_of_requireColumn known
  have kept : (fun c : NodeColumn => decide (.str c.title = title)) ∘
      (fun c => if c.title = old.title then u else c) = fun c => decide (.str c.title = title) := by
    funext c
    dsimp only [Function.comp_apply]
    split
    · rw [same, ‹c.title = old.title›]
    · rfl
  unfold requireColumn at known ⊢
  dsimp only [replaceColumn]
  rw [List.find?_map, kept]
  split at known
  · rename_i found
    cases known
    rw [found, Option.map_some, if_pos rfl]
  · cases known

theorem replaceColumn_again (t : String) (cs : List NodeColumn) :
    replaceColumn t u (replaceColumn t u cs) = replaceColumn t u cs := by
  unfold replaceColumn
  rw [List.map_map]
  refine List.map_congr_left fun c _ => ?_
  by_cases same : c.title = t <;> simp [same]

end Replaced

section Made

variable {update : Json} {made : NodeColumn → NodeColumn} {d : Diagram} {id : Json}

theorem run_requireNode_none (absent : d.node? id = none) :
    (requireNode id).run d = .error (.noTable id) d := by
  rw [requireNode, EStateM.run_bind, show (get : Change Diagram).run d = .ok d d from rfl]
  dsimp only
  rw [absent]
  rfl

theorem run_requireNode_some {n : Node} (found : d.node? id = some n) :
    (requireNode id).run d = .ok n d :=
  requireNode_ok.mpr ⟨found, rfl⟩

theorem run_updateColumn
    (merged : ∀ old, mergeColumn (membersOf (write .full old)) update = .ok (made old)) (title : Json) :
    (updateColumn id title update).run d = changeColumn made id title d := by
  unfold changeColumn
  cases found : d.node? id with
  | none =>
    unfold updateColumn
    rw [EStateM.run_bind, run_requireNode_none found]
  | some n =>
    dsimp only
    cases known : requireColumn n title with
    | error f =>
      unfold updateColumn
      rw [EStateM.run_bind, run_requireNode_some found]
      dsimp only
      rw [known]
      rfl
    | ok old => exact updateColumn_ok.mpr ⟨n, old, made old, found, known, merged old, rfl⟩

theorem run_addColumn
    (merged : ∀ columns, newColumn columns update =
      .ok (made (plainColumn (Naming.nextColumnName columns)))) :
    (addColumn id update).run d = appendColumn made id d := by
  unfold appendColumn
  cases found : d.node? id with
  | none =>
    unfold addColumn
    rw [EStateM.run_bind, run_requireNode_none found]
  | some n => exact addColumn_ok.mpr ⟨n, _, found, merged _, rfl, rfl⟩

/-- A change that leaves the title and makes the same of its own result does nothing the second time. -/
theorem changeColumn_again {title : Json}
    (titled : ∀ old : NodeColumn, .str old.title = title → (made old).title = old.title)
    (again : ∀ old, made (made old) = made old) {u : Unit} {d' : Diagram}
    (first : changeColumn made id title d = .ok u d') :
    changeColumn made id title d' = .ok u d' := by
  unfold changeColumn at first
  split at first
  · cases first
  rename_i n found
  split at first
  · cases first
  rename_i old known
  have same : (made old).title = old.title := titled old (title_of_requireColumn known)
  have kept (d : Diagram) : retitle n.id old.title (made old).title d = d := if_neg (not_not.mpr same)
  rw [kept] at first
  cases first
  unfold changeColumn
  rw [node?_putData_first found]
  dsimp only
  rw [requireColumn_replaced known same]
  dsimp only
  rw [again, same, replaceColumn_again, putData_putData]
  exact congrArg (EStateM.Result.ok ()) (if_neg (not_not.mpr rfl))

end Made

section Presented

variable {update : Json} (accepted : decode .value (g.spelled outer inner) = .ok c)
  (presents : Presents g c update)

include accepted presents

theorem mergeColumn_presented (base : NodeColumn) :
    mergeColumn (membersOf (write .full base)) update = .ok (c.laidOver g.gives base) := by
  obtain ⟨members, hm, brings⟩ := presents.brings accepted
  refine mergeColumn_ok.mpr ⟨members, hm, brings.merged (fun m hm => ?_) (base.read_full .value)⟩
  obtain ⟨p, hp, rfl⟩ := List.mem_map.mp hm
  exact ⟨p.1, List.mem_map_of_mem hp, rfl⟩

theorem newColumn_presented (columns : List NodeColumn) :
    newColumn columns update =
      .ok (c.laidOver g.gives (plainColumn (Naming.nextColumnName columns))) := by
  obtain ⟨members, hm, brings⟩ := presents.brings accepted
  have merged : mergeColumn (columnDefaults (Naming.nextColumnName columns)) update =
      .ok (c.laidOver g.gives (plainColumn (Naming.nextColumnName columns))) := by
    have keys : ∀ k ∈ (columnDefaults (Naming.nextColumnName columns)).map (fun m => m.1),
        ∃ f ∈ columnFields, k = f.plain := by
      change ∀ k ∈ ["title", "type", "primary_key", "nullable", "unique"],
        ∃ f ∈ columnFields, k = f.plain
      decide
    exact mergeColumn_ok.mpr ⟨members, hm,
      brings.merged (fun m hm => keys m.1 (List.mem_map_of_mem hm)) rfl⟩
  cases update with
  | null => cases hm
  | bool _ | int _ | float _ | str _ | arr _ | obj _ => exact merged

end Presented

/-- All forms of an update do the same. Values that are accepted in one spelling are accepted in every
    other, and a column that is read of them. In each form they put the given fields in the place of
    those that the column has, or that a new column has by default, and keep the others; with the same
    errors if there is no such table or column. An update that leaves the title does nothing the second
    time. -/
theorem update_forms_agree (g : ColumnValues) (c : NodeColumn) (outer inner : Form)
    (accepted : decode .value (g.spelled outer inner) = .ok c) {first second : Json}
    (one : Presents g c first) (other : Presents g c second) (d : Diagram) (id : Json) :
    (∀ outer inner, decode .value (g.spelled outer inner) = .ok c) ∧
      (addColumn id first).run d = (addColumn id second).run d ∧
      (addColumn id first).run d = appendColumn (c.laidOver g.gives) id d ∧
      ∀ title,
        (updateColumn id title first).run d = (updateColumn id title second).run d ∧
        (updateColumn id title first).run d = changeColumn (c.laidOver g.gives) id title d ∧
        ((g.gives (Field.word "title") = true → .str c.title = title) →
          (updateColumn id title first >>= fun _ => updateColumn id title second).run d =
            (updateColumn id title first).run d) := by
  have added {update : Json} (presents : Presents g c update) :
      (addColumn id update).run d = appendColumn (c.laidOver g.gives) id d :=
    run_addColumn (newColumn_presented accepted presents)
  have updated {update : Json} (presents : Presents g c update) (title : Json) (d : Diagram) :
      (updateColumn id title update).run d = changeColumn (c.laidOver g.gives) id title d :=
    run_updateColumn (mergeColumn_presented accepted presents) title
  refine ⟨fun _ _ => ColumnValues.read_spelled accepted, (added one).trans (added other).symm,
    added one, fun title => ⟨(updated one title d).trans (updated other title d).symm,
      updated one title d, fun same => ?_⟩⟩
  have titled (old : NodeColumn) (h : .str old.title = title) :
      (c.laidOver g.gives old).title = old.title := by
    unfold NodeColumn.laidOver
    dsimp only
    split
    · exact Json.str.inj ((same ‹_›).trans h.symm)
    · rfl
  rw [EStateM.run_bind]
  cases first' : (updateColumn id title first).run d with
  | error f d' => rfl
  | ok u d' =>
    dsimp only
    rw [updated other]
    rw [updated one] at first'
    exact changeColumn_again titled (c.laidOver_laidOver g.gives) first'

/-- A foreign key in the plain spelling inside an update in the wire spelling, a flag that is given as a
    word and a default that is taken away: the column that is read of it, handed over instead, does the
    same. -/
theorem update_forms_agree_nested :
    let key : Given ForeignKey.fields Json :=
      ⟨[(ForeignKey.onDeleteField, .str "CASCADE"), (Field.word "table", .str "users"),
        (Field.word "column", .str "id")], by decide, by decide⟩
    let g : ColumnValues :=
      ⟨[(Column.primaryKeyField, .value (.str "yes")), (Column.foreignKeyField, .key key),
        (Column.defaultValueField, .value .null)], by decide, by decide⟩
    let c : NodeColumn := {
      primaryKey := some true
      foreignKey := some { table := "users", column := "id", onDelete := some .cascade } }
    let old : NodeColumn := { title := "user", type := "int", defaultValue := some (.int 7) }
    let d : Diagram := { nodes := [{ id := "t", data := { columns := [old] } }] }
    decode .value (g.spelled .wire .full) = .ok c ∧
      (updateColumn (.str "t") (.str "user") (g.spelled .wire .full) >>= fun _ =>
          updateColumn (.str "t") (.str "user") (Record.given (g.spelled .full .wire) c)).run d =
        changeColumn (c.laidOver g.gives) (.str "t") (.str "user") d ∧
      c.laidOver g.gives old = { c with title := "user", type := "int" } := by
  intro key g c old d
  have accepted : decode .value (g.spelled .wire .full) = .ok c := by rfl
  obtain ⟨-, -, -, updates⟩ := update_forms_agree g c .wire .full accepted (.keys .wire .full)
    (.column .full .wire) d (.str "t")
  obtain ⟨-, updated, again⟩ := updates (.str "user")
  exact ⟨accepted, (again (by decide)).trans updated, by decide⟩

end Diagram

end SchemaDiagram
