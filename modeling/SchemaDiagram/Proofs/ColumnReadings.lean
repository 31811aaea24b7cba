import SchemaDiagram.Proofs.Spellings

/-!
Foreign keys and columns read of values for some of their fields. The same is read in every form: the
spelling of the fields, the spelling of the parts of a foreign key, and the full form as far as it was
given.
-/

set_option autoImplicit false

namespace SchemaDiagram

open Decode (bool nullable text)
open Decoded (map_eq seq_eq)
open Record (decode write)
open Returns (option optionDefault optionFlag)

def ForeignKey.fields : List Field :=
  [Field.word "table", Field.word "column", ForeignKey.onDeleteField, ForeignKey.onUpdateField]

namespace Diagram

/-- What is given for a field of a column. The parts of a foreign key may be given one by one, since
    they have spellings of their own. -/
inductive Entry where
  | value (v : Json)
  | key (parts : Given ForeignKey.fields Json)

def Entry.spelled (form : Form) : Entry → Json
  | value v => v
  | key parts => .obj (spelledMembers form parts.entries)

abbrev ColumnValues := Given columnFields Entry

namespace ColumnValues

def values (inner : Form) (g : ColumnValues) : List (Field × Json) :=
  g.entries.map fun p => (p.1, p.2.spelled inner)

def spelled (outer inner : Form) (g : ColumnValues) : Json :=
  .obj (spelledMembers outer (g.values inner))

def gives (g : ColumnValues) (f : Field) : Bool := decide (f ∈ g.entries.map fun p => p.1)

end ColumnValues

end Diagram

open ForeignKey in
theorem ForeignKey.read_follows {src : Source} {o o' : List (String × Json)} {k : ForeignKey}
    (first : Record.read src o = .ok k) (table : Follows (Field.word "table") text k.table o o')
    (column : Follows (Field.word "column") text k.column o o')
    (onDelete : Follows onDeleteField (nullable ReferentialAction.decode) k.onDelete o o')
    (onUpdate : Follows onUpdateField (nullable ReferentialAction.decode) k.onUpdate o o') :
    Record.read src o' = .ok k := by
  replace first := Decoded.seq_ok_inv first
  obtain ⟨_, _, first, fourth, rfl⟩ := first
  replace first := Decoded.seq_ok_inv first
  obtain ⟨_, _, first, third, rfl⟩ := first
  replace first := Decoded.seq_ok_inv first
  obtain ⟨_, _, first, second, rfl⟩ := first
  replace first := Decoded.map_ok_inv first
  obtain ⟨_, first, rfl⟩ := first
  exact seq_eq (seq_eq (seq_eq (map_eq _ (table.required first)) (column.required second))
    (onDelete.optional third)) (onUpdate.optional fourth)

namespace NodeColumn

open Column Diagram

structure ReadOf (src : Source) (o : List (String × Json)) (c : NodeColumn) : Prop where
  title : (Field.word "title").optional "" text o = .ok c.title
  type : (Field.word "type").optional "" text o = .ok c.type
  primaryKey : primaryKeyField.optional none (Decode.nullable Decode.bool) o = .ok c.primaryKey
  foreignKey : foreignKeyField.optional none (Decode.nullable (decode src)) o = .ok c.foreignKey
  nullable : (Field.word "nullable").optional none (Decode.nullable Decode.bool) o = .ok c.nullable
  unique : (Field.word "unique").optional none (Decode.nullable Decode.bool) o = .ok c.unique
  defaultValue :
    defaultValueField.optional none (Decode.nullable DefaultValue.decode) o = .ok c.defaultValue
  autoIncrement : autoIncrementField.optional none (Decode.nullable Decode.bool) o = .ok c.autoIncrement

theorem read_ok {src : Source} {o : List (String × Json)} {c : NodeColumn} :
    Record.read src o = .ok c ↔ ReadOf src o c := by
  constructor
  · intro h
    replace h := Decoded.seq_ok_inv h
    obtain ⟨_, _, h, autoIncrement, rfl⟩ := h
    replace h := Decoded.seq_ok_inv h
    obtain ⟨_, _, h, defaultValue, rfl⟩ := h
    replace h := Decoded.seq_ok_inv h
    obtain ⟨_, _, h, unique, rfl⟩ := h
    replace h := Decoded.seq_ok_inv h
    obtain ⟨_, _, h, nullable, rfl⟩ := h
    replace h := Decoded.seq_ok_inv h
    obtain ⟨_, _, h, foreignKey, rfl⟩ := h
    replace h := Decoded.seq_ok_inv h
    obtain ⟨_, _, h, primaryKey, rfl⟩ := h
    replace h := Decoded.seq_ok_inv h
    obtain ⟨_, _, h, type, rfl⟩ := h
    obtain ⟨_, title, rfl⟩ := Decoded.map_ok_inv h
    exact ⟨title, type, primaryKey, foreignKey, nullable, unique, defaultValue, autoIncrement⟩
  · intro h
    exact seq_eq (seq_eq (seq_eq (seq_eq (seq_eq (seq_eq (seq_eq (map_eq _ h.title) h.type)
      h.primaryKey) h.foreignKey) h.nullable) h.unique) h.defaultValue) h.autoIncrement

def laidOver (given : Field → Bool) (c base : NodeColumn) : NodeColumn where
  title := if given (Field.word "title") then c.title else base.title
  type := if given (Field.word "type") then c.type else base.type
  primaryKey := if given primaryKeyField then c.primaryKey else base.primaryKey
  foreignKey := if given foreignKeyField then c.foreignKey else base.foreignKey
  nullable := if given (Field.word "nullable") then c.nullable else base.nullable
  unique := if given (Field.word "unique") then c.unique else base.unique
  defaultValue := if given defaultValueField then c.defaultValue else base.defaultValue
  autoIncrement := if given autoIncrementField then c.autoIncrement else base.autoIncrement

theorem laidOver_laidOver (given : Field → Bool) (c base : NodeColumn) :
    c.laidOver given (c.laidOver given base) = c.laidOver given base := by
  unfold laidOver
  congr 1 <;> split <;> rfl

theorem ReadOf.follows {src : Source} {o o' : List (String × Json)} {c : NodeColumn}
    (h : ReadOf src o c) (title : Follows (Field.word "title") text c.title o o')
    (type : Follows (Field.word "type") text c.type o o')
    (primaryKey : Follows primaryKeyField (Decode.nullable Decode.bool) c.primaryKey o o')
    (foreignKey : Follows foreignKeyField (Decode.nullable (decode src)) c.foreignKey o o')
    (nullable : Follows (Field.word "nullable") (Decode.nullable Decode.bool) c.nullable o o')
    (unique : Follows (Field.word "unique") (Decode.nullable Decode.bool) c.unique o o')
    (defaultValue :
      Follows defaultValueField (Decode.nullable DefaultValue.decode) c.defaultValue o o')
    (autoIncrement :
      Follows autoIncrementField (Decode.nullable Decode.bool) c.autoIncrement o o') :
    ReadOf src o' c where
  title := title.optional h.title
  type := type.optional h.type
  primaryKey := primaryKey.optional h.primaryKey
  foreignKey := foreignKey.optional h.foreignKey
  nullable := nullable.optional h.nullable
  unique := unique.optional h.unique
  defaultValue := defaultValue.optional h.defaultValue
  autoIncrement := autoIncrement.optional h.autoIncrement

end NodeColumn

theorem ForeignKey.apart_fields :
    ∀ x ∈ ForeignKey.fields, ∀ y ∈ ForeignKey.fields, x ≠ y → x.Apart y ∧ x.plain ≠ y.plain := by
  decide

theorem ForeignKey.read_spelled {src : Source} {form form' : Form} {k : ForeignKey}
    (g : Given ForeignKey.fields Json)
    (first : Record.read src (spelledMembers form g.entries) = .ok k) :
    Record.read src (spelledMembers form' g.entries) = .ok k := by
  have same (f : Field) (hf : f ∈ ForeignKey.fields) {α : Type} (read : Json → Decoded α) (x : α) :
      Follows f read x (spelledMembers form g.entries) (spelledMembers form' g.entries) := by
    have spelled : Follows f read x (spelledMembers form (g.entries.map fun p => (p.1, id p.2)))
        (spelledMembers form' (g.entries.map fun p => (p.1, id p.2))) :=
      follows_spelled apart_fields hf fun _ h => h
    simpa using spelled
  exact read_follows first (same _ (by decide) ..) (same _ (by decide) ..) (same _ (by decide) ..)
    (same _ (by decide) ..)

theorem ForeignKey.decode_given {src : Source} {v : Json} {k : ForeignKey}
    (first : decode src v = .ok k) : decode src (Record.given v k) = .ok k := by
  obtain ⟨o, rfl, first⟩ := Record.decode_ok_inv first
  have action (a : ReferentialAction) :
      Json.str a.spelling ≠ .null ∧ ReferentialAction.decode (.str a.spelling) = .ok a :=
    ⟨nofun, a.decode_spelling⟩
  have separate : Field.Separate ForeignKey.fields := by decide
  have given : Record.given (.obj o) k = .obj (Shape.givenFields _ o _) := Shape.given_record ..
  rw [given]
  refine ForeignKey.read_follows first ?_ ?_ ?_ ?_
  · exact follows_leaf 0 separate rfl rfl rfl
  · exact follows_leaf 1 separate rfl rfl rfl
  · exact follows_leaf 2 separate rfl rfl (option action k.onDelete).nullable
  · exact follows_leaf 3 separate rfl rfl (option action k.onUpdate).nullable

theorem Decode.nullable_record {α : Type} [Record α] {src : Source} {v : Json} {a : α}
    (h : decode src v = .ok a) : nullable (decode src) v = .ok (some a) := by
  obtain ⟨o, rfl, -⟩ := Record.decode_ok_inv h
  exact map_eq some h

theorem ForeignKey.nullable_given {src : Source} {v : Json} {k : Option ForeignKey}
    (first : nullable (decode src) v = .ok k) :
    nullable (decode src) ((Record.shape ForeignKey).given v (.ofOption (write .full) k)) =
      .ok k := by
  rcases Decode.nullable_ok_inv first with ⟨rfl, rfl⟩ | ⟨k, read, rfl⟩
  · have null : (Record.shape ForeignKey).given .null .null = .null := Shape.given_null ..
    exact congrArg _ null
  · exact Decode.nullable_record (ForeignKey.decode_given read)

namespace Diagram

theorem apart_columnFields :
    ∀ x ∈ columnFields, ∀ y ∈ columnFields, x ≠ y → x.Apart y ∧ x.plain ≠ y.plain := by
  decide

theorem Entry.read_spelled {α : Type} {read : Json → Decoded α} {x : α} {inner inner' : Form}
    (scalar : ∀ members, read (.obj members) ≠ .ok x) (e : Entry)
    (first : read (e.spelled inner) = .ok x) : read (e.spelled inner') = .ok x := by
  cases e with
  | value v => exact first
  | key parts => exact absurd first (scalar _)

namespace ColumnValues

variable {g : ColumnValues} {c : NodeColumn} {outer inner : Form}

theorem read_spelled {outer' inner' : Form}
    (first : Record.read .value (spelledMembers outer (g.values inner)) = .ok c) :
    Record.read .value (spelledMembers outer' (g.values inner')) = .ok c := by
  have same {f : Field} (hf : f ∈ columnFields) {α : Type} {read : Json → Decoded α} {x : α}
      (scalar : ∀ members, read (.obj members) ≠ .ok x) :
      Follows f read x (spelledMembers outer (g.values inner))
        (spelledMembers outer' (g.values inner')) :=
    follows_spelled apart_columnFields hf (Entry.read_spelled scalar)
  have key : Follows Column.foreignKeyField (nullable (decode .value)) c.foreignKey
      (spelledMembers outer (g.values inner)) (spelledMembers outer' (g.values inner')) := by
    refine follows_spelled apart_columnFields (by decide) fun e h => ?_
    cases e with
    | value v => exact h
    | key parts =>
      obtain ⟨k, read, some⟩ := Decoded.map_ok_inv h
      rw [← some]
      exact map_eq _ (ForeignKey.read_spelled parts read)
  refine NodeColumn.read_ok.mpr ((NodeColumn.read_ok.mp first).follows ?_ ?_ ?_ key ?_ ?_ ?_ ?_)
  all_goals exact same (by decide) fun _ => nofun

end ColumnValues

end Diagram

namespace NodeColumn

open Column Diagram

def shapes : List (Field × Shape) :=
  [(Field.word "title", .leaf), (Field.word "type", .leaf), (primaryKeyField, .leaf),
   (foreignKeyField, Record.shape ForeignKey), (Field.word "nullable", .leaf),
   (Field.word "unique", .leaf), (defaultValueField, .leaf), (autoIncrementField, .leaf)]

theorem separate_shapes : Field.Separate (shapes.map fun p => p.1) := by
  change Field.Separate columnFields
  decide

theorem given_eq (o : List (String × Json)) (c : NodeColumn) :
    Record.given (.obj o) c = .obj (Shape.givenFields shapes o (fullMembers c.fields)) :=
  Shape.given_record ..

theorem read_given {src : Source} {o : List (String × Json)} {c : NodeColumn}
    (first : Record.read src o = .ok c) :
    Record.read src (Shape.givenFields shapes o (fullMembers c.fields)) = .ok c := by
  have separate := separate_shapes
  refine read_ok.mpr ((read_ok.mp first).follows ?_ ?_ ?_ ?_ ?_ ?_ ?_ ?_)
  · exact follows_leaf 0 separate rfl rfl rfl
  · exact follows_leaf 1 separate rfl rfl rfl
  · exact follows_leaf 2 separate rfl rfl (optionFlag c.primaryKey).nullable
  · exact follows_given 3 separate rfl rfl fun _ => ForeignKey.nullable_given
  · exact follows_leaf 4 separate rfl rfl (optionFlag c.nullable).nullable
  · exact follows_leaf 5 separate rfl rfl (optionFlag c.unique).nullable
  · exact follows_leaf 6 separate rfl rfl (optionDefault c.defaultValue).nullable
  · exact follows_leaf 7 separate rfl rfl (optionFlag c.autoIncrement).nullable

end NodeColumn

end SchemaDiagram
