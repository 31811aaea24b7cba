import SchemaDiagram.Diagram.Record

/-!
Records come back from their wire form. What is `null` is left out there, and a field that is left out
is read as its default, so that each field has to come back either from its value or, if that is
`null`, as its default. Fields do not get in each other's way as long as none has a spelling that is
another's in the wire form.
-/

set_option autoImplicit false

namespace SchemaDiagram

open Decode (nullable text)
open Record (decode toWire)

/-- Neither spelling of a field is that of another in the wire form. -/
def Field.Apart (f g : Field) : Prop := f.wire ≠ g.wire ∧ f.plain ≠ g.wire ∧ g.plain ≠ f.wire

instance (f g : Field) : Decidable (f.Apart g) := inferInstanceAs (Decidable (_ ∧ _ ∧ _))

def wireMembers (fields : List (Field × Json)) : List (String × Json) :=
  (fields.filter fun p => p.2 ≠ .null).map fun p => (p.1.wire, p.2)

/-- A value comes back from a field: it is read again, or it is the default that stands for `null`. -/
def Returns {α : Type} (read : Json → Decoded α) (default x : α) (v : Json) : Prop :=
  if v = .null then x = default else read v = .ok x

theorem Json.lookup_eq_none {key : String} {members : List (String × Json)}
    (absent : key ∉ members.map fun m => m.1) : lookup key members = none := by
  induction members with
  | nil => rfl
  | cons m rest ih =>
    obtain ⟨other, absent⟩ := not_or.mp (mt List.mem_cons.mpr absent)
    rw [lookup, if_neg (Ne.symm other), ih absent]

section Members

variable {fields : List (Field × Json)} {f : Field} {v : Json}

theorem wireMembers_cons (f : Field) (v : Json) (fields : List (Field × Json)) :
    wireMembers ((f, v) :: fields) =
      if v = .null then wireMembers fields else (f.wire, v) :: wireMembers fields := by
  unfold wireMembers
  by_cases h : v = .null <;> simp [h]

theorem lookup_wireMembers_of_ne {key : String} (other : ∀ p ∈ fields, p.1.wire ≠ key) :
    Json.lookup key (wireMembers fields) = none := by
  refine Json.lookup_eq_none fun present => ?_
  obtain ⟨m, hm, rfl⟩ := List.mem_map.mp present
  obtain ⟨p, hp, rfl⟩ := List.mem_map.mp hm
  exact other p (List.mem_filter.mp hp).1 rfl

theorem nodup_wireMembers (apart : (fields.map fun p => p.1).Pairwise Field.Apart) :
    ((wireMembers fields).map fun m => m.1).Nodup := by
  have wires : (fields.map fun p => p.1.wire).Nodup := by
    rw [List.pairwise_map] at apart
    exact List.pairwise_map.mpr (apart.imp fun h => h.1)
  have keys : (wireMembers fields).map (fun m => m.1) =
      (fields.filter fun p => p.2 ≠ .null).map fun p => p.1.wire := List.map_map
  rw [keys]
  exact wires.sublist (List.filter_sublist.map _)

theorem Field.find?_wireMembers (apart : (fields.map fun p => p.1).Pairwise Field.Apart)
    (h : (f, v) ∈ fields) :
    f.find? (wireMembers fields) = if v = .null then none else some (f.wire, v) := by
  induction fields with
  | nil => cases h
  | cons p rest ih =>
    obtain ⟨g, w⟩ := p
    obtain ⟨hg, hr⟩ := List.pairwise_cons.mp apart
    have others : ∀ q ∈ rest, g.Apart q.1 := fun q hq => hg q.1 (List.mem_map_of_mem hq)
    rw [wireMembers_cons]
    rcases List.mem_cons.mp h with head | hm
    · cases head
      by_cases hv : v = .null
      · rw [if_pos hv, if_pos hv, find?, lookup_wireMembers_of_ne fun q hq => (others q hq).1.symm,
          lookup_wireMembers_of_ne fun q hq => (others q hq).2.1.symm]
        rfl
      · rw [if_neg hv, if_neg hv, find?, Json.lookup, if_pos rfl]
    · obtain ⟨wire, -, plain⟩ := others (f, v) hm
      rw [← ih hr hm]
      split
      · rfl
      · rw [find?, Json.lookup, if_neg wire, Json.lookup, if_neg plain.symm]
        rfl

theorem get_wireMembers (apart : (fields.map fun p => p.1).Pairwise Field.Apart)
    (h : (f, v) ∈ fields) : (Json.obj (wireMembers fields)).get f.wire = v := by
  have found := Field.find?_wireMembers apart h
  unfold Field.find? at found
  change (Json.lookup f.wire (wireMembers fields)).getD .null = v
  by_cases hv : v = .null
  · rw [if_pos hv] at found
    cases hw : Json.lookup f.wire (wireMembers fields) with
    | none => exact hv.symm
    | some w =>
      rw [hw] at found
      cases found
  · rw [if_neg hv] at found
    cases hw : Json.lookup f.wire (wireMembers fields) with
    | some w =>
      rw [hw] at found
      exact congrArg Prod.snd (Option.some.inj found)
    | none =>
      rw [hw] at found
      obtain ⟨w, plain, same⟩ := Option.map_eq_some_iff.mp found
      rw [show f.plain = f.wire from congrArg Prod.fst same, hw] at plain
      cases plain

end Members

section Reading

variable {α β : Type} {read : Json → Decoded α} {x : α} {v : Json}

theorem Decoded.map_eq {a : Decoded α} (f : α → β) (ha : a = .ok x) : f <$> a = .ok (f x) := by
  rw [ha, map_ok]

theorem Decoded.seq_eq {f : Decoded (α → β)} {g : α → β} {a : Decoded α} (hf : f = .ok g)
    (ha : a = .ok x) : f <*> a = .ok (g x) := by
  rw [hf, ha, seq_ok]

namespace Returns

theorem of_ok {default : α} (given : v ≠ .null) (h : read v = .ok x) :
    Returns read default x v := by
  unfold Returns
  rwa [if_neg given]

theorem option {write : α → Json} (back : ∀ a, write a ≠ .null ∧ read (write a) = .ok a)
    (x : Option α) : Returns (nullable read) none x (.ofOption write x) := by
  cases x with
  | none => rfl
  | some a =>
    obtain ⟨given, h⟩ := back a
    refine of_ok (v := write a) given ?_
    unfold nullable
    split
    · contradiction
    · rw [h, Decoded.map_ok]

theorem optionalText (x : Option String) : Returns (nullable text) none x (.ofText? x) := by
  cases x <;> rfl

end Returns

variable {fields : List (Field × Json)} {f : Field}

theorem optional_back {default : α} (i : Nat)
    (apart : (fields.map fun p => p.1).Pairwise Field.Apart) (h : fields[i]? = some (f, v))
    (back : Returns read default x v) :
    f.optional default read (wireMembers fields) = .ok x := by
  unfold Field.optional Returns at *
  rw [Field.find?_wireMembers apart (List.mem_of_getElem? h)]
  split at back
  · rw [if_pos ‹_›, back]
  · rw [if_neg ‹_›]
    exact congrArg (Decoded.within _) back

theorem required_back (i : Nat) (apart : (fields.map fun p => p.1).Pairwise Field.Apart)
    (h : fields[i]? = some (f, v)) (given : v ≠ .null) (back : read v = .ok x) :
    f.required read (wireMembers fields) = .ok x := by
  unfold Field.required
  rw [Field.find?_wireMembers apart (List.mem_of_getElem? h), if_neg given]
  exact congrArg (Decoded.within _) back

end Reading

theorem Record.decode_eq {α : Type} [Record α] {src : Source} {a b : α}
    {fields : List (Field × Json)}
    (written : toWire a = .obj (wireMembers fields))
    (h : Record.read src (wireMembers fields) = .ok b) : decode src (toWire a) = .ok b := by
  rw [written]
  exact h

open Decoded (map_eq seq_eq)
open Returns (of_ok option optionalText)

theorem Position.decode_toWire (src : Source) (p : Position) : decode src (toWire p) = .ok p := by
  have apart : [Field.word "x", Field.word "y"].Pairwise Field.Apart := by decide
  refine Record.decode_eq rfl (seq_eq (map_eq _ ?_) ?_)
  · exact optional_back 0 apart rfl (of_ok nofun rfl)
  · exact optional_back 1 apart rfl (of_ok nofun rfl)

open ForeignKey in
theorem ForeignKey.decode_toWire (src : Source) (k : ForeignKey) :
    decode src (toWire k) = .ok k := by
  have apart : [Field.word "table", Field.word "column", onDeleteField, onUpdateField].Pairwise
      Field.Apart := by decide
  have action (a : ReferentialAction) :
      Json.str a.spelling ≠ .null ∧ ReferentialAction.decode (.str a.spelling) = .ok a :=
    ⟨nofun, a.decode_spelling⟩
  refine Record.decode_eq rfl (seq_eq (seq_eq (seq_eq (map_eq _ ?_) ?_) ?_) ?_)
  · exact required_back 0 apart rfl nofun rfl
  · exact required_back 1 apart rfl nofun rfl
  · exact optional_back 2 apart rfl (option action k.onDelete)
  · exact optional_back 3 apart rfl (option action k.onUpdate)

namespace Returns

theorem optionRecord {α : Type} [Record α] {src : Source}
    (back : ∀ a : α, decode src (toWire a) = .ok a) (x : Option α) :
    Returns (nullable (decode src)) none x (.ofOption (Record.write .wire) x) := by
  refine option (fun a => ⟨fun null => ?_, back a⟩) x
  have read := back a
  rw [show toWire a = .null from null] at read
  cases read

theorem optionDefault (x : Option DefaultValue) :
    Returns (nullable DefaultValue.decode) none x (.ofOption DefaultValue.toJson x) :=
  option (fun d => ⟨by cases d <;> exact nofun, d.decode_toJson⟩) x

theorem optionFlag (x : Option Bool) : Returns (nullable Decode.bool) none x (.ofOption .bool x) := by
  cases x <;> rfl

end Returns

open Returns (optionRecord optionDefault optionFlag)

open Column in
theorem Column.decode_toWire (src : Source) (c : Column) : decode src (toWire c) = .ok c := by
  have apart : [Field.word "name", Field.word "type", primaryKeyField, Field.word "nullable",
      Field.word "unique", foreignKeyField, defaultValueField, autoIncrementField].Pairwise
      Field.Apart := by decide
  refine Record.decode_eq rfl (seq_eq (seq_eq (seq_eq (seq_eq (seq_eq (seq_eq (seq_eq (map_eq _
    ?_) ?_) ?_) ?_) ?_) ?_) ?_) ?_)
  · exact optional_back 0 apart rfl (of_ok nofun rfl)
  · exact optional_back 1 apart rfl (of_ok nofun rfl)
  · exact optional_back 2 apart rfl (of_ok nofun rfl)
  · exact optional_back 3 apart rfl (of_ok nofun rfl)
  · exact optional_back 4 apart rfl (of_ok nofun rfl)
  · exact optional_back 5 apart rfl (optionRecord (ForeignKey.decode_toWire src) c.foreignKey)
  · exact optional_back 6 apart rfl (optionDefault c.defaultValue)
  · exact optional_back 7 apart rfl (optionFlag c.autoIncrement)

theorem Decode.list_back {α : Type} [Record α] {src : Source}
    (back : ∀ a : α, decode src (toWire a) = .ok a) (xs : List α) :
    Decode.list src (decode src) (.arr (xs.map toWire)) = .ok xs :=
  Decode.items_ok (decode src) toWire back 0 xs

theorem Table.decode_toWire (src : Source) (t : Table) : decode src (toWire t) = .ok t := by
  have apart : [Field.word "id", Field.word "name", Field.word "columns", Field.word "comment",
      Field.word "position"].Pairwise Field.Apart := by decide
  refine Record.decode_eq rfl (seq_eq (seq_eq (seq_eq (seq_eq (map_eq _ ?_) ?_) ?_) ?_) ?_)
  · exact required_back 0 apart rfl nofun rfl
  · exact optional_back 1 apart rfl (of_ok nofun rfl)
  · exact optional_back 2 apart rfl (of_ok nofun (Decode.list_back (Column.decode_toWire src) t.columns))
  · exact optional_back 3 apart rfl (optionalText t.comment)
  · exact optional_back 4 apart rfl (optionRecord (Position.decode_toWire src) t.position)

theorem Cardinality.decode_spelling (c : Cardinality) :
    Cardinality.decode (.str c.spelling) = .ok c := by
  cases c <;> rfl

open Relationship in
theorem Relationship.decode_toWire (src : Source) (r : Relationship) :
    decode src (toWire r) = .ok r := by
  have apart : [Field.word "id", fromTableField, fromColumnField, toTableField, toColumnField,
      Field.word "type"].Pairwise Field.Apart := by decide
  refine Record.decode_eq rfl
    (seq_eq (seq_eq (seq_eq (seq_eq (seq_eq (map_eq _ ?_) ?_) ?_) ?_) ?_) ?_)
  · exact required_back 0 apart rfl nofun rfl
  · exact optional_back 1 apart rfl (of_ok nofun rfl)
  · exact optional_back 2 apart rfl (of_ok nofun rfl)
  · exact optional_back 3 apart rfl (of_ok nofun rfl)
  · exact optional_back 4 apart rfl (of_ok nofun rfl)
  · exact optional_back 5 apart rfl (of_ok nofun r.cardinality.decode_spelling)

theorem Schema.decode_toWire (src : Source) (s : Schema) : decode src (toWire s) = .ok s := by
  have apart : [Field.word "tables", Field.word "relationships"].Pairwise Field.Apart := by decide
  refine Record.decode_eq rfl (seq_eq (map_eq _ ?_) ?_)
  · exact optional_back 0 apart rfl (of_ok nofun (Decode.list_back (Table.decode_toWire src) s.tables))
  · exact optional_back 1 apart rfl
      (of_ok nofun (Decode.list_back (Relationship.decode_toWire src) s.relationships))

open Column in
theorem NodeColumn.decode_toWire (src : Source) (c : NodeColumn) :
    decode src (toWire c) = .ok c := by
  have apart : [Field.word "title", Field.word "type", primaryKeyField, foreignKeyField,
      Field.word "nullable", Field.word "unique", defaultValueField, autoIncrementField].Pairwise
      Field.Apart := by decide
  refine Record.decode_eq rfl (seq_eq (seq_eq (seq_eq (seq_eq (seq_eq (seq_eq (seq_eq (map_eq _
    ?_) ?_) ?_) ?_) ?_) ?_) ?_) ?_)
  · exact optional_back 0 apart rfl (of_ok nofun rfl)
  · exact optional_back 1 apart rfl (of_ok nofun rfl)
  · exact optional_back 2 apart rfl (optionFlag c.primaryKey)
  · exact optional_back 3 apart rfl (optionRecord (ForeignKey.decode_toWire src) c.foreignKey)
  · exact optional_back 4 apart rfl (optionFlag c.nullable)
  · exact optional_back 5 apart rfl (optionFlag c.unique)
  · exact optional_back 6 apart rfl (optionDefault c.defaultValue)
  · exact optional_back 7 apart rfl (optionFlag c.autoIncrement)

/-- A label that reading does not refuse: it is a text or left out on the wire. -/
def Label.legible : Label → Bool
  | text _ | malformed .null => true
  | malformed _ => false

def Label.reread : Label → Label
  | text s => text s
  | malformed _ => text ""

def Node.reread (n : Node) : Node := { n with data := { n.data with label := n.data.label.reread } }

theorem Label.returns_reread {l : Label} (legible : l.legible = true) :
    Returns (fun v => Label.text <$> Decode.text v) (.text "") l.reread l.toJson := by
  unfold Label.legible at legible
  split at legible
  · exact of_ok nofun rfl
  · rfl
  · cases legible

theorem NodeData.decode_toWire (src : Source) {d : NodeData} (legible : d.label.legible = true) :
    decode src (toWire d) = .ok { d with label := d.label.reread } := by
  have apart : [Field.word "label", Field.word "comment", columnsField].Pairwise Field.Apart := by
    decide
  refine Record.decode_eq rfl (seq_eq (seq_eq (map_eq _ ?_) ?_) ?_)
  · exact optional_back 0 apart rfl (Label.returns_reread legible)
  · exact optional_back 1 apart rfl (optionalText d.comment)
  · exact optional_back 2 apart rfl
      (of_ok nofun (Decode.list_back (NodeColumn.decode_toWire src) d.columns))

theorem Node.decode_toWire (src : Source) {n : Node} (legible : n.data.label.legible = true) :
    decode src (toWire n) = .ok n.reread := by
  have apart : [Field.word "id", Field.word "type", Field.word "position", Field.word "data"].Pairwise
      Field.Apart := by decide
  refine Record.decode_eq rfl (seq_eq (seq_eq (seq_eq (map_eq _ ?_) ?_) ?_) ?_)
  · exact required_back 0 apart rfl nofun rfl
  · exact optional_back 1 apart rfl (of_ok nofun rfl)
  · exact optional_back 2 apart rfl (of_ok nofun (n.position.decode_toWire src))
  · exact optional_back 3 apart rfl (of_ok nofun (NodeData.decode_toWire src legible))

end SchemaDiagram
