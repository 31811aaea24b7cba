import SchemaDiagram.Proofs.Snapshots
import SchemaDiagram.Proofs.StrictReading
import SchemaDiagram.Proofs.WireReturn

/-!
Schemas that can be written and are read again. A schema that is read of a text in the strict dialect has
plain texts and small integers only; so has the diagram that is made of it, and so has the schema that comes
back from that. What is written for any of them stands for the value that was written.
-/

set_option autoImplicit false

namespace SchemaDiagram

open Decode (text nullable list)
open Json (Fits IsPlain MembersFit)
open Record (decode toWire)

def ForeignKey.IsPlain (k : ForeignKey) : Prop := Json.IsPlain k.table ∧ Json.IsPlain k.column

def DefaultValue.IsPlain : DefaultValue → Prop
  | text s => Json.IsPlain s
  | int i => i.natAbs < 10 ^ Decimal.maxDigits
  | float _ => True
  | bool _ => True

structure Column.IsPlain (c : Column) : Prop where
  name : Json.IsPlain c.name
  type : Json.IsPlain c.type
  foreignKey : ∀ k ∈ c.foreignKey, k.IsPlain
  defaultValue : ∀ v ∈ c.defaultValue, v.IsPlain

structure Table.IsPlain (t : Table) : Prop where
  id : Json.IsPlain t.id
  name : Json.IsPlain t.name
  columns : ∀ c ∈ t.columns, c.IsPlain
  comment : ∀ s ∈ t.comment, Json.IsPlain s

structure Relationship.IsPlain (r : Relationship) : Prop where
  id : Json.IsPlain r.id
  fromTable : Json.IsPlain r.fromTable
  fromColumn : Json.IsPlain r.fromColumn
  toTable : Json.IsPlain r.toTable
  toColumn : Json.IsPlain r.toColumn

/-- A schema whose texts hold no unit that stands alone and whose integers have no more digits than the limit. -/
structure Schema.IsPlain (s : Schema) : Prop where
  tables : ∀ t ∈ s.tables, t.IsPlain
  relationships : ∀ r ∈ s.relationships, r.IsPlain

section Reading

variable {α : Type} {P : α → Prop} {read : Json → Decoded α} {default x : α} {f : Field} {room : ℕ}
  {members : List (String × Json)} {v : Json} {src : Source}

theorem Json.mem_of_lookup {key : String} (h : lookup key members = some v) : (key, v) ∈ members := by
  induction members with
  | nil => cases h
  | cons m rest ih =>
    rw [lookup] at h
    split at h
    · rename_i same
      obtain rfl := Option.some.inj h
      rw [← same]
      exact List.mem_cons_self
    · exact List.mem_cons_of_mem m (ih h)

theorem Field.fits_of_find? {key : String} (fits : MembersFit room members) (h : f.find? members = some (key, v)) :
    Fits room v := by
  unfold Field.find? at h
  split at h
  · rename_i w found
    obtain ⟨⟩ := h
    exact fits.values _ (Json.mem_of_lookup found)
  · obtain ⟨w, found, same⟩ := Option.map_eq_some_iff.mp h
    cases same
    exact fits.values _ (Json.mem_of_lookup found)

/-- What is read of a field has a property that the default and all that is read of fitting values have. -/
theorem Field.optional_has (h : f.optional default read members = .ok x) (fits : MembersFit room members)
    (absent : P default) (given : ∀ {v x}, Fits room v → read v = .ok x → P x) : P x := by
  rcases Field.optional_ok_inv h with ⟨-, rfl⟩ | ⟨key, v, found, read⟩
  · exact absent
  · exact given (Field.fits_of_find? fits found) read

theorem Field.required_has (h : f.required read members = .ok x) (fits : MembersFit room members)
    (given : ∀ {v x}, Fits room v → read v = .ok x → P x) : P x := by
  unfold Field.required at h
  split at h
  · exact given (Field.fits_of_find? fits ‹_›) (Decoded.within_ok_inv h)
  · cases h

theorem Decode.text_has {s : String} (fits : Fits room v) (h : text v = .ok s) : IsPlain s := by
  cases fits with
  | str plain =>
    cases h
    exact plain
  | _ => cases h

theorem Decode.nullable_has {x : Option α} (given : ∀ {v x}, Fits room v → read v = .ok x → P x)
    (fits : Fits room v) (h : nullable read v = .ok x) : ∀ a ∈ x, P a := by
  rcases Decode.nullable_ok_inv h with ⟨-, rfl⟩ | ⟨a, read, rfl⟩
  · exact nofun
  · rintro _ ⟨⟩
    exact given fits read

theorem Decode.items_has {xs : List α} {vs : List Json} {i : ℕ} (fits : ∀ v ∈ vs, Fits room v)
    (given : ∀ {v x}, Fits room v → read v = .ok x → P x) (h : Decode.items read i vs = .ok xs) : ∀ a ∈ xs, P a := by
  induction vs generalizing i xs with
  | nil =>
    cases h
    exact nofun
  | cons v rest ih =>
    obtain ⟨here, later⟩ := List.forall_mem_cons.mp fits
    obtain ⟨g, ys, head, tail, rfl⟩ := Decoded.seq_ok_inv h
    obtain ⟨y, hy, rfl⟩ := Decoded.map_ok_inv head
    exact List.forall_mem_cons.mpr ⟨given here (Decoded.within_ok_inv hy), ih later tail⟩

theorem Decode.list_has {xs : List α} (given : ∀ {room v x}, Fits room v → read v = .ok x → P x)
    (fits : Fits room v) (h : list src read v = .ok xs) : ∀ a ∈ xs, P a := by
  cases fits with
  | arr items => exact Decode.items_has items given h
  | _ => cases h

theorem Record.has [Record α] (fits : Fits room v) (h : decode src v = .ok x) :
    ∃ room members, MembersFit room members ∧ Record.read src members = .ok x := by
  obtain ⟨members, rfl, read⟩ := Record.decode_ok_inv h
  cases fits with
  | obj distinct names values => exact ⟨_, members, ⟨distinct, names, values⟩, read⟩

end Reading

section Records

variable {room : ℕ} {v : Json} {src : Source}

theorem ForeignKey.isPlain_of_decode {k : ForeignKey} (fits : Fits room v) (h : decode src v = .ok k) : k.IsPlain := by
  obtain ⟨_, members, fits, h₁⟩ := Record.has fits h
  obtain ⟨_, _, h₂, -, rfl⟩ := Decoded.seq_ok_inv h₁
  obtain ⟨_, _, h₃, -, rfl⟩ := Decoded.seq_ok_inv h₂
  obtain ⟨_, column, h₄, hc, rfl⟩ := Decoded.seq_ok_inv h₃
  obtain ⟨table, ht, rfl⟩ := Decoded.map_ok_inv h₄
  exact ⟨Field.required_has ht fits Decode.text_has, Field.required_has hc fits Decode.text_has⟩

theorem DefaultValue.isPlain_of_decode {d : DefaultValue} (fits : Fits room v) (h : decode v = .ok d) : d.IsPlain := by
  cases fits with
  | str plain =>
    cases h
    exact plain
  | int few =>
    cases h
    exact few
  | float x =>
    cases h
    trivial
  | bool b =>
    cases h
    trivial
  | _ => cases h

theorem Column.isPlain_of_decode {c : Column} (fits : Fits room v) (h : decode src v = .ok c) : c.IsPlain := by
  obtain ⟨_, members, fits, h₁⟩ := Record.has fits h
  obtain ⟨_, _, h₂, -, rfl⟩ := Decoded.seq_ok_inv h₁
  obtain ⟨_, default, h₃, hd, rfl⟩ := Decoded.seq_ok_inv h₂
  obtain ⟨_, foreign, h₄, hf, rfl⟩ := Decoded.seq_ok_inv h₃
  obtain ⟨_, _, h₅, -, rfl⟩ := Decoded.seq_ok_inv h₄
  obtain ⟨_, _, h₆, -, rfl⟩ := Decoded.seq_ok_inv h₅
  obtain ⟨_, _, h₇, -, rfl⟩ := Decoded.seq_ok_inv h₆
  obtain ⟨_, type, h₈, ht, rfl⟩ := Decoded.seq_ok_inv h₇
  obtain ⟨name, hn, rfl⟩ := Decoded.map_ok_inv h₈
  exact ⟨Field.optional_has hn fits rfl Decode.text_has, Field.optional_has ht fits rfl Decode.text_has,
    Field.optional_has hf fits nofun (Decode.nullable_has ForeignKey.isPlain_of_decode),
    Field.optional_has hd fits nofun (Decode.nullable_has DefaultValue.isPlain_of_decode)⟩

theorem Table.isPlain_of_decode {t : Table} (fits : Fits room v) (h : decode src v = .ok t) : t.IsPlain := by
  obtain ⟨_, members, fits, h₁⟩ := Record.has fits h
  obtain ⟨_, _, h₂, -, rfl⟩ := Decoded.seq_ok_inv h₁
  obtain ⟨_, comment, h₃, hm, rfl⟩ := Decoded.seq_ok_inv h₂
  obtain ⟨_, columns, h₄, hc, rfl⟩ := Decoded.seq_ok_inv h₃
  obtain ⟨_, name, h₅, hn, rfl⟩ := Decoded.seq_ok_inv h₄
  obtain ⟨id, hi, rfl⟩ := Decoded.map_ok_inv h₅
  exact ⟨Field.required_has hi fits Decode.text_has, Field.optional_has hn fits rfl Decode.text_has,
    Field.optional_has hc fits (List.forall_mem_nil _) (Decode.list_has Column.isPlain_of_decode),
    Field.optional_has hm fits nofun (Decode.nullable_has Decode.text_has)⟩

theorem Relationship.isPlain_of_decode {r : Relationship} (fits : Fits room v) (h : decode src v = .ok r) :
    r.IsPlain := by
  obtain ⟨_, members, fits, h₁⟩ := Record.has fits h
  obtain ⟨_, _, h₂, -, rfl⟩ := Decoded.seq_ok_inv h₁
  obtain ⟨_, toColumn, h₃, h₃', rfl⟩ := Decoded.seq_ok_inv h₂
  obtain ⟨_, toTable, h₄, h₄', rfl⟩ := Decoded.seq_ok_inv h₃
  obtain ⟨_, fromColumn, h₅, h₅', rfl⟩ := Decoded.seq_ok_inv h₄
  obtain ⟨_, fromTable, h₆, h₆', rfl⟩ := Decoded.seq_ok_inv h₅
  obtain ⟨id, hi, rfl⟩ := Decoded.map_ok_inv h₆
  exact ⟨Field.required_has hi fits Decode.text_has, Field.optional_has h₆' fits rfl Decode.text_has,
    Field.optional_has h₅' fits rfl Decode.text_has, Field.optional_has h₄' fits rfl Decode.text_has,
    Field.optional_has h₃' fits rfl Decode.text_has⟩

theorem Schema.isPlain_of_decode {s : Schema} (fits : Fits room v) (h : decode src v = .ok s) : s.IsPlain := by
  obtain ⟨_, members, fits, h₁⟩ := Record.has fits h
  obtain ⟨_, relationships, h₂, hr, rfl⟩ := Decoded.seq_ok_inv h₁
  obtain ⟨tables, ht, rfl⟩ := Decoded.map_ok_inv h₂
  exact ⟨Field.optional_has ht fits (List.forall_mem_nil _) (Decode.list_has Table.isPlain_of_decode),
    Field.optional_has hr fits (List.forall_mem_nil _) (Decode.list_has Relationship.isPlain_of_decode)⟩

end Records

section Writing

variable {room : ℕ} {fields : List (Field × Json)}

theorem fits_wire (fs : List Field) {v : Json} (written : v = .obj (wireMembers fields))
    (known : fields.map (fun p => p.1) = fs) (apart : fs.Pairwise Field.Apart) (names : ∀ f ∈ fs, Json.IsPlain f.wire)
    (values : fields.Forall fun p => Fits room p.2) : Fits (room + 1) v := by
  subst written known
  have values := List.forall_iff_forall_mem.mp values
  refine .obj (nodup_wireMembers apart) (fun m hm => ?_) fun m hm => ?_
  · obtain ⟨p, hp, rfl⟩ := List.mem_map.mp hm
    exact names p.1 (List.mem_map_of_mem (List.mem_of_mem_filter hp))
  · obtain ⟨p, hp, rfl⟩ := List.mem_map.mp hm
    exact values p (List.mem_of_mem_filter hp)

theorem Json.fits_ofOption {α : Type} {write : α → Json} {x : Option α} (h : ∀ a ∈ x, Fits room (write a)) :
    Fits room (.ofOption write x) := by
  cases x with
  | none => exact .null
  | some a => exact h a rfl

theorem Json.fits_ofText? {x : Option String} (h : ∀ s ∈ x, Json.IsPlain s) : Fits room (.ofText? x) := by
  cases x with
  | none => exact .null
  | some s => exact .str (h s rfl)

theorem Json.fits_items {α : Type} {write : α → Json} {xs : List α} (h : ∀ a ∈ xs, Fits room (write a)) :
    Fits (room + 1) (.arr (xs.map write)) :=
  .arr (List.forall_mem_map.mpr h)

theorem Position.fits (p : Position) : Fits (room + 1) (toWire p) :=
  fits_wire [Field.word "x", Field.word "y"] rfl rfl (by decide) (by decide) ⟨.float _, .float _⟩

open ForeignKey in
theorem ForeignKey.IsPlain.fits {k : ForeignKey} (h : k.IsPlain) : Fits (room + 1) (toWire k) := by
  have action (a : ReferentialAction) : Fits room (.str a.spelling) := .str (by cases a <;> decide)
  exact fits_wire [Field.word "table", Field.word "column", onDeleteField, onUpdateField] rfl rfl (by decide)
    (by decide) ⟨.str h.1, .str h.2, Json.fits_ofOption fun a _ => action a, Json.fits_ofOption fun a _ => action a⟩

theorem DefaultValue.IsPlain.fits {d : DefaultValue} (h : d.IsPlain) : Fits room d.toJson := by
  cases d with
  | text s => exact .str h
  | int i => exact .int h
  | float x => exact .float x
  | bool b => exact .bool b

open Column in
theorem Column.IsPlain.fits {c : Column} (h : c.IsPlain) : Fits (room + 2) (toWire c) :=
  fits_wire [Field.word "name", Field.word "type", primaryKeyField, Field.word "nullable", Field.word "unique",
      foreignKeyField, defaultValueField, autoIncrementField] rfl rfl (by decide) (by decide)
    ⟨.str h.name, .str h.type, .bool _, .bool _, .bool _, Json.fits_ofOption fun k hk => (h.foreignKey k hk).fits,
      Json.fits_ofOption fun d hd => (h.defaultValue d hd).fits, Json.fits_ofOption fun b _ => .bool b⟩

theorem Table.IsPlain.fits {t : Table} (h : t.IsPlain) : Fits (room + 4) (toWire t) :=
  fits_wire [Field.word "id", Field.word "name", Field.word "columns", Field.word "comment", Field.word "position"]
    rfl rfl (by decide) (by decide)
    ⟨.str h.id, .str h.name, Json.fits_items fun c hc => (h.columns c hc).fits, Json.fits_ofText? h.comment,
      Json.fits_ofOption fun p _ => p.fits⟩

open Relationship in
theorem Relationship.IsPlain.fits {r : Relationship} (h : r.IsPlain) : Fits (room + 1) (toWire r) := by
  have cardinality : Json.IsPlain r.cardinality.spelling := by cases r.cardinality <;> decide
  exact fits_wire [Field.word "id", fromTableField, fromColumnField, toTableField, toColumnField, Field.word "type"]
    rfl rfl (by decide) (by decide)
    ⟨.str h.id, .str h.fromTable, .str h.fromColumn, .str h.toTable, .str h.toColumn, .str cardinality⟩

theorem Schema.IsPlain.fits {s : Schema} (h : s.IsPlain) : Fits (room + 6) (toWire s) :=
  fits_wire [Field.word "tables", Field.word "relationships"] rfl rfl (by decide) (by decide)
    ⟨Json.fits_items fun t ht => (h.tables t ht).fits, Json.fits_items fun r hr => (h.relationships r hr).fits⟩

end Writing

section Drawing

variable {room : ℕ} {s u : Schema} {d : Diagram} {grid : Grid} {places : Places}

theorem Json.IsPlain.append {a b : String} (ha : Json.IsPlain a) (hb : Json.IsPlain b) : Json.IsPlain (a ++ b) := by
  unfold Json.IsPlain Text.hasUnpaired at *
  rw [String.toList_append, List.any_append, ha, hb]
  rfl

open Column in
theorem Column.IsPlain.fits_node {c : Column} (h : c.IsPlain) : Fits (room + 2) (toWire c.toNodeColumn) :=
  fits_wire [Field.word "title", Field.word "type", primaryKeyField, foreignKeyField, Field.word "nullable",
      Field.word "unique", defaultValueField, autoIncrementField] rfl rfl (by decide) (by decide)
    ⟨.str h.name, .str h.type, .bool _, Json.fits_ofOption fun k hk => (h.foreignKey k hk).fits, .bool _, .bool _,
      Json.fits_ofOption fun d hd => (h.defaultValue d hd).fits, Json.fits_ofOption fun b _ => .bool b⟩

theorem Table.IsPlain.fits_node {t : Table} (h : t.IsPlain) (p : Position) :
    Fits (room + 5) (toWire (t.toNode p)) := by
  have data : Fits (room + 4) (toWire (t.toNode p).data) :=
    fits_wire [Field.word "label", Field.word "comment", NodeData.columnsField] rfl rfl (by decide) (by decide)
      ⟨.str h.name, Json.fits_ofText? h.comment, by
        unfold Table.toNode
        rw [List.map_map]
        exact Json.fits_items fun c hc => (h.columns c hc).fits_node⟩
  exact fits_wire [Field.word "id", Field.word "type", Field.word "position", Field.word "data"] rfl rfl (by decide)
    (by decide) ⟨.str h.id, .str (show Json.IsPlain tableNodeType by decide), p.fits, data⟩

theorem Schema.IsPlain.fits_edge (h : s.IsPlain) {r : Relationship} (hr : r.IsPlain) {e : Edge}
    (made : s.edgeOf r = .ok e) : Fits (room + 1) (toWire e) := by
  have cardinality : Json.IsPlain r.cardinality.spelling := by cases r.cardinality <;> decide
  unfold Schema.edgeOf at made
  split at made
  · rename_i a b ha hb
    cases made
    have ha := (h.tables a (List.mem_of_find?_eq_some ha)).id
    have hb := (h.tables b (List.mem_of_find?_eq_some hb)).id
    exact fits_wire [Field.word "id", Field.word "source", Field.word "target", Edge.sourceHandleField,
        Edge.targetHandleField, Field.word "type", Field.word "label"] rfl rfl (by decide) (by decide)
      ⟨.str hr.id, .str ha, .str hb, .str (hr.fromColumn.append (by decide)), .str hr.toColumn,
        .str (show Json.IsPlain defaultEdgeType by decide), .str cardinality⟩
  · cases made

theorem Schema.IsPlain.fits_project (h : s.IsPlain) (made : s.project grid places = .ok d) :
    Fits (room + 7) d.toJson := by
  obtain ⟨nodes, edges⟩ := Schema.parts_of_project made
  have depicts := Schema.depicts_of_nodesFrom nodes
  have nodes : ∀ n ∈ d.nodes, Fits (room + 5) (toWire n) := by
    intro n hn
    obtain ⟨t, ht, shown⟩ := exists_of_mem_right depicts hn
    rw [shown]
    exact (h.tables t ht).fits_node _
  have edges : ∀ e ∈ d.edges, Fits (room + 5) (toWire e) := by
    intro e he
    obtain ⟨r, hr, made⟩ := exists_of_mem_left (Result.mapM_ok.mp edges) he
    exact h.fits_edge (h.relationships r hr) made
  have names : ["nodes", "edges"].Nodup ∧ ∀ k ∈ ["nodes", "edges"], Json.IsPlain k := by decide
  refine .obj names.1 (fun m hm => names.2 m.1 (List.mem_map_of_mem hm)) ?_
  exact List.forall_mem_cons.mpr ⟨Json.fits_items nodes, List.forall_mem_singleton.mpr (Json.fits_items edges)⟩

theorem Schema.IsPlain.of_unplaced (h : s.IsPlain) (same : u.unplaced = s.unplaced) : u.IsPlain := by
  refine ⟨fun t ht => ?_, ?_⟩
  · have mem : t.unplaced ∈ s.unplaced.tables := by
      rw [← same]
      exact List.mem_map_of_mem ht
    obtain ⟨v, hv, equal⟩ := List.mem_map.mp mem
    have plain : v.unplaced.IsPlain := ⟨(h.tables v hv).id, (h.tables v hv).name, (h.tables v hv).columns,
      (h.tables v hv).comment⟩
    rw [equal] at plain
    exact ⟨plain.id, plain.name, plain.columns, plain.comment⟩
  · have relationships : u.relationships = s.relationships := congrArg (fun s => s.relationships) same
    rw [relationships]
    exact h.relationships

end Drawing

end SchemaDiagram
