import SchemaDiagram.Proofs.WireForm
import SchemaDiagram.Sync.Payload

/-!
What was read of a value comes back from its wire form, whatever the kind of record. Only labels could
stand in the way, since a node may be headed with what is no text; but no such label is ever read.
-/

set_option autoImplicit false

namespace SchemaDiagram

open Decode (nullable text)
open Record (decode toWire)
open Decoded (map_eq seq_eq)
open Returns (of_ok option optionalText optionRecord)

open Edge in
theorem Edge.decode_toWire (src : Source) (e : Edge) : decode src (toWire e) = .ok e := by
  have apart : [Field.word "id", Field.word "source", Field.word "target", sourceHandleField,
      targetHandleField, Field.word "type", Field.word "label"].Pairwise Field.Apart := by decide
  refine Record.decode_eq rfl
    (seq_eq (seq_eq (seq_eq (seq_eq (seq_eq (seq_eq (map_eq _ ?_) ?_) ?_) ?_) ?_) ?_) ?_)
  · exact required_back 0 apart rfl nofun rfl
  · exact optional_back 1 apart rfl (of_ok nofun rfl)
  · exact optional_back 2 apart rfl (of_ok nofun rfl)
  · exact optional_back 3 apart rfl (optionalText e.sourceHandle)
  · exact optional_back 4 apart rfl (optionalText e.targetHandle)
  · exact optional_back 5 apart rfl (of_ok nofun rfl)
  · exact optional_back 6 apart rfl (optionalText e.label)

theorem TextError.Kind.decode_spelling (k : TextError.Kind) :
    TextError.Kind.decode (.str k.spelling) = .ok k := by
  cases k <;> rfl

theorem TextError.decode_toWire (src : Source) (e : TextError) : decode src (toWire e) = .ok e := by
  have apart : [Field.word "line", Field.word "column", Field.word "message", Field.word "type",
      Field.word "code"].Pairwise Field.Apart := by decide
  have place (i : Int) : Json.int i ≠ .null ∧ Decode.int (.int i) = .ok i := ⟨nofun, rfl⟩
  refine Record.decode_eq rfl (seq_eq (seq_eq (seq_eq (seq_eq (map_eq _ ?_) ?_) ?_) ?_) ?_)
  · exact optional_back 0 apart rfl (of_ok nofun rfl)
  · exact optional_back 1 apart rfl (option place e.column)
  · exact required_back 2 apart rfl nofun rfl
  · exact optional_back 3 apart rfl (of_ok nofun e.kind.decode_spelling)
  · exact optional_back 4 apart rfl (optionalText e.code)

namespace Label

def IsText (l : Label) : Prop := ∃ s, l = text s

theorem IsText.legible {l : Label} (h : l.IsText) : l.legible = true := by
  obtain ⟨s, rfl⟩ := h
  rfl

theorem IsText.reread_eq {l : Label} (h : l.IsText) : l.reread = l := by
  obtain ⟨s, rfl⟩ := h
  rfl

end Label

theorem NodeData.decode_toWire_of_text (src : Source) {d : NodeData} (headed : d.label.IsText) :
    decode src (toWire d) = .ok d := by
  rw [NodeData.decode_toWire src headed.legible, headed.reread_eq]

theorem Node.decode_toWire_of_text (src : Source) {n : Node} (headed : n.data.label.IsText) :
    decode src (toWire n) = .ok n := by
  rw [Node.decode_toWire src headed.legible, Node.reread, headed.reread_eq]

theorem Decode.list_back_of_mem {α : Type} [Record α] {src : Source} {xs : List α}
    (back : ∀ a ∈ xs, decode src (toWire a) = .ok a) :
    Decode.list src (decode src) (.arr (xs.map toWire)) = .ok xs := by
  suffices ∀ i, Decode.items (decode src) i (xs.map toWire) = .ok xs from this 0
  induction xs with
  | nil => exact fun _ => rfl
  | cons x rest ih =>
    intro i
    obtain ⟨hx, hr⟩ := List.forall_mem_cons.mp back
    rw [List.map_cons, Decode.items, hx, ih hr]
    rfl

namespace Sync

theorem StoredStatus.decode_spelling (s : StoredStatus) :
    StoredStatus.decode (.str s.spelling) = .ok s := by
  cases s <;> rfl

theorem returns_list {α : Type} [Record α] {src : Source} (xs : Option (List α))
    (back : ∀ ys, xs = some ys → ∀ a ∈ ys, decode src (toWire a) = .ok a) :
    Returns (nullable (Decode.list src (decode src))) none xs
      (.ofOption (fun ys => .arr (ys.map toWire)) xs) := by
  cases xs with
  | none => rfl
  | some ys => exact of_ok nofun (map_eq _ (Decode.list_back_of_mem (back ys rfl)))

namespace Payload

def fields : List Field :=
  [textField, schemaField, nodesField, edgesField, errorsField, statusField]

theorem apart : fields.Pairwise Field.Apart := by decide

end Payload

open Payload in
theorem Payload.decode_toWire (src : Source) {p : Payload}
    (headed : ∀ ns, p.nodes = some ns → ∀ n ∈ ns, n.data.label.IsText) :
    decode src (toWire p) = .ok p := by
  have status (s : StoredStatus) :
      Json.str s.spelling ≠ .null ∧ StoredStatus.decode (.str s.spelling) = .ok s :=
    ⟨nofun, s.decode_spelling⟩
  refine Record.decode_eq rfl
    (seq_eq (seq_eq (seq_eq (seq_eq (seq_eq (map_eq _ ?_) ?_) ?_) ?_) ?_) ?_)
  · exact optional_back 0 apart rfl (optionalText p.text)
  · exact optional_back 1 apart rfl (optionRecord (Schema.decode_toWire src) p.schema)
  · exact optional_back 2 apart rfl (returns_list p.nodes fun ns given n hn =>
      Node.decode_toWire_of_text src (headed ns given n hn))
  · exact optional_back 3 apart rfl (returns_list p.edges fun _ _ e _ => e.decode_toWire src)
  · exact optional_back 4 apart rfl (returns_list p.errors fun _ _ e _ => e.decode_toWire src)
  · exact optional_back 5 apart rfl (option status p.status)

end Sync

section Giving

variable {α β : Type}

theorem Decoded.seq_ok_inv {f : Decoded (α → β)} {a : Decoded α} {b : β} (h : f <*> a = .ok b) :
    ∃ g x, f = .ok g ∧ a = .ok x ∧ g x = b := by
  cases f with
  | rejected ds => cases a <;> cases h
  | ok g =>
    cases a with
    | rejected ds => cases h
    | ok x =>
      cases h
      exact ⟨g, x, rfl, rfl, rfl⟩

theorem Decoded.map_ok_inv {f : α → β} {a : Decoded α} {b : β} (h : f <$> a = .ok b) :
    ∃ x, a = .ok x ∧ f x = b := by
  cases a with
  | rejected ds => cases h
  | ok x =>
    cases h
    exact ⟨x, rfl, rfl⟩

theorem Decoded.within_ok_inv {step : Step} {a : Decoded α} {x : α} (h : a.within step = .ok x) :
    a = .ok x := by
  cases a with
  | rejected ds => cases h
  | ok y =>
    cases h
    rfl

theorem Field.optional_ok_inv {f : Field} {default : α} {read : Json → Decoded α}
    {members : List (String × Json)} {x : α} (h : f.optional default read members = .ok x) :
    f.find? members = none ∧ x = default ∨
      ∃ key v, f.find? members = some (key, v) ∧ read v = .ok x := by
  unfold Field.optional at h
  cases found : f.find? members with
  | none =>
    rw [found] at h
    cases h
    exact .inl ⟨rfl, rfl⟩
  | some p =>
    rw [found] at h
    exact .inr ⟨p.1, p.2, rfl, Decoded.within_ok_inv h⟩

theorem Decode.nullable_ok_inv {read : Json → Decoded α} {v : Json} {x : Option α}
    (h : nullable read v = .ok x) : v = .null ∧ x = none ∨ ∃ a, read v = .ok a ∧ x = some a := by
  unfold nullable at h
  split at h
  · cases h
    exact .inl ⟨rfl, rfl⟩
  · obtain ⟨a, read, rfl⟩ := Decoded.map_ok_inv h
    exact .inr ⟨a, read, rfl⟩

theorem Decode.items_ok_inv {read : Json → Decoded α} {i : Nat} {vs : List Json} {xs : List α}
    (h : Decode.items read i vs = .ok xs) : ∀ a ∈ xs, ∃ v, read v = .ok a := by
  induction vs generalizing i xs with
  | nil =>
    cases h
    exact nofun
  | cons v rest ih =>
    obtain ⟨g, ys, head, tail, rfl⟩ := Decoded.seq_ok_inv h
    obtain ⟨y, hy, rfl⟩ := Decoded.map_ok_inv head
    exact List.forall_mem_cons.mpr ⟨⟨v, Decoded.within_ok_inv hy⟩, ih tail⟩

theorem Decode.list_ok_inv {src : Source} {read : Json → Decoded α} {v : Json} {xs : List α}
    (h : Decode.list src read v = .ok xs) : ∀ a ∈ xs, ∃ v, read v = .ok a := by
  unfold Decode.list at h
  split at h
  · exact Decode.items_ok_inv h
  · cases h

theorem Record.decode_ok_inv [Record α] {src : Source} {v : Json} {a : α}
    (h : decode src v = .ok a) : ∃ members, v = .obj members ∧ Record.read src members = .ok a := by
  unfold decode Decode.record at h
  split at h
  · exact ⟨_, rfl, h⟩
  · cases h

end Giving

variable {src : Source} {v : Json}

theorem NodeData.isText_of_decode {d : NodeData} (h : decode src v = .ok d) : d.label.IsText := by
  obtain ⟨members, -, h₁⟩ := Record.decode_ok_inv h
  obtain ⟨_, _, h₂, -, rfl⟩ := Decoded.seq_ok_inv h₁
  obtain ⟨_, _, h₃, -, rfl⟩ := Decoded.seq_ok_inv h₂
  obtain ⟨label, h₄, rfl⟩ := Decoded.map_ok_inv h₃
  rcases Field.optional_ok_inv h₄ with ⟨-, rfl⟩ | ⟨_, w, -, read⟩
  · exact ⟨"", rfl⟩
  · obtain ⟨s, -, rfl⟩ := Decoded.map_ok_inv read
    exact ⟨s, rfl⟩

theorem Node.isText_of_decode {n : Node} (h : decode src v = .ok n) : n.data.label.IsText := by
  obtain ⟨members, -, h₁⟩ := Record.decode_ok_inv h
  obtain ⟨_, data, h₂, hd, rfl⟩ := Decoded.seq_ok_inv h₁
  obtain ⟨_, _, h₃, -, rfl⟩ := Decoded.seq_ok_inv h₂
  obtain ⟨_, _, h₄, -, rfl⟩ := Decoded.seq_ok_inv h₃
  obtain ⟨_, -, rfl⟩ := Decoded.map_ok_inv h₄
  rcases Field.optional_ok_inv hd with ⟨-, rfl⟩ | ⟨_, w, -, read⟩
  · exact ⟨"", rfl⟩
  · exact NodeData.isText_of_decode read

theorem Sync.Payload.isText_of_decode {p : Payload} (h : decode src v = .ok p) :
    ∀ ns, p.nodes = some ns → ∀ n ∈ ns, n.data.label.IsText := by
  obtain ⟨members, -, h₁⟩ := Record.decode_ok_inv h
  obtain ⟨_, _, h₂, -, rfl⟩ := Decoded.seq_ok_inv h₁
  obtain ⟨_, _, h₃, -, rfl⟩ := Decoded.seq_ok_inv h₂
  obtain ⟨_, _, h₄, -, rfl⟩ := Decoded.seq_ok_inv h₃
  obtain ⟨_, nodes, h₅, hn, rfl⟩ := Decoded.seq_ok_inv h₄
  obtain ⟨_, _, h₆, -, rfl⟩ := Decoded.seq_ok_inv h₅
  obtain ⟨_, -, rfl⟩ := Decoded.map_ok_inv h₆
  rcases Field.optional_ok_inv hn with ⟨-, rfl⟩ | ⟨_, w, -, given⟩
  · exact nofun
  · rcases Decode.nullable_ok_inv given with ⟨-, rfl⟩ | ⟨ns, items, rfl⟩
    · exact nofun
    · rintro _ ⟨⟩ n member
      obtain ⟨w, read⟩ := Decode.list_ok_inv items n member
      exact Node.isText_of_decode read

namespace Column

def givenDefault (members : List (String × Json)) : Json :=
  ((defaultValueField.find? members).map fun p => p.2).getD .null

theorem toJson_of_defaultField {members : List (String × Json)} {x : Option DefaultValue}
    (h : defaultValueField.optional none (Decode.nullable DefaultValue.decode) members = .ok x) :
    Json.ofOption DefaultValue.toJson x = givenDefault members := by
  unfold givenDefault
  rcases Field.optional_ok_inv h with ⟨found, rfl⟩ | ⟨key, v, found, given⟩
  · rw [found]
    rfl
  · rw [found]
    rcases Decode.nullable_ok_inv given with ⟨rfl, rfl⟩ | ⟨d, read, rfl⟩
    · rfl
    · unfold DefaultValue.decode at read
      split at read <;> cases read <;> rfl

theorem get_default {members : List (String × Json)} {c : Column}
    (h : decode src (.obj members) = .ok c) :
    (toWire c).get defaultValueField.wire = givenDefault members := by
  obtain ⟨_, ⟨⟩, h₁⟩ := Record.decode_ok_inv h
  obtain ⟨_, _, h₂, -, rfl⟩ := Decoded.seq_ok_inv h₁
  obtain ⟨_, default, h₃, hd, rfl⟩ := Decoded.seq_ok_inv h₂
  obtain ⟨_, _, h₄, -, rfl⟩ := Decoded.seq_ok_inv h₃
  obtain ⟨_, _, h₅, -, rfl⟩ := Decoded.seq_ok_inv h₄
  obtain ⟨_, _, h₆, -, rfl⟩ := Decoded.seq_ok_inv h₅
  obtain ⟨_, _, h₇, -, rfl⟩ := Decoded.seq_ok_inv h₆
  obtain ⟨_, _, h₈, -, rfl⟩ := Decoded.seq_ok_inv h₇
  obtain ⟨_, -, rfl⟩ := Decoded.map_ok_inv h₈
  have apart : [Field.word "name", Field.word "type", primaryKeyField, Field.word "nullable",
      Field.word "unique", foreignKeyField, defaultValueField, autoIncrementField].Pairwise
      Field.Apart := by decide
  rw [← toJson_of_defaultField hd]
  exact get_wireMembers apart (List.mem_of_getElem? (i := 6) rfl)

end Column

open Column in
theorem NodeColumn.get_default {members : List (String × Json)} {c : NodeColumn}
    (h : decode src (.obj members) = .ok c) :
    (toWire c).get defaultValueField.wire = givenDefault members := by
  obtain ⟨_, ⟨⟩, h₁⟩ := Record.decode_ok_inv h
  obtain ⟨_, _, h₂, -, rfl⟩ := Decoded.seq_ok_inv h₁
  obtain ⟨_, default, h₃, hd, rfl⟩ := Decoded.seq_ok_inv h₂
  obtain ⟨_, _, h₄, -, rfl⟩ := Decoded.seq_ok_inv h₃
  obtain ⟨_, _, h₅, -, rfl⟩ := Decoded.seq_ok_inv h₄
  obtain ⟨_, _, h₆, -, rfl⟩ := Decoded.seq_ok_inv h₅
  obtain ⟨_, _, h₇, -, rfl⟩ := Decoded.seq_ok_inv h₆
  obtain ⟨_, _, h₈, -, rfl⟩ := Decoded.seq_ok_inv h₇
  obtain ⟨_, -, rfl⟩ := Decoded.map_ok_inv h₈
  have apart : [Field.word "title", Field.word "type", primaryKeyField, foreignKeyField,
      Field.word "nullable", Field.word "unique", defaultValueField, autoIncrementField].Pairwise
      Field.Apart := by decide
  rw [← toJson_of_defaultField hd]
  exact get_wireMembers apart (List.mem_of_getElem? (i := 6) rfl)

/-- The kinds of records that are exchanged. -/
inductive Kind where
  | position
  | foreignKey
  | column
  | table
  | relationship
  | schema
  | nodeColumn
  | nodeData
  | node
  | edge
  | textError
  | payload
  deriving DecidableEq

namespace Kind

def Value : Kind → Type
  | position => Position
  | foreignKey => ForeignKey
  | column => Column
  | table => Table
  | relationship => Relationship
  | schema => Schema
  | nodeColumn => NodeColumn
  | nodeData => NodeData
  | node => Node
  | edge => Edge
  | textError => TextError
  | payload => Sync.Payload

instance : (k : Kind) → Record k.Value
  | position => inferInstanceAs (Record Position)
  | foreignKey => inferInstanceAs (Record ForeignKey)
  | column => inferInstanceAs (Record Column)
  | table => inferInstanceAs (Record Table)
  | relationship => inferInstanceAs (Record Relationship)
  | schema => inferInstanceAs (Record Schema)
  | nodeColumn => inferInstanceAs (Record NodeColumn)
  | nodeData => inferInstanceAs (Record NodeData)
  | node => inferInstanceAs (Record Node)
  | edge => inferInstanceAs (Record Edge)
  | textError => inferInstanceAs (Record TextError)
  | payload => inferInstanceAs (Record Sync.Payload)

/-- A value in normal form: it is read as a record and written on the wire. -/
def normalise (k : Kind) (src : Source) (v : Json) : Decoded Json :=
  toWire <$> (decode src v : Decoded k.Value)

/-- What was read of a value is read again of its wire form. -/
theorem decode_toWire (k : Kind) {a : k.Value} (h : decode src v = .ok a) (again : Source) :
    decode again (toWire a) = .ok a := by
  cases k with
  | position => exact Position.decode_toWire again a
  | foreignKey => exact ForeignKey.decode_toWire again a
  | column => exact Column.decode_toWire again a
  | table => exact Table.decode_toWire again a
  | relationship => exact Relationship.decode_toWire again a
  | schema => exact Schema.decode_toWire again a
  | nodeColumn => exact NodeColumn.decode_toWire again a
  | nodeData => exact NodeData.decode_toWire_of_text again (NodeData.isText_of_decode h)
  | node => exact Node.decode_toWire_of_text again (Node.isText_of_decode h)
  | edge => exact Edge.decode_toWire again a
  | textError => exact TextError.decode_toWire again a
  | payload => exact Sync.Payload.decode_toWire again (Sync.Payload.isText_of_decode h)

theorem normalise_normalise (k : Kind) {w : Json} (h : k.normalise src v = .ok w) (again : Source) :
    k.normalise again w = .ok w := by
  obtain ⟨a, read, rfl⟩ := Decoded.map_ok_inv h
  exact map_eq _ (k.decode_toWire read again)

end Kind

end SchemaDiagram
