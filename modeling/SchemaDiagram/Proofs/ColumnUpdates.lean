import SchemaDiagram.Diagram.Edit
import SchemaDiagram.Proofs.Results
import SchemaDiagram.Proofs.WireReturn

/-!
What an update makes of a column. The column is written in full, with all its fields under their plain
spellings; the members of the update are stored over that, and the outcome is read as a column again.
Each field is read on its own, so a field that the update does not give comes back as it was.
-/

set_option autoImplicit false

namespace SchemaDiagram

open Decode (nullable text)
open Decoded (map_eq seq_eq)
open Record (decode write)

namespace Json

variable {key : String} {members updates : List (String × Json)}

theorem lookup_merge_of_absent (absent : key ∉ updates.map fun m => m.1) :
    lookup key (merge members updates) = lookup key members := by
  induction updates generalizing members with
  | nil => rfl
  | cons m rest ih =>
    obtain ⟨k, v⟩ := m
    obtain ⟨other, absent⟩ := not_or.mp (mt List.mem_cons.mpr absent)
    change lookup key (merge (store k v members) rest) = _
    rw [ih absent, lookup_store_of_ne v members (Ne.symm other)]

theorem lookup_merge (distinct : (updates.map fun m => m.1).Nodup) (members : List (String × Json))
    (key : String) :
    lookup key (merge members updates) = (lookup key updates).or (lookup key members) := by
  induction updates generalizing members with
  | nil => rfl
  | cons m rest ih =>
    obtain ⟨k, v⟩ := m
    obtain ⟨new, distinct⟩ := List.nodup_cons.mp distinct
    change lookup key (merge (store k v members) rest) = _
    rw [ih distinct, lookup]
    by_cases hk : k = key
    · subst hk
      rw [if_pos rfl, lookup_eq_none new, lookup_store_self]
      rfl
    · rw [if_neg hk, lookup_store_of_ne v members hk]

theorem lookup_merge_isSome (given : (lookup key members).isSome = true) :
    (lookup key (merge members updates)).isSome = true := by
  induction updates generalizing members with
  | nil => exact given
  | cons m rest ih =>
    obtain ⟨k, v⟩ := m
    change (lookup key (merge (store k v members) rest)).isSome = true
    refine ih ?_
    by_cases same : k = key
    · rw [same, lookup_store_self]
      rfl
    · rw [lookup_store_of_ne v members same]
      exact given

theorem key_of_mem_store {k : String} {v : Json}
    (h : key ∈ (store k v members).map fun m => m.1) :
    key = k ∨ key ∈ members.map fun m => m.1 := by
  induction members with
  | nil => exact .inl (List.mem_singleton.mp h)
  | cons m rest ih =>
    obtain ⟨k', v'⟩ := m
    rw [store] at h
    split at h
    · exact (List.mem_cons.mp h).imp_right (List.mem_cons_of_mem k')
    · rcases List.mem_cons.mp h with rfl | h
      · exact .inr List.mem_cons_self
      · exact (ih h).imp_right (List.mem_cons_of_mem k')

theorem key_of_mem_merge (h : key ∈ (merge members updates).map fun m => m.1) :
    key ∈ members.map (fun m => m.1) ∨ key ∈ updates.map fun m => m.1 := by
  induction updates generalizing members with
  | nil => exact .inl h
  | cons m rest ih =>
    change key ∈ (merge (store m.1 m.2 members) rest).map fun m => m.1 at h
    rcases ih h with h | h
    · rcases key_of_mem_store h with rfl | h
      · exact .inr List.mem_cons_self
      · exact .inl h
    · exact .inr (List.mem_cons_of_mem m.1 h)

end Json

def fullMembers (fields : List (Field × Json)) : List (String × Json) :=
  fields.map fun p => (p.1.plain, p.2)

/-- Fields do not get in each other's way in either form. -/
def Field.Separate (fields : List Field) : Prop :=
  fields.Pairwise fun f g => f.Apart g ∧ f.plain ≠ g.plain

instance (fields : List Field) : Decidable (Field.Separate fields) :=
  inferInstanceAs (Decidable (List.Pairwise _ _))

section Reading

variable {α : Type} {read : Json → Decoded α} {x : α} {v : Json} {fields : List (Field × Json)}
  {f : Field}

theorem lookup_fullMembers_of_ne {key : String} (other : ∀ p ∈ fields, p.1.plain ≠ key) :
    Json.lookup key (fullMembers fields) = none := by
  refine Json.lookup_eq_none fun present => ?_
  obtain ⟨m, hm, rfl⟩ := List.mem_map.mp present
  obtain ⟨p, hp, rfl⟩ := List.mem_map.mp hm
  exact other p hp rfl

theorem Field.find?_fullMembers (separate : Field.Separate (fields.map fun p => p.1))
    (h : (f, v) ∈ fields) : f.find? (fullMembers fields) = some (f.plain, v) := by
  induction fields with
  | nil => cases h
  | cons p rest ih =>
    obtain ⟨g, w⟩ := p
    obtain ⟨hg, hr⟩ := List.pairwise_cons.mp separate
    have others : ∀ q ∈ rest, g.Apart q.1 ∧ g.plain ≠ q.1.plain := fun q hq =>
      hg q.1 (List.mem_map_of_mem hq)
    change f.find? ((g.plain, w) :: fullMembers rest) = _
    rcases List.mem_cons.mp h with head | hm
    · cases head
      by_cases same : f.plain = f.wire
      · rw [find?, Json.lookup, if_pos same, same]
      · rw [find?, Json.lookup, if_neg same, lookup_fullMembers_of_ne fun q hq =>
          (others q hq).1.2.2, Json.lookup, if_pos rfl]
        rfl
    · obtain ⟨⟨-, wire, -⟩, plain⟩ := others (f, v) hm
      rw [← ih hr hm, find?, Json.lookup, if_neg wire, Json.lookup, if_neg plain]
      rfl

theorem optional_full {default : α} (i : Nat) (separate : Field.Separate (fields.map fun p => p.1))
    (h : fields[i]? = some (f, v)) (back : read v = .ok x) :
    f.optional default read (fullMembers fields) = .ok x := by
  unfold Field.optional
  rw [Field.find?_fullMembers separate (List.mem_of_getElem? h)]
  exact congrArg (Decoded.within _) back

theorem required_full (i : Nat) (separate : Field.Separate (fields.map fun p => p.1))
    (h : fields[i]? = some (f, v)) (back : read v = .ok x) :
    f.required read (fullMembers fields) = .ok x := by
  unfold Field.required
  rw [Field.find?_fullMembers separate (List.mem_of_getElem? h)]
  exact congrArg (Decoded.within _) back

theorem Returns.nullable {x : Option α} (h : Returns (nullable read) none x v) :
    Decode.nullable read v = .ok x := by
  unfold Returns at h
  split at h
  · rename_i null
    rw [null, h]
    rfl
  · exact h

end Reading

open Returns (option optionDefault optionFlag)

open ForeignKey in
theorem ForeignKey.decode_full (src : Source) (k : ForeignKey) :
    decode src (write .full k) = .ok k := by
  have separate : Field.Separate
      [Field.word "table", Field.word "column", onDeleteField, onUpdateField] := by decide
  have action (a : ReferentialAction) :
      Json.str a.spelling ≠ .null ∧ ReferentialAction.decode (.str a.spelling) = .ok a :=
    ⟨nofun, a.decode_spelling⟩
  refine seq_eq (seq_eq (seq_eq (map_eq _ ?_) ?_) ?_) ?_
  · exact required_full 0 separate rfl rfl
  · exact required_full 1 separate rfl rfl
  · exact optional_full 2 separate rfl (option action k.onDelete).nullable
  · exact optional_full 3 separate rfl (option action k.onUpdate).nullable

namespace NodeColumn

open Diagram (columnFields)

def fields (c : NodeColumn) : List (Field × Json) := [
  (Field.word "title", .str c.title),
  (Field.word "type", .str c.type),
  (Column.primaryKeyField, .ofOption .bool c.primaryKey),
  (Column.foreignKeyField, .ofOption (write .full) c.foreignKey),
  (Field.word "nullable", .ofOption .bool c.nullable),
  (Field.word "unique", .ofOption .bool c.unique),
  (Column.defaultValueField, .ofOption DefaultValue.toJson c.defaultValue),
  (Column.autoIncrementField, .ofOption .bool c.autoIncrement)]

theorem separate_fields (c : NodeColumn) : Field.Separate (c.fields.map fun p => p.1) := by
  change Field.Separate columnFields
  decide

theorem read_full (src : Source) (c : NodeColumn) :
    Record.read src (fullMembers c.fields) = .ok c := by
  have separate := c.separate_fields
  have key (k : ForeignKey) : write .full k ≠ .null ∧ decode src (write .full k) = .ok k :=
    ⟨nofun, k.decode_full src⟩
  refine seq_eq (seq_eq (seq_eq (seq_eq (seq_eq (seq_eq (seq_eq (map_eq _
    ?_) ?_) ?_) ?_) ?_) ?_) ?_) ?_
  · exact optional_full 0 separate rfl rfl
  · exact optional_full 1 separate rfl rfl
  · exact optional_full 2 separate rfl (optionFlag c.primaryKey).nullable
  · exact optional_full 3 separate rfl (option key c.foreignKey).nullable
  · exact optional_full 4 separate rfl (optionFlag c.nullable).nullable
  · exact optional_full 5 separate rfl (optionFlag c.unique).nullable
  · exact optional_full 6 separate rfl (optionDefault c.defaultValue).nullable
  · exact optional_full 7 separate rfl (optionFlag c.autoIncrement).nullable

theorem read_congr {src : Source} {o o' : List (String × Json)}
    (same : ∀ f ∈ columnFields, f.find? o = f.find? o') :
    (Record.read src o : Decoded NodeColumn) = Record.read src o' := by
  have field {α : Type} {f : Field} (hf : f ∈ columnFields) (default : α) (read : Json → Decoded α) :
      f.optional default read o = f.optional default read o' := by
    unfold Field.optional
    rw [same f hf]
  simp only [Record.read]
  simp only [field (f := Field.word "title") (by decide),
    field (f := Field.word "type") (by decide), field (f := Column.primaryKeyField) (by decide),
    field (f := Column.foreignKeyField) (by decide), field (f := Field.word "nullable") (by decide),
    field (f := Field.word "unique") (by decide), field (f := Column.defaultValueField) (by decide),
    field (f := Column.autoIncrementField) (by decide)]

end NodeColumn

namespace Diagram

/-- Of the fields of a column the update gives the title at most. -/
def TitleOnly (update : Json) : Prop :=
  ∀ m ∈ membersOf update, ∀ f ∈ columnFields, plainKey m.1 = f.plain → f.plain = "title"

instance (update : Json) : Decidable (TitleOnly update) :=
  inferInstanceAs (Decidable (∀ m ∈ _, _))

variable {update : Json} {values members : List (String × Json)} {c u : NodeColumn}

theorem mergeColumn_ok :
    mergeColumn values update = .ok u ↔
      ∃ members, updateMembers update = .ok members ∧
        Record.read .value (Json.merge values members) = .ok u := by
  constructor
  · intro h
    obtain ⟨members, hm, h⟩ := Result.bind_ok h
    exact ⟨members, hm, Record.validated_ok.mp h⟩
  · rintro ⟨members, hm, h⟩
    unfold mergeColumn
    rw [hm]
    exact Record.validated_ok.mpr h

theorem plainKey_eq_plain {key : String} {f : Field} (hf : f ∈ columnFields)
    (h : plainKey key = f.wire) : plainKey key = f.plain := by
  have apart : ∀ g ∈ columnFields, ∀ f ∈ columnFields, g.plain = f.wire → g.plain = f.plain := by
    decide
  unfold plainKey at h ⊢
  cases found : columnFields.find? fun g => g.wire = key with
  | some g =>
    rw [found] at h
    exact apart g (List.mem_of_find?_eq_some found) f hf h
  | none =>
    rw [found] at h
    rw [List.find?_eq_none] at found
    exact absurd (decide_eq_true h.symm) (found f hf)

theorem key_of_updateMembers (h : updateMembers update = .ok members) {key : String}
    (given : key ∈ members.map fun m => m.1) : ∃ m ∈ membersOf update, plainKey m.1 = key := by
  unfold updateMembers at h
  split at h
  · cases h
    rcases Json.key_of_mem_merge given with none | given
    · cases none
    · rw [List.map_map] at given
      exact List.mem_map.mp given
  · cases h

theorem TitleOnly.find?_merge (only : TitleOnly update) (hm : updateMembers update = .ok members)
    {f : Field} (hf : f ∈ columnFields) (other : f.plain ≠ "title") :
    f.find? (Json.merge values members) = f.find? values := by
  have plain : f.plain ∉ members.map fun m => m.1 := by
    intro given
    obtain ⟨m, hm, key⟩ := key_of_updateMembers hm given
    exact other (only m hm f hf key)
  have wire : f.wire ∉ members.map fun m => m.1 := by
    intro given
    obtain ⟨m, hm, key⟩ := key_of_updateMembers hm given
    exact other (only m hm f hf (plainKey_eq_plain hf key))
  unfold Field.find?
  rw [Json.lookup_merge_of_absent plain, Json.lookup_merge_of_absent wire]

theorem store_title (c : NodeColumn) (title : String) :
    Json.store "title" (.str title) (fullMembers c.fields) =
      fullMembers { c with title := title }.fields :=
  rfl

theorem find?_title {o : List (String × Json)} (given : (Json.lookup "title" o).isSome = true)
    (read : Record.read .value o = .ok u) :
    (Field.word "title").find? o = some ("title", .str u.title) := by
  -- the title is the first of eight fields
  iterate 7
    replace read := Decoded.seq_ok_inv read
    obtain ⟨_, _, read, -, rfl⟩ := read
  obtain ⟨title, first, rfl⟩ := Decoded.map_ok_inv read
  obtain ⟨v, hv⟩ := Option.isSome_iff_exists.mp given
  have found : (Field.word "title").find? o = some ("title", v) := by
    unfold Field.find? Field.word
    rw [hv]
  have text : text v = .ok title := by
    unfold Field.optional at first
    rw [found] at first
    exact Decoded.within_ok_inv first
  cases v with
  | str s =>
    cases text
    exact found
  | null | bool | int | float | arr | obj => cases text

theorem TitleOnly.merged (only : TitleOnly update)
    (h : mergeColumn (membersOf (write .full c)) update = .ok u) : u = { c with title := u.title } := by
  obtain ⟨members, hm, read⟩ := mergeColumn_ok.mp h
  have title_field : ∀ f ∈ columnFields, f.plain = "title" → f = Field.word "title" := by decide
  have wire_title : ∀ f ∈ columnFields, f.wire = "title" → f.plain = "title" := by decide
  -- the title is found as it was read, any other field as it was, so `c` with that title is read
  have same : ∀ f ∈ columnFields, f.find? (Json.merge (fullMembers c.fields) members) =
      f.find? (Json.store "title" (.str u.title) (fullMembers c.fields)) := by
    intro f hf
    by_cases title : f.plain = "title"
    · obtain rfl : f = Field.word "title" := title_field f hf title
      have given : (Json.lookup "title" (fullMembers c.fields)).isSome = true := rfl
      rw [find?_title (Json.lookup_merge_isSome given) read, Field.find?, Field.word,
        Json.lookup_store_self]
    · rw [only.find?_merge hm hf title]
      have wire : f.wire ≠ "title" := fun same => title (wire_title f hf same)
      unfold Field.find?
      rw [Json.lookup_store_of_ne _ _ (Ne.symm title), Json.lookup_store_of_ne _ _ (Ne.symm wire)]
  have again : Record.read .value (fullMembers { c with title := u.title }.fields) = .ok u := by
    rw [← store_title, ← NodeColumn.read_congr same]
    exact read
  rw [NodeColumn.read_full] at again
  exact (Decoded.ok.inj again).symm

theorem mergeColumn_title (c : NodeColumn) (title : String) :
    mergeColumn (membersOf (write .full c)) (.obj [("title", .str title)]) =
      .ok { c with title := title } := by
  have plain : plainKey "title" = "title" := by decide
  have members : updateMembers (.obj [("title", .str title)]) = .ok [("title", .str title)] := by
    simp only [updateMembers, List.map_cons, List.map_nil, plain]
    rfl
  refine mergeColumn_ok.mpr ⟨_, members, ?_⟩
  have stored : Json.merge (membersOf (write .full c)) [("title", .str title)] =
      fullMembers { c with title := title }.fields := store_title c title
  rw [stored, NodeColumn.read_full]

end Diagram

end SchemaDiagram
