import Mathlib.Data.List.Nodup
import SchemaDiagram.Proofs.ColumnUpdates

/-!
Values for some fields of a record. They can be written under the wire spellings of the fields or under
the plain ones, and the record that is read of them is written in full as far as they give it. Field by
field the same is read of each.
-/

set_option autoImplicit false

namespace SchemaDiagram

open Decode (text)

structure Given (fields : List Field) (α : Type) where
  entries : List (Field × α)
  known : ∀ p ∈ entries, p.1 ∈ fields
  once : (entries.map fun p => p.1).Nodup

def spelledMembers (form : Form) (entries : List (Field × Json)) : List (String × Json) :=
  entries.map fun p => (form.key p.1, p.2)

/-- What the value that a record was read of has given of it: the full form without the other fields. -/
def Record.given {α : Type} [Record α] (v : Json) (a : α) : Json :=
  (Record.shape α).given v (Record.write .full a)

namespace Json

variable {key : String} {v : Json} {members : List (String × Json)}

theorem lookup_of_mem (distinct : (members.map fun m => m.1).Nodup) (h : (key, v) ∈ members) :
    lookup key members = some v := by
  induction members with
  | nil => cases h
  | cons m rest ih =>
    obtain ⟨new, distinct⟩ := List.nodup_cons.mp distinct
    rcases List.mem_cons.mp h with rfl | hr
    · exact if_pos rfl
    · have other : m.1 ≠ key := by
        rintro rfl
        exact new (List.mem_map.mpr ⟨_, hr, rfl⟩)
      rw [lookup, if_neg other, ih distinct hr]

theorem merge_append {updates : List (String × Json)}
    (distinct : ((members ++ updates).map fun m => m.1).Nodup) :
    merge members updates = members ++ updates := by
  induction updates generalizing members with
  | nil => exact (List.append_nil members).symm
  | cons m rest ih =>
    have absent : m.1 ∉ members.map fun m => m.1 := by
      rw [List.map_append, List.nodup_append'] at distinct
      exact fun h => distinct.2.2 h List.mem_cons_self
    change merge (store m.1 m.2 members) rest = _
    rw [store_of_absent absent, ih (by simpa using distinct)]
    simp

end Json

namespace Field

variable {entries : List (Field × Json)} {f : Field} {v : Json} {form : Form}

theorem separate_given {fields : List Field} {α : Type} (g : Given fields α)
    (apart : ∀ x ∈ fields, ∀ y ∈ fields, x ≠ y → x.Apart y ∧ x.plain ≠ y.plain) :
    Separate (g.entries.map fun p => p.1) := by
  refine List.Nodup.pairwise_of_forall_ne g.once fun x hx y hy other => ?_
  obtain ⟨p, hp, rfl⟩ := List.mem_map.mp hx
  obtain ⟨q, hq, rfl⟩ := List.mem_map.mp hy
  exact apart _ (g.known p hp) _ (g.known q hq) other

theorem keys_spelledMembers (separate : Separate (entries.map fun p => p.1)) :
    ((spelledMembers form entries).map fun m => m.1).Nodup := by
  have keys : (spelledMembers form entries).map (fun m => m.1) =
      (entries.map fun p => p.1).map form.key := by
    unfold spelledMembers
    rw [List.map_map, List.map_map]
    rfl
  rw [keys]
  refine List.pairwise_map.mpr (separate.imp fun {x y} h => ?_)
  cases form with
  | wire => exact h.1.1
  | full => exact h.2

theorem find?_spelledMembers (separate : Separate (entries.map fun p => p.1)) (h : (f, v) ∈ entries) :
    f.find? (spelledMembers form entries) = some (form.key f, v) := by
  cases form with
  | full => exact find?_fullMembers separate h
  | wire =>
    have found : Json.lookup f.wire (spelledMembers .wire entries) = some v :=
      Json.lookup_of_mem (keys_spelledMembers separate) (List.mem_map_of_mem h)
    unfold find?
    rw [found]
    rfl

theorem find?_spelledMembers_of_absent
    (absent : ∀ p ∈ entries, f.Apart p.1 ∧ f.plain ≠ p.1.plain) :
    f.find? (spelledMembers form entries) = none := by
  have none_of_ne {key : String} (other : ∀ p ∈ entries, form.key p.1 ≠ key) :
      Json.lookup key (spelledMembers form entries) = none := by
    refine Json.lookup_eq_none fun present => ?_
    obtain ⟨m, hm, rfl⟩ := List.mem_map.mp present
    obtain ⟨p, hp, rfl⟩ := List.mem_map.mp hm
    exact other p hp rfl
  unfold find?
  rw [none_of_ne, none_of_ne]
  · rfl
  · intro p hp
    cases form with
    | wire => exact (absent p hp).1.2.1.symm
    | full => exact (absent p hp).2.symm
  · intro p hp
    cases form with
    | wire => exact (absent p hp).1.1.symm
    | full => exact (absent p hp).1.2.2

theorem find?_merge {values members : List (String × Json)}
    (distinct : (members.map fun m => m.1).Nodup)
    (plain : f.wire = f.plain ∨
      f.wire ∉ members.map (fun m => m.1) ∧ f.wire ∉ values.map fun m => m.1) :
    f.find? (Json.merge values members) = (f.find? members).or (f.find? values) := by
  unfold find?
  rw [Json.lookup_merge distinct, Json.lookup_merge distinct]
  rcases plain with same | ⟨absent, absent'⟩
  · rw [same]
    cases Json.lookup f.plain members <;> cases Json.lookup f.plain values <;> rfl
  · rw [Json.lookup_eq_none absent, Json.lookup_eq_none absent']
    cases Json.lookup f.plain members <;> rfl

end Field

namespace Shape

variable {fields : List (Field × Shape)} {source members : List (String × Json)} {f : Field}
  {shape : Shape}

theorem given_leaf (v w : Json) : given .leaf v w = w := by
  rw [given]

theorem given_record : given (.record fields) (.obj source) (.obj members) =
    .obj (givenFields fields source members) := by
  rw [given]

theorem given_null : given (.record fields) .null .null = .null := by
  rw [given]
  intro source members h
  cases h

theorem keys_givenFields :
    ((givenFields fields source members).map fun m => m.1).Sublist
      (fields.map fun p => p.1.plain) := by
  induction fields with
  | nil =>
    rw [givenFields]
    exact .slnil
  | cons p rest ih =>
    rw [givenFields]
    split
    · exact ih.cons_cons _
    · exact ih.cons _

theorem lookup_givenFields_of_ne {key : String} (other : ∀ p ∈ fields, p.1.plain ≠ key) :
    Json.lookup key (givenFields fields source members) = none := by
  refine Json.lookup_eq_none fun present => ?_
  obtain ⟨p, hp, same⟩ := List.mem_map.mp (keys_givenFields.subset present)
  exact other p hp same

theorem find?_givenFields (separate : Field.Separate (fields.map fun p => p.1))
    (h : (f, shape) ∈ fields) :
    f.find? (givenFields fields source members) =
      (f.find? source).bind fun s => (Json.lookup f.plain members).map fun v =>
        (f.plain, given shape s.2 v) := by
  induction fields with
  | nil => cases h
  | cons p rest ih =>
    obtain ⟨g, own⟩ := p
    obtain ⟨hg, hr⟩ := List.pairwise_cons.mp separate
    have others : ∀ q ∈ rest, g.Apart q.1 ∧ g.plain ≠ q.1.plain := fun q hq =>
      hg q.1 (List.mem_map_of_mem hq)
    rw [givenFields]
    rcases List.mem_cons.mp h with head | hm
    · cases head
      have wire : Json.lookup f.wire (givenFields rest source members) = none :=
        lookup_givenFields_of_ne fun q hq => (others q hq).1.2.2
      have plain : Json.lookup f.plain (givenFields rest source members) = none :=
        lookup_givenFields_of_ne fun q hq => (others q hq).2.symm
      cases found : f.find? source with
      | none =>
        rw [Field.find?, wire, plain]
        rfl
      | some s =>
        cases written : Json.lookup f.plain members with
        | none =>
          rw [Field.find?, wire, plain]
          rfl
        | some v =>
          by_cases same : f.plain = f.wire
          · rw [Field.find?, Json.lookup, if_pos same, same]
            rfl
          · rw [Field.find?, Json.lookup, if_neg same, wire, Json.lookup, if_pos rfl]
            rfl
    · obtain ⟨⟨-, wire, -⟩, plain⟩ := others (f, shape) hm
      rw [← ih hr hm]
      split
      · rw [Field.find?, Json.lookup, if_neg wire, Json.lookup, if_neg plain]
        rfl
      · rfl

theorem isSome_find?_givenFields (separate : Field.Separate (fields.map fun p => p.1))
    (h : (f, shape) ∈ fields) (written : (Json.lookup f.plain members).isSome = true) :
    (f.find? (givenFields fields source members)).isSome = (f.find? source).isSome := by
  obtain ⟨w, written⟩ := Option.isSome_iff_exists.mp written
  rw [find?_givenFields separate h, written]
  cases f.find? source <;> rfl

end Shape

section Reading

variable {α : Type} {f : Field} {read : Json → Decoded α} {default x y : α}
  {o o' values members : List (String × Json)}

/-- One object gives a field as another does: it is absent from both, or `x` is read of its value here
    if it is there. -/
def Follows (f : Field) (read : Json → Decoded α) (x : α) (o o' : List (String × Json)) : Prop :=
  f.find? o = none ∧ f.find? o' = none ∨
    ∃ s s', f.find? o = some s ∧ f.find? o' = some s' ∧ (read s.2 = .ok x → read s'.2 = .ok x)

theorem Follows.optional (h : Follows f read x o o') (first : f.optional default read o = .ok x) :
    f.optional default read o' = .ok x := by
  unfold Field.optional at first ⊢
  rcases h with ⟨absent, absent'⟩ | ⟨s, s', found, found', same⟩
  · rw [absent] at first
    rw [absent']
    exact first
  · rw [found] at first
    rw [found']
    exact congrArg (Decoded.within _) (same (Decoded.within_ok_inv first))

theorem Follows.required (h : Follows f read x o o') (first : f.required read o = .ok x) :
    f.required read o' = .ok x := by
  unfold Field.required at first ⊢
  rcases h with ⟨absent, absent'⟩ | ⟨s, s', found, found', same⟩
  · rw [absent] at first
    cases first
  · rw [found] at first
    rw [found']
    exact congrArg (Decoded.within _) (same (Decoded.within_ok_inv first))

/-- The part of a full form that was given follows the value if what is read of a field can be read
    again of the given part of it. -/
theorem follows_given {fields : List (Field × Shape)} {shape : Shape} {w : Json} (i : Nat)
    (separate : Field.Separate (fields.map fun p => p.1)) (h : fields[i]? = some (f, shape))
    (written : Json.lookup f.plain members = some w)
    (back : ∀ s, read s = .ok x → read (shape.given s w) = .ok x) :
    Follows f read x o (Shape.givenFields fields o members) := by
  unfold Follows
  rw [Shape.find?_givenFields separate (List.mem_of_getElem? h), written]
  cases f.find? o with
  | none => exact .inl ⟨rfl, rfl⟩
  | some s => exact .inr ⟨s, _, rfl, rfl, back s.2⟩

theorem follows_leaf {fields : List (Field × Shape)} {w : Json} (i : Nat)
    (separate : Field.Separate (fields.map fun p => p.1)) (h : fields[i]? = some (f, .leaf))
    (written : Json.lookup f.plain members = some w) (back : read w = .ok x) :
    Follows f read x o (Shape.givenFields fields o members) :=
  follows_given i separate h written fun s _ => by rwa [Shape.given_leaf]

theorem follows_spelled {fields : List Field} {β : Type} {g : Given fields β} {w w' : β → Json}
    {form form' : Form}
    (apart : ∀ x ∈ fields, ∀ y ∈ fields, x ≠ y → x.Apart y ∧ x.plain ≠ y.plain) (hf : f ∈ fields)
    (same : ∀ e, read (w e) = .ok x → read (w' e) = .ok x) :
    Follows f read x (spelledMembers form (g.entries.map fun p => (p.1, w p.2)))
      (spelledMembers form' (g.entries.map fun p => (p.1, w' p.2))) := by
  have separate (w : β → Json) :
      Field.Separate ((g.entries.map fun p => (p.1, w p.2)).map fun p => p.1) := by
    rw [List.map_map]
    exact Field.separate_given g apart
  by_cases given : f ∈ g.entries.map fun p => p.1
  · obtain ⟨⟨f, e⟩, he, rfl⟩ := List.mem_map.mp given
    exact .inr ⟨_, _, Field.find?_spelledMembers (separate w) (List.mem_map.mpr ⟨_, he, rfl⟩),
      Field.find?_spelledMembers (separate w') (List.mem_map.mpr ⟨_, he, rfl⟩), same e⟩
  · have absent (w : β → Json) (form : Form) :
        f.find? (spelledMembers form (g.entries.map fun p => (p.1, w p.2))) = none := by
      refine Field.find?_spelledMembers_of_absent fun p hp => ?_
      obtain ⟨q, hq, rfl⟩ := List.mem_map.mp hp
      refine apart f hf q.1 (g.known q hq) ?_
      rintro rfl
      exact given (List.mem_map_of_mem hq)
    exact .inl ⟨absent w form, absent w' form'⟩

theorem optional_merge (distinct : (members.map fun m => m.1).Nodup)
    (plain : f.wire = f.plain ∨
      f.wire ∉ members.map (fun m => m.1) ∧ f.wire ∉ values.map fun m => m.1)
    (stored : f.optional default read members = .ok x)
    (before : f.optional default read values = .ok y) :
    f.optional default read (Json.merge values members) =
      .ok (if (f.find? members).isSome then x else y) := by
  unfold Field.optional at *
  rw [Field.find?_merge distinct plain]
  cases found : f.find? members with
  | none => exact before
  | some p =>
    rw [found] at stored
    exact stored

end Reading

end SchemaDiagram
