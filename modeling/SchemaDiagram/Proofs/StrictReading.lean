import SchemaDiagram.Proofs.JsonText

/-!
What is read of a text in the strict dialect fits: it is not nested deeper than the reader goes, its integers
have no more digits than the limit, the names of its members differ, and its strings hold no unit that stands
alone. So it can be written and is read again.
-/

set_option autoImplicit false

namespace SchemaDiagram.Json

open Decimal (isAsciiDigit ofDigits maxDigits)

variable {fuel room : ℕ} {cs rest : List Char} {acc : List Char} {s : String} {v : Json}

theorem isPlain_of_readString (read : readString .strict fuel acc cs = .ok (s, rest)) : IsPlain s := by
  induction fuel generalizing acc cs with
  | zero =>
    rw [readString] at read
    cases read
  | succ fuel ih =>
    unfold readString at read
    split at read
    · cases read
    · dsimp only at read
      split at read
      · cases read
      · rename_i plain
        cases read
        simpa [IsPlain] using plain
    · split at read
      · exact ih read
      · cases read
    · split at read
      · exact ih read
      · cases read
    · split at read
      · cases read
      · exact ih read

theorem ofDigits_lt {ds : List Char} (digits : ∀ c ∈ ds, isAsciiDigit c = true) :
    ofDigits ds < 10 ^ ds.length := by
  induction ds with
  | nil => decide
  | cons c ds ih =>
    obtain ⟨here, later⟩ := List.forall_mem_cons.mp digits
    have split : ofDigits (c :: ds) = 10 ^ ds.length * (c.toNat - 48) + ofDigits ds :=
      (Decimal.ofDigits_append [c] ds).trans (by simp [ofDigits])
    have digit : c.toNat - 48 ≤ 9 := by
      simp only [isAsciiDigit, Bool.and_eq_true, decide_eq_true_eq] at here
      have : c.toNat ≤ 57 := here.2
      omega
    have rest := ih later
    rw [split, List.length_cons, pow_succ]
    have := Nat.mul_le_mul_left (10 ^ ds.length) digit
    omega

theorem fits_of_readNumber {negative : Bool} (read : readNumber .strict negative cs = .ok (v, rest)) :
    Fits room v := by
  have few (short : ¬ maxDigits < (cs.takeWhile isAsciiDigit).length) :
      ofDigits (cs.takeWhile isAsciiDigit) < 10 ^ maxDigits := by
    refine (ofDigits_lt fun c hc => List.mem_takeWhile_imp hc).trans_le ?_
    exact Nat.pow_le_pow_right (by decide) (Nat.not_lt.mp short)
  unfold readNumber at read
  dsimp only at read
  split at read
  · cases read
  · rename_i short
    have few := few (by simpa using short)
    split at read
    · cases read
    · split at read
      · cases read
      · split at read
        · cases read
        · split at read
          · cases read
          · split at read
            · split at read
              · cases read
              · cases read
                refine .int ?_
                split <;> simpa using few
            · cases read
              exact .float _
          · cases read
            exact .float _

theorem fits_of_readAtom (read : readAtom .strict cs = .ok (v, rest)) : Fits room v := by
  unfold readAtom at read
  split at read
  · cases read
    exact .null
  · cases read
    exact .bool true
  · cases read
    exact .bool false
  · split at read
    · cases read
      exact .float _
    · cases read
      exact .float _
    · cases read
      exact .float _
    · split at read
      · exact fits_of_readNumber read
      · exact fits_of_readNumber read

theorem ok_of_map {ε α β : Type} {f : α → β} {a : Except ε α} {b : β} (h : a.map f = .ok b) :
    ∃ x, a = .ok x ∧ f x = b := by
  cases a with
  | error e => cases h
  | ok x => exact ⟨x, rfl, Except.ok.inj h⟩

section Store

variable {key : String} {members : List (String × Json)}

theorem keys_store :
    (store key v members).map (fun m => m.1) =
      if key ∈ members.map fun m => m.1 then members.map fun m => m.1
      else members.map (fun m => m.1) ++ [key] := by
  induction members with
  | nil => rfl
  | cons m rest ih =>
    by_cases same : m.1 = key
    · simp [store, same]
    · have other : key ≠ m.1 := Ne.symm same
      rw [store, if_neg same, List.map_cons, ih]
      by_cases present : key ∈ rest.map fun m => m.1
      · simp_all
      · simp_all

theorem mem_store {m : String × Json} (h : m ∈ store key v members) : m = (key, v) ∨ m ∈ members := by
  induction members with
  | nil => exact .inl (List.mem_singleton.mp h)
  | cons n rest ih =>
    rw [store] at h
    split at h
    · exact (List.mem_cons.mp h).imp_right (List.mem_cons_of_mem n)
    · rcases List.mem_cons.mp h with rfl | h
      · exact .inr List.mem_cons_self
      · exact (ih h).imp_right (List.mem_cons_of_mem n)

structure MembersFit (room : ℕ) (ms : List (String × Json)) : Prop where
  distinct : (ms.map fun m => m.1).Nodup
  names : ∀ m ∈ ms, IsPlain m.1
  values : ∀ m ∈ ms, Fits room m.2

theorem MembersFit.store (h : MembersFit room members) (plain : IsPlain key) (fits : Fits room v) :
    MembersFit room (store key v members) := by
  refine ⟨?_, fun m hm => ?_, fun m hm => ?_⟩
  · rw [keys_store]
    split
    · exact h.distinct
    · exact List.nodup_append_comm.mp (List.nodup_cons.mpr ⟨‹_›, h.distinct⟩)
  · rcases mem_store hm with rfl | hm
    · exact plain
    · exact h.names m hm
  · rcases mem_store hm with rfl | hm
    · exact fits
    · exact h.values m hm

end Store

/-- What is read with so much fuel fits. -/
structure ReadsFit (fuel : ℕ) : Prop where
  value : ∀ {room cs v rest}, readValue .strict fuel room cs = .ok (v, rest) → Fits (room + 1) v
  items : ∀ {room acc cs xs rest}, readItems .strict fuel room acc cs = .ok (xs, rest) →
    (∀ x ∈ acc, Fits (room + 1) x) → ∀ x ∈ xs, Fits (room + 1) x
  members : ∀ {room acc cs ms rest}, readMembers .strict fuel room acc cs = .ok (ms, rest) →
    MembersFit (room + 1) acc → MembersFit (room + 1) ms

theorem reads_fit (fuel : ℕ) : ReadsFit fuel := by
  induction fuel with
  | zero =>
    constructor
    · intro room cs v rest read
      rw [readValue] at read
      cases read
    · intro room acc cs xs rest read
      rw [readItems] at read
      cases read
    · intro room acc cs ms rest read
      rw [readMembers] at read
      cases read
  | succ fuel ih =>
    constructor
    · intro room cs v rest read
      rw [readValue] at read
      split at read
      · split at read
        · cases read
        · split at read
          · cases read
            exact .arr (List.forall_mem_nil _)
          · cases read
          · rename_i room _
            obtain ⟨⟨xs, rest⟩, items, same⟩ := ok_of_map read
            cases same
            exact .arr (ih.items items (List.forall_mem_nil _))
      · split at read
        · cases read
        · split at read
          · cases read
            exact .obj .nil (List.forall_mem_nil _) (List.forall_mem_nil _)
          · cases read
          · rename_i room _
            obtain ⟨⟨ms, rest⟩, members, same⟩ := ok_of_map read
            cases same
            have fits := ih.members members ⟨.nil, List.forall_mem_nil _, List.forall_mem_nil _⟩
            exact .obj fits.distinct fits.names fits.values
      · obtain ⟨⟨s, rest⟩, quoted, same⟩ := ok_of_map read
        cases same
        exact .str (isPlain_of_readString quoted)
      · exact fits_of_readAtom read
    · intro room acc cs xs rest read before
      rw [readItems] at read
      split at read
      · cases read
      · rename_i v rest' value
        have more : ∀ x ∈ v :: acc, Fits (room + 1) x := List.forall_mem_cons.mpr ⟨ih.value value, before⟩
        split at read
        · exact ih.items read more
        · cases read
          exact fun x hx => more x (List.mem_reverse.mp hx)
        · cases read
    · intro room acc cs ms rest read before
      rw [readMembers] at read
      split at read
      · split at read
        · cases read
        · rename_i key after quoted
          split at read
          · split at read
            · cases read
            · rename_i v rest' value
              have more := before.store (isPlain_of_readString quoted) (ih.value value)
              split at read
              · exact ih.members read more
              · cases read
                exact more
              · cases read
          · cases read
      · cases read

/-- What a text stands for in the strict dialect can be written and is read again. -/
theorem fits_of_parse {text : String} (read : parse .strict text = .ok v) : Fits 201 v := by
  unfold parse at read
  dsimp only at read
  split at read
  · cases read
  · rename_i value
    split at read
    · cases read
      exact (reads_fit _).value value
    · cases read

end SchemaDiagram.Json
