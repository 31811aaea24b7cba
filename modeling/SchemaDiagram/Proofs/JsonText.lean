import SchemaDiagram.Proofs.Numerals

/-!
Values come back from their text. What is written for a value is read as the value, whatever follows it, as
long as it is not nested deeper than the reader goes, its integers have no more digits than it takes, the
names of its members differ, and its strings have no unit that stands alone.
-/

set_option autoImplicit false

namespace SchemaDiagram.Json

open Decimal (Closes maxDigits)
open Text (unpaired? hasUnpaired)

variable {d : Dialect} {rest : List Char}

theorem hexValue?_digitChar {n : ℕ} (h : n < 16) : hexValue? (Nat.digitChar n) = some n := by
  interval_cases n <;> decide

theorem hexDigits_eq {n : ℕ} (h : n < 0x10000) :
    hexDigits 4 n = [Nat.digitChar (n / 16 / 16 / 16), Nat.digitChar (n / 16 / 16 % 16),
      Nat.digitChar (n / 16 % 16), Nat.digitChar (n % 16)] := by
  have split (m : ℕ) : Nat.toDigits 16 m =
      if m < 16 then [m.digitChar] else Nat.toDigits 16 (m / 16) ++ [(m % 16).digitChar] :=
    Nat.toDigits_eq_if (by decide)
  unfold hexDigits
  dsimp only
  rw [split n]
  by_cases one : n < 16
  · rw [if_pos one, Nat.div_eq_of_lt one, Nat.mod_eq_of_lt one]
    rfl
  · rw [if_neg one, split (n / 16)]
    by_cases two : n / 16 < 16
    · rw [if_pos two, Nat.div_eq_of_lt two, Nat.mod_eq_of_lt two]
      rfl
    · rw [if_neg two, split (n / 16 / 16)]
      by_cases three : n / 16 / 16 < 16
      · rw [if_pos three, Nat.div_eq_of_lt three, Nat.mod_eq_of_lt three]
        rfl
      · rw [if_neg three, split (n / 16 / 16 / 16), if_pos (by omega)]
        rfl

theorem unit?_hexDigits {n : ℕ} (h : n < 0x10000) : unit? (hexDigits 4 n ++ rest) = some (n, rest) := by
  have value (m : ℕ) : hexValue? (Nat.digitChar (m % 16)) = some (m % 16) :=
    hexValue?_digitChar (Nat.mod_lt m (by decide))
  rw [hexDigits_eq h]
  simp only [unit?, List.cons_append, List.nil_append, value, hexValue?_digitChar (show n / 16 / 16 / 16 < 16 by omega)]
  simp only [bind, Option.bind, pure]
  congr 2
  omega

theorem unitChar?_unit {n : ℕ} (h : n < 0x10000) (high : Text.isHighUnit n = false)
    (low : Text.isLowUnit n = false) :
    unitChar? d (hexDigits 4 n ++ rest) = some (Char.ofNat n, rest) := by
  simp [unitChar?, unit?_hexDigits h, high, low]

theorem unitChar?_pair {high low : ℕ} (first : Text.isHighUnit high = true) (second : Text.isLowUnit low = true) :
    unitChar? d (hexDigits 4 high ++ (escapeUnit low ++ rest)) = some (Text.ofPair high low, rest) := by
  have high_lt : high < 0x10000 := by
    simp only [Text.isHighUnit, Bool.and_eq_true, decide_eq_true_eq] at first
    omega
  have low_lt : low < 0x10000 := by
    simp only [Text.isLowUnit, Bool.and_eq_true, decide_eq_true_eq] at second
    omega
  simp [unitChar?, escapeUnit, unit?_hexDigits high_lt, unit?_hexDigits low_lt, first, second]

theorem readString_cons {c : Char} (quote : c ≠ '"') (slash : c ≠ '\\') (visible : 0x20 ≤ c.toNat)
    (fuel : ℕ) (acc : List Char) : readString d (fuel + 1) acc (c :: rest) = readString d fuel (c :: acc) rest := by
  have low : ¬ c.toNat < 0x20 := Nat.not_lt.mpr visible
  conv_lhs => unfold readString
  split
  · contradiction
  · rename_i same
    exact absurd (List.cons.inj same).1 quote
  · rename_i same
    exact absurd (List.cons.inj same).1 slash
  · rename_i same
    exact absurd (List.cons.inj same).1 slash
  · rename_i same
    obtain ⟨rfl, rfl⟩ := List.cons.inj same
    simp [low, slash]

theorem readString_unit {c : Char} {cs after : List Char} (read : unitChar? d cs = some (c, after)) (fuel : ℕ)
    (acc : List Char) : readString d (fuel + 1) acc ('\\' :: 'u' :: cs) = readString d fuel (c :: acc) after := by
  conv_lhs => unfold readString
  simp only [read]

theorem escapeUnit_append (n : ℕ) (cs : List Char) :
    escapeUnit n ++ cs = '\\' :: 'u' :: (hexDigits 4 n ++ cs) := rfl

theorem readString_escapeChar {c : Char} (plain : unpaired? c = none) (fuel : ℕ) (acc : List Char) :
    readString d (fuel + 1) acc (escapeChar c ++ rest) = readString d fuel (c :: acc) rest := by
  have valid : c.toNat < 0xD800 ∨ 0xDFFF < c.toNat ∧ c.toNat < 0x110000 := c.valid
  unfold escapeChar
  split
  case h_8 _ quote slash newline back tab bell feed =>
    dsimp only
    rw [plain, Option.getD_none]
    split
    · rename_i visible
      simp only [Bool.and_eq_true, decide_eq_true_eq] at visible
      exact readString_cons quote slash visible.1 fuel acc
    · split
      · rename_i single
        have high : Text.isHighUnit c.toNat = false := by
          simp [Text.isHighUnit]
          omega
        have low : Text.isLowUnit c.toNat = false := by
          simp [Text.isLowUnit]
          omega
        have read : unitChar? d (hexDigits 4 c.toNat ++ rest) = some (Char.ofNat c.toNat, rest) :=
          unitChar?_unit single high low
        rw [Char.ofNat_toNat] at read
        exact readString_unit read fuel acc
      · have first : Text.isHighUnit (0xD800 + (c.toNat - 0x10000) / 0x400) = true := by
          simp [Text.isHighUnit]
          omega
        have second : Text.isLowUnit (0xDC00 + (c.toNat - 0x10000) % 0x400) = true := by
          simp [Text.isLowUnit]
          omega
        have pair : Text.ofPair (0xD800 + (c.toNat - 0x10000) / 0x400) (0xDC00 + (c.toNat - 0x10000) % 0x400) = c := by
          have value : 0x10000 + (0xD800 + (c.toNat - 0x10000) / 0x400 - 0xD800) * 0x400 +
              (0xDC00 + (c.toNat - 0x10000) % 0x400 - 0xDC00) = c.toNat := by omega
          rw [Text.ofPair, value, Char.ofNat_toNat]
        have read : unitChar? d _ = some (_, rest) := unitChar?_pair first second
        rw [pair] at read
        rw [List.append_assoc, escapeUnit_append]
        exact readString_unit read fuel acc
  all_goals rfl

theorem readString_chars {s : List Char} (plain : ∀ c ∈ s, unpaired? c = none) {acc : List Char}
    (before : ∀ c ∈ acc, unpaired? c = none) {fuel : ℕ} (enough : s.length < fuel) :
    readString d fuel acc (s.flatMap escapeChar ++ '"' :: rest) =
      .ok (String.ofList (acc.reverse ++ s), rest) := by
  induction s generalizing acc fuel with
  | nil =>
    obtain ⟨fuel, rfl⟩ := Nat.exists_eq_succ_of_ne_zero (Nat.ne_of_gt enough)
    have none : hasUnpaired (String.ofList acc.reverse) = false := by
      simp only [hasUnpaired, String.toList_ofList, List.any_reverse, List.any_eq_false]
      intro c hc
      simp [before c hc]
    simp [readString, none]
  | cons c s ih =>
    obtain ⟨fuel, rfl⟩ := Nat.exists_eq_succ_of_ne_zero (Nat.ne_zero_of_lt enough)
    obtain ⟨here, later⟩ := List.forall_mem_cons.mp plain
    rw [List.flatMap_cons, List.append_assoc, readString_escapeChar here,
      ih later (List.forall_mem_cons.mpr ⟨here, before⟩) (Nat.lt_of_succ_lt_succ enough)]
    simp

def IsPlain (s : String) : Prop := hasUnpaired s = false

instance (s : String) : Decidable (IsPlain s) := inferInstanceAs (Decidable (_ = _))

theorem IsPlain.chars {s : String} (h : IsPlain s) : ∀ c ∈ s.toList, unpaired? c = none := by
  intro c hc
  have none := List.any_eq_false.mp h c hc
  simpa using none

theorem length_escapeChar (c : Char) : 1 ≤ (escapeChar c).length := by
  have unit (n : ℕ) : 1 ≤ (escapeUnit n).length := Nat.succ_le_succ (Nat.zero_le _)
  unfold escapeChar
  split
  case h_8 =>
    dsimp only
    split
    · exact le_rfl
    · split
      · exact unit _
      · rw [List.length_append]
        exact (unit _).trans (Nat.le_add_right _ _)
  all_goals exact Nat.succ_le_succ (Nat.zero_le _)

theorem readString_quote {s : String} (plain : IsPlain s) {cs : List Char}
    (quoted : quote s ++ rest = '"' :: cs) : readString d (cs.length + 1) [] cs = .ok (s, rest) := by
  have text : cs = s.toList.flatMap escapeChar ++ '"' :: rest := by
    have := (List.cons.inj quoted).2
    rw [← this]
    simp
  have enough : s.toList.length < cs.length + 1 := by
    have long (l : List Char) : l.length ≤ (l.flatMap escapeChar).length := by
      induction l with
      | nil => exact le_rfl
      | cons c l ih =>
        have := length_escapeChar c
        simp only [List.flatMap_cons, List.length_append, List.length_cons]
        omega
    have := long s.toList
    rw [text, List.length_append]
    omega
  have read : readString d _ [] (s.toList.flatMap escapeChar ++ '"' :: rest) = _ :=
    readString_chars plain.chars (List.forall_mem_nil _) enough
  rw [← text] at read
  simpa using read

/-- A value that can be read of its text where so many arrays and objects may stand inside one another. -/
inductive Fits : ℕ → Json → Prop where
  | null {room : ℕ} : Fits room .null
  | bool {room : ℕ} (b : Bool) : Fits room (.bool b)
  | int {room : ℕ} {i : ℤ} (few : i.natAbs < 10 ^ maxDigits) : Fits room (.int i)
  | float {room : ℕ} (x : Float) : Fits room (.float x)
  | str {room : ℕ} {s : String} (plain : IsPlain s) : Fits room (.str s)
  | arr {room : ℕ} {xs : List Json} (items : ∀ x ∈ xs, Fits room x) : Fits (room + 1) (.arr xs)
  | obj {room : ℕ} {ms : List (String × Json)} (distinct : (ms.map fun m => m.1).Nodup)
    (names : ∀ m ∈ ms, IsPlain m.1) (values : ∀ m ∈ ms, Fits room m.2) : Fits (room + 1) (.obj ms)

section Skip

variable {c : Char} {cs : List Char}

theorem skip_cons (h : isSeparator c = false) : skip (c :: cs) = c :: cs := by
  simp [skip, h]

theorem skip_gap (sp : Spacing) (cs : List Char) : skip (sp.gap ++ cs) = skip cs := by
  have blank : ∀ c ∈ sp.gap, isSeparator c = true := by
    cases sp with
    | compact => exact List.forall_mem_nil _
    | indented depth =>
      refine List.forall_mem_cons.mpr ⟨rfl, fun c hc => ?_⟩
      rw [List.eq_of_mem_replicate hc]
      rfl
  exact List.dropWhile_append_of_pos blank

theorem skip_skip (cs : List Char) : skip (skip cs) = skip cs :=
  List.dropWhile_idempotent isSeparator cs

theorem readValue_skip (fuel room : ℕ) (cs : List Char) :
    readValue d fuel room (skip cs) = readValue d fuel room cs := by
  cases fuel with
  | zero => simp only [readValue]
  | succ fuel => rw [readValue, readValue, skip_skip]

theorem readAtom_error (other : c ∈ [' ', '\t', '\n', '\r', '[', ']', '\x7b', '\x7d', '"']) :
    readAtom d (c :: cs) = .error .malformed := by
  simp only [List.mem_cons, List.not_mem_nil, or_false] at other
  rcases other with rfl | rfl | rfl | rfl | rfl | rfl | rfl | rfl | rfl <;>
    simp [readAtom, word?, List.isPrefixOf, readNumber, Decimal.isAsciiDigit]

theorem readValue_of_readAtom {v : Json} (read : readAtom d cs = .ok (v, rest)) (fuel room : ℕ) :
    readValue d (fuel + 1) room cs = .ok (v, rest) := by
  cases cs with
  | nil =>
    have none : readAtom d [] = .error .malformed := by simp [readAtom, word?, readNumber]
    rw [none] at read
    cases read
  | cons c cs =>
    have atom : c ∉ [' ', '\t', '\n', '\r', '[', ']', '\x7b', '\x7d', '"'] := fun other => by
      rw [readAtom_error other] at read
      cases read
    simp only [List.mem_cons, List.not_mem_nil, or_false, not_or] at atom
    obtain ⟨space, tab, newline, back, list, -, object, -, quote⟩ := atom
    have solid : isSeparator c = false := by simp [isSeparator, space, tab, newline, back]
    rw [readValue, skip_cons solid]
    split
    · rename_i same
      exact absurd (List.cons.inj same).1 list
    · rename_i same
      exact absurd (List.cons.inj same).1 object
    · rename_i same
      exact absurd (List.cons.inj same).1 quote
    · exact read

theorem skip_of_readValue {r : Json × List Char} {fuel room : ℕ} (read : readValue d fuel room cs = .ok r) :
    ∀ after, skip cs ≠ ']' :: after := by
  intro after ends
  cases fuel with
  | zero =>
    rw [readValue] at read
    cases read
  | succ fuel =>
    rw [readValue, ends] at read
    have refused : readAtom d (']' :: after) = .error .malformed := readAtom_error (by simp)
    cases refused.symm.trans read

end Skip

section Back

variable {room : ℕ} {sp outer : Spacing} {v x : Json} {xs : List Json} {k : String} {ms : List (String × Json)}

/-- A value is read again of what is written for it. -/
def ReadsBack (d : Dialect) (room : ℕ) (v : Json) : Prop :=
  ∀ (sp : Spacing) (fuel : ℕ) (rest : List Char), 2 * (write sp v).length + 1 ≤ fuel → Closes rest →
    readValue d fuel room (write sp v ++ rest) = .ok (v, rest)

theorem skip_of_readItems {cs : List Char} {r : List Json × List Char} {fuel : ℕ} {acc : List Json}
    (read : readItems d fuel room acc cs = .ok r) : ∀ after, skip cs ≠ ']' :: after := by
  cases fuel with
  | zero =>
    rw [readItems] at read
    cases read
  | succ fuel =>
    rw [readItems] at read
    cases value : readValue d fuel room cs with
    | error f =>
      rw [value] at read
      cases read
    | ok r => exact skip_of_readValue value

theorem closes_cons {c : Char} (ends : c ∈ [',', ']', '\x7d']) (cs : List Char) : Closes (c :: cs) := by
  rintro a first
  obtain rfl : c = a := Option.some.inj first
  simp only [List.mem_cons, List.not_mem_nil, or_false] at ends
  rcases ends with rfl | rfl | rfl <;> decide

theorem closes_gap (sp : Spacing) {c : Char} (ends : c ∈ [',', ']', '\x7d']) (cs : List Char) :
    Closes (sp.gap ++ c :: cs) := by
  cases sp with
  | compact => exact closes_cons ends cs
  | indented depth =>
    rintro a first
    obtain rfl : '\n' = a := Option.some.inj first
    decide

theorem readItems_skip (fuel : ℕ) (acc : List Json) (cs : List Char) :
    readItems d fuel room acc (skip cs) = readItems d fuel room acc cs := by
  cases fuel with
  | zero => simp only [readItems]
  | succ fuel => rw [readItems, readItems, readValue_skip]

theorem readItems_write (sp outer : Spacing) (back : ∀ y ∈ x :: xs, ReadsBack d room y) {fuel : ℕ} (acc : List Json)
    (after : List Char) (enough : 2 * (write sp x ++ writeItems sp xs).length + 2 ≤ fuel) :
    readItems d fuel room acc (write sp x ++ (writeItems sp xs ++ (outer.gap ++ ']' :: after))) =
      .ok (acc.reverse ++ x :: xs, after) := by
  induction xs generalizing x acc fuel with
  | nil =>
    obtain ⟨fuel, rfl⟩ := Nat.exists_eq_succ_of_ne_zero (Nat.ne_zero_of_lt enough)
    rw [List.length_append] at enough
    have read := back x List.mem_cons_self sp fuel (outer.gap ++ ']' :: after) (by omega)
      (closes_gap outer (by simp) after)
    rw [writeItems, List.nil_append, readItems, read]
    simp only [skip_gap, skip_cons (show isSeparator ']' = false by decide)]
    simp
  | cons y ys ih =>
    obtain ⟨fuel, rfl⟩ := Nat.exists_eq_succ_of_ne_zero (Nat.ne_zero_of_lt enough)
    obtain ⟨here, later⟩ := List.forall_mem_cons.mp back
    have more : writeItems sp (y :: ys) = ',' :: (sp.gap ++ (write sp y ++ writeItems sp ys)) := by
      rw [writeItems, List.append_assoc]
    rw [more, List.length_append, List.length_cons, List.length_append] at enough
    have read := here sp fuel (',' :: (sp.gap ++ (write sp y ++ writeItems sp ys)) ++ (outer.gap ++ ']' :: after))
      (by omega) (closes_cons (by simp) _)
    rw [more, readItems, read]
    simp only [List.cons_append, skip_cons (show isSeparator ',' = false by decide)]
    rw [← readItems_skip, List.append_assoc, skip_gap, readItems_skip, List.append_assoc,
      ih later (x :: acc) (by omega)]
    simp

theorem readMembers_skip (fuel : ℕ) (acc : List (String × Json)) (cs : List Char) :
    readMembers d fuel room acc (skip cs) = readMembers d fuel room acc cs := by
  cases fuel with
  | zero => simp only [readMembers]
  | succ fuel => rw [readMembers, readMembers, skip_skip]

theorem new {acc : List (String × Json)} (distinct : ((acc ++ (k, x) :: ms).map fun m => m.1).Nodup) :
    k ∉ acc.map fun m => m.1 := by
  rw [List.map_append, List.map_cons] at distinct
  exact fun present => (List.disjoint_of_nodup_append distinct) present List.mem_cons_self

theorem colon_eq (sp : Spacing) (cs : List Char) :
    ∃ after, sp.colon ++ cs = ':' :: after ∧ skip after = skip cs := by
  cases sp with
  | compact => exact ⟨cs, rfl, rfl⟩
  | indented depth => exact ⟨' ' :: cs, rfl, rfl⟩

theorem readMembers_member (sp : Spacing) (plain : IsPlain k) (back : ReadsBack d room x) {fuel : ℕ}
    (enough : 2 * (write sp x).length + 1 ≤ fuel) (acc : List (String × Json)) (closes : Closes rest) :
    readMembers d (fuel + 1) room acc (quote k ++ (sp.colon ++ (write sp x ++ rest))) =
      match skip rest with
      | ',' :: rest => readMembers d fuel room (store k x acc) rest
      | '\x7d' :: rest => .ok (store k x acc, rest)
      | _ => .error .malformed := by
  obtain ⟨after, colon, value⟩ := colon_eq sp (write sp x ++ rest)
  obtain ⟨cs, quoted⟩ : ∃ cs, quote k ++ (sp.colon ++ (write sp x ++ rest)) = '"' :: cs := ⟨_, rfl⟩
  have read : readValue d fuel room after = .ok (x, rest) := by
    rw [← readValue_skip, value, readValue_skip]
    exact back sp fuel rest enough closes
  rw [quoted, readMembers, skip_cons (by decide)]
  simp only [readString_quote plain quoted, colon, skip_cons (show isSeparator ':' = false by decide)]
  rewrite [read]
  rfl

theorem readMembers_write (sp outer : Spacing) (plain : ∀ m ∈ (k, x) :: ms, IsPlain m.1)
    (back : ∀ m ∈ (k, x) :: ms, ReadsBack d room m.2) {fuel : ℕ} (acc : List (String × Json))
    (distinct : ((acc ++ (k, x) :: ms).map fun m => m.1).Nodup) (after : List Char)
    (enough : 2 * (write sp x ++ writeMembers sp ms).length + 2 ≤ fuel) :
    readMembers d fuel room acc
        (quote k ++ (sp.colon ++ (write sp x ++ (writeMembers sp ms ++ (outer.gap ++ '\x7d' :: after))))) =
      .ok (acc ++ (k, x) :: ms, after) := by
  induction ms generalizing k x acc fuel with
  | nil =>
    obtain ⟨fuel, rfl⟩ := Nat.exists_eq_succ_of_ne_zero (Nat.ne_zero_of_lt enough)
    rw [List.length_append] at enough
    have here : ReadsBack d room x := back (k, x) List.mem_cons_self
    rw [writeMembers, List.nil_append, readMembers_member sp (plain _ List.mem_cons_self) here (by omega) acc (closes_gap outer (by simp) after), store_of_absent (new distinct)]
    simp only [skip_gap, skip_cons (show isSeparator '\x7d' = false by decide)]
  | cons m ms ih =>
    obtain ⟨l, y⟩ := m
    obtain ⟨fuel, rfl⟩ := Nat.exists_eq_succ_of_ne_zero (Nat.ne_zero_of_lt enough)
    obtain ⟨herePlain, laterPlain⟩ := List.forall_mem_cons.mp plain
    obtain ⟨here, later⟩ := List.forall_mem_cons.mp back
    have more : writeMembers sp ((l, y) :: ms) =
        ',' :: (sp.gap ++ (quote l ++ (sp.colon ++ (write sp y ++ writeMembers sp ms)))) := by
      rw [writeMembers]
      simp only [List.append_assoc]
    rw [more, List.length_append, List.length_cons, List.length_append, List.length_append, List.length_append,
      List.length_append] at enough
    have step := readMembers_member sp herePlain here (show 2 * (write sp x).length + 1 ≤ fuel by omega) acc
      (closes_cons (show ',' ∈ [',', ']', '\x7d'] by simp)
        (sp.gap ++ (quote l ++ (sp.colon ++ (write sp y ++ (writeMembers sp ms ++ (outer.gap ++ '\x7d' :: after)))))))
    have shifted : ((acc ++ [(k, x)] ++ (l, y) :: ms).map fun m => m.1).Nodup := by
      rw [List.append_assoc]
      exact distinct
    have rest := ih laterPlain later (acc ++ [(k, x)]) shifted
      (show 2 * (write sp y ++ writeMembers sp ms).length + 2 ≤ fuel by rw [List.length_append]; omega)
    rw [more]
    simp only [List.append_assoc, List.cons_append] at step ⊢
    refine step.trans ?_
    simp only [skip_cons (show isSeparator ',' = false by decide), store_of_absent (new distinct)]
    rw [← readMembers_skip, skip_gap, readMembers_skip, rest]
    simp

/-- Every value that fits is read again of its text. -/
theorem Fits.readsBack (h : Fits room v) : ReadsBack d room v := by
  have atom {v : Json} {sp : Spacing} {fuel room : ℕ} {rest : List Char}
      (read : readAtom d (write sp v ++ rest) = .ok (v, rest)) (enough : 2 * (write sp v).length + 1 ≤ fuel) :
      readValue d fuel room (write sp v ++ rest) = .ok (v, rest) := by
    obtain ⟨fuel, rfl⟩ := Nat.exists_eq_succ_of_ne_zero (Nat.ne_zero_of_lt enough)
    exact readValue_of_readAtom read fuel room
  induction h with
  | null => exact fun sp fuel rest enough _ => atom (by simp [write, readAtom, word?, List.isPrefixOf, ← String.length_toList]) enough
  | bool b =>
    cases b <;>
      exact fun sp fuel rest enough _ => atom (by simp [write, readAtom, word?, List.isPrefixOf, ← String.length_toList]) enough
  | int few => exact fun sp fuel rest enough closes => atom (readAtom_int _ few closes) enough
  | float x => exact fun sp fuel rest enough closes => atom (readAtom_float x closes) enough
  | str plain =>
    rename_i s
    intro sp fuel rest enough _
    obtain ⟨fuel, rfl⟩ := Nat.exists_eq_succ_of_ne_zero (Nat.ne_zero_of_lt enough)
    obtain ⟨cs, quoted⟩ : ∃ cs, quote s ++ rest = '"' :: cs := ⟨_, rfl⟩
    rw [write, quoted, readValue, skip_cons (by decide)]
    simp only [readString_quote plain quoted, Except.map]
  | arr items ih =>
    rename_i room xs
    intro sp fuel rest enough _
    obtain ⟨fuel, rfl⟩ := Nat.exists_eq_succ_of_ne_zero (Nat.ne_zero_of_lt enough)
    cases xs with
    | nil =>
      rw [write, readValue]
      simp [skip_cons (show isSeparator '[' = false by decide), skip_cons (show isSeparator ']' = false by decide)]
    | cons x xs =>
      have text : write sp (.arr (x :: xs)) ++ rest = '[' :: (sp.deeper.gap ++ (write sp.deeper x ++
          (writeItems sp.deeper xs ++ (sp.gap ++ ']' :: rest)))) := by
        simp [write]
      have long : 2 * (write sp.deeper x ++ writeItems sp.deeper xs).length + 2 ≤ fuel := by
        rw [write] at enough
        simp only [List.length_append, List.length_cons] at enough ⊢
        omega
      have items := readItems_write sp.deeper sp ih [] rest long
      have first := skip_of_readItems items
      rw [← readItems_skip] at items
      rw [text, readValue, skip_cons (by decide)]
      simp only [Nat.succ_ne_zero, and_false, if_false, skip_gap]
      rw [items]
      rfl
  | obj distinct names values ih =>
    rename_i room ms
    intro sp fuel rest enough _
    obtain ⟨fuel, rfl⟩ := Nat.exists_eq_succ_of_ne_zero (Nat.ne_zero_of_lt enough)
    cases ms with
    | nil =>
      rw [write, readValue]
      simp [skip_cons (show isSeparator '\x7b' = false by decide),
        skip_cons (show isSeparator '\x7d' = false by decide)]
    | cons m ms =>
      obtain ⟨k, x⟩ := m
      have text : write sp (.obj ((k, x) :: ms)) ++ rest = '\x7b' :: (sp.deeper.gap ++ (quote k ++
          (sp.deeper.colon ++ (write sp.deeper x ++ (writeMembers sp.deeper ms ++ (sp.gap ++ '\x7d' :: rest)))))) := by
        have colon : sp.deeper.colon = sp.colon := by cases sp <;> rfl
        simp [write, colon]
      have long : 2 * (write sp.deeper x ++ writeMembers sp.deeper ms).length + 2 ≤ fuel := by
        rw [write] at enough
        simp only [List.length_append, List.length_cons] at enough ⊢
        omega
      have members := readMembers_write sp.deeper sp names ih [] distinct rest long
      obtain ⟨cs, quoted⟩ : ∃ cs, quote k ++ (sp.deeper.colon ++ (write sp.deeper x ++
          (writeMembers sp.deeper ms ++ (sp.gap ++ '\x7d' :: rest)))) = '"' :: cs := ⟨_, rfl⟩
      rw [quoted] at text members
      rw [text, readValue, skip_cons (by decide)]
      simp only [Nat.succ_ne_zero, and_false, if_false, skip_gap, skip_cons (show isSeparator '"' = false by decide)]
      change Except.map (fun r => (Json.obj r.1, r.2)) (readMembers d fuel room [] ('"' :: cs)) = _
      rw [members]
      rfl

end Back

/-- A value that fits is what its text stands for. -/
theorem parse_pretty_of_fits {v : Json} (h : Fits d.depth v) : parse d v.pretty = .ok v := by
  have read := h.readsBack (d := d) (.indented 0) (2 * (write (.indented 0) v).length + 2) []
    (Nat.le_succ _) (by simp [Closes])
  rw [List.append_nil] at read
  unfold parse pretty
  simp only [String.toList_ofList, read]
  rfl

end SchemaDiagram.Json
