import Mathlib.Data.List.Nodup
import Mathlib.Data.List.Perm.Subperm
import Mathlib.Data.Nat.Init
import SchemaDiagram.Naming
import SchemaDiagram.Proofs.Results

/-!
Fresh ids and names are fresh. A number is read back from its decimal digits, so an id that is
spelled with a number of its own counts among the numbers in use, and the id one past them all is
none of them; other spellings of a number only push it higher. A free name is looked for among one
candidate more than there are names, and those cannot all be taken.
-/

set_option autoImplicit false

namespace SchemaDiagram

namespace Text

theorem numeral?_append_singleton (cs : List Char) (c : Char) :
    numeral? (cs ++ [c]) =
      (numeral? cs).bind fun n => (digitValue? c).map fun d => 10 * n + d := by
  simp [numeral?, List.foldl_append]

theorem digitChar_range : ∀ d < 10, 0x30 ≤ d.digitChar.toNat ∧
    d.digitChar.toNat < 0x30 + 10 ∧ d.digitChar.toNat - 0x30 = d := by decide

theorem digitValue?_digitChar {d : Nat} (h : d < 10) : digitValue? d.digitChar = some d := by
  obtain ⟨low, high, value⟩ := digitChar_range d h
  have first : decimalZeros.find?
      (fun z => decide (z ≤ d.digitChar.toNat) && decide (d.digitChar.toNat < z + 10)) =
        some 0x30 :=
    List.find?_cons_of_pos (by simp [low, high])
  rw [digitValue?, first, Option.map_some, value]

theorem isDigit_digitChar {d : Nat} (h : d < 10) : isDigit d.digitChar = true := by
  simp [isDigit, digitValue?_digitChar h]

theorem toDigits_spec (n : Nat) : numeral? (Nat.toDigits 10 n) = some n ∧
    (∀ c ∈ Nat.toDigits 10 n, isDigit c = true) ∧ Nat.toDigits 10 n ≠ [] := by
  induction n using Nat.strong_induction_on with
  | _ n ih =>
    by_cases h : n < 10
    · rw [Nat.toDigits_of_lt_base h]
      refine ⟨?_, ?_, List.cons_ne_nil _ _⟩
      · simp [numeral?, digitValue?_digitChar h]
      · simpa using isDigit_digitChar h
    · obtain ⟨value, digits, -⟩ := ih (n / 10) (by omega)
      have hd : n % 10 < 10 := Nat.mod_lt n (by omega)
      rw [Nat.toDigits_of_base_le (by omega) (by omega)]
      refine ⟨?_, ?_, by simp⟩
      · rw [numeral?_append_singleton, value, digitValue?_digitChar hd, Option.bind_some,
          Option.map_some, Nat.div_add_mod]
      · rw [List.forall_mem_append]
        exact ⟨digits, by simpa using isDigit_digitChar hd⟩

theorem toList_toString (n : Nat) : (toString n).toList = Nat.toDigits 10 n := by
  rw [Nat.toString_eq_repr, Nat.toList_repr]

theorem numeral?_toString (n : Nat) : numeral? (toString n).toList = some n := by
  rw [toList_toString]
  exact (toDigits_spec n).1

theorem toString_injective : Function.Injective (toString : Nat → String) := by
  intro m n h
  have hm := numeral?_toString m
  rw [h, numeral?_toString n] at hm
  exact (Option.some.inj hm).symm

theorem toString_ne_empty (n : Nat) : toString n ≠ "" := by
  intro h
  have hl := toList_toString n
  rw [h] at hl
  exact (toDigits_spec n).2.2 hl.symm

end Text

namespace Label

def text? : Label → Option String
  | text s => some s
  | malformed _ => none

/-- Whether a label can be told from names; a list or an object cannot. -/
def told : Label → Bool
  | malformed (.arr _) | malformed (.obj _) => false
  | _ => true

theorem text?_eq_some_iff {l : Label} {s : String} : l.text? = some s ↔ l = text s := by
  cases l <;> simp [text?]

end Label

namespace Naming

open Text (isDigit numeral? numeral?_toString toString_ne_empty toString_injective)

theorem suffix?_append (stem s : String) : suffix? stem (stem ++ s) = some s := by
  have hp : stem.toList.isPrefixOf (stem ++ s).toList = true := by simp
  unfold suffix?
  rw [if_pos hp, String.toList_append, ← String.length_toList, List.drop_left,
    String.ofList_toList]

theorem number_toString {n m : Nat} (h : number (toString n) = .ok m) : m = n := by
  unfold number at h
  simp only [numeral?_toString] at h
  split at h
  · cases h
  · cases h
    rfl

theorem mem_numbers {stem : String} {n : Nat} {ids : List String} {ns : List Nat}
    (h : numbers stem ids = .ok ns) (hm : stem ++ toString n ∈ ids) : n ∈ ns := by
  induction ids generalizing ns with
  | nil => cases hm
  | cons id rest ih =>
    unfold numbers at h
    rcases List.mem_cons.mp hm with rfl | hm
    · have hs : toString n ≠ "" ∧ (toString n).toList.all isDigit := by
        refine ⟨toString_ne_empty n, List.all_eq_true.mpr ?_⟩
        rw [Text.toList_toString]
        exact (Text.toDigits_spec n).2.1
      simp only [suffix?_append, if_pos hs] at h
      obtain ⟨m, hn, h⟩ := Result.bind_ok h
      obtain ⟨ms, hr, h⟩ := Result.bind_ok h
      cases h
      rw [number_toString hn]
      exact List.mem_cons_self
    · split at h
      · split at h
        · obtain ⟨m, hn, h⟩ := Result.bind_ok h
          obtain ⟨ms, hr, h⟩ := Result.bind_ok h
          cases h
          exact List.mem_cons_of_mem m (ih hr hm)
        · exact ih h hm
      · exact ih h hm

theorem le_foldl_max (ns : List Nat) (k : Nat) :
    k ≤ ns.foldl max k ∧ ∀ n ∈ ns, n ≤ ns.foldl max k := by
  induction ns generalizing k with
  | nil => simp
  | cons m rest ih =>
    obtain ⟨hk, hr⟩ := ih (max k m)
    rw [List.foldl_cons, List.forall_mem_cons]
    exact ⟨by omega, by omega, hr⟩

/-- The id one past the highest number in use is none of the ids, whatever their spelling. -/
theorem nextNumbered_not_mem {stem id : String} {ids : List String}
    (h : nextNumbered stem ids = .ok id) : id ∉ ids := by
  obtain ⟨ns, hns, h⟩ := Result.bind_ok h
  unfold numbered at h
  split at h
  · cases h
    intro hm
    have hle := (le_foldl_max ns 0).2 _ (mem_numbers hns hm)
    omega
  · cases h

theorem firstFree_spec (taken : List String) (stem : String) (fuel start : Nat) :
    ∃ n, start ≤ n ∧ n ≤ start + fuel ∧ firstFree taken stem fuel start = stem ++ toString n ∧
      (∀ k, start ≤ k → k < n → stem ++ toString k ∈ taken) ∧
      (n < start + fuel → stem ++ toString n ∉ taken) := by
  induction fuel generalizing start with
  | zero =>
    refine ⟨start, Nat.le_refl _, Nat.le_refl _, rfl, ?_, ?_⟩
    · omega
    · omega
  | succ fuel ih =>
    unfold firstFree
    by_cases h : stem ++ toString start ∈ taken
    · obtain ⟨n, low, high, eq, before, free⟩ := ih (start + 1)
      refine ⟨n, by omega, by omega, by simpa only [if_pos h] using eq, ?_, fun hn => free (by omega)⟩
      intro k hk hn
      by_cases hs : k = start
      · rw [hs]
        exact h
      · exact before k (by omega) hn
    · refine ⟨start, Nat.le_refl _, by omega, by simp only [if_neg h], by omega, fun _ => h⟩

theorem append_toString_injective (stem : String) :
    Function.Injective fun n : Nat => stem ++ toString n := by
  intro m n h
  have hl := congrArg String.toList h
  simp only [String.toList_append, List.append_cancel_left_eq, String.toList_inj] at hl
  exact toString_injective hl

theorem not_all_taken (taken : List String) (stem : String) (start : Nat) :
    ¬ ∀ k, start ≤ k → k < start + taken.length + 1 → stem ++ toString k ∈ taken := by
  intro h
  let candidates := (List.range' start (taken.length + 1)).map fun n => stem ++ toString n
  have distinct : candidates.Nodup :=
    List.Nodup.map (append_toString_injective stem) List.nodup_range'
  have within : candidates ⊆ taken := by
    intro name hm
    obtain ⟨k, hk, rfl⟩ := List.mem_map.mp hm
    obtain ⟨low, high⟩ := List.mem_range'_1.mp hk
    exact h k low (by omega)
  have hl : taken.length + 1 ≤ taken.length := by
    simpa [candidates] using (List.subperm_of_subset distinct within).length_le
  omega

theorem nextFree_spec (taken : List String) (stem : String) (start : Nat) :
    ∃ n, start ≤ n ∧ nextFree taken stem start = stem ++ toString n ∧
      stem ++ toString n ∉ taken ∧
      ∀ k, start ≤ k → k < n → stem ++ toString k ∈ taken := by
  obtain ⟨n, low, high, eq, before, free⟩ := firstFree_spec taken stem taken.length start
  refine ⟨n, low, eq, fun hm => not_all_taken taken stem start fun k hk hkn => ?_, before⟩
  have hn : ¬ n < start + taken.length := fun hlt => free hlt hm
  by_cases he : k = n
  · rw [he]
    exact hm
  · exact before k hk (by omega)

theorem isBlank_append (s t : String) :
    Text.isBlank (s ++ t) = (Text.isBlank s && Text.isBlank t) := by
  unfold Text.isBlank
  rw [String.toList_append, List.all_append]

theorem nextFree_not_blank (taken : List String) {stem : String}
    (named : Text.isBlank stem = false) (start : Nat) :
    Text.isBlank (nextFree taken stem start) = false := by
  obtain ⟨n, -, eq, -, -⟩ := nextFree_spec taken stem start
  rw [eq, isBlank_append, named, Bool.false_and]

theorem nextFree_not_mem (taken : List String) (stem : String) (start : Nat) :
    nextFree taken stem start ∉ taken := by
  obtain ⟨n, -, eq, free, -⟩ := nextFree_spec taken stem start
  rw [eq]
  exact free

theorem labelNames_of_told {nodes : List Node} (told : ∀ n ∈ nodes, n.data.label.told = true) :
    labelNames nodes = .ok (nodes.filterMap fun n => n.data.label.text?) := by
  induction nodes with
  | nil => rfl
  | cons n rest ih =>
    obtain ⟨here, later⟩ := List.forall_mem_cons.mp told
    rw [labelNames, List.filterMap_cons, ih later]
    cases label : n.data.label with
    | text s => rfl
    | malformed v =>
      rw [label] at here
      cases v with
      | arr _ | obj _ => cases here
      | null | bool _ | int _ | float _ | str _ => rfl

theorem told_of_labelNames {nodes : List Node} {names : List String} (h : labelNames nodes = .ok names) :
    ∀ n ∈ nodes, n.data.label.told = true := by
  induction nodes generalizing names with
  | nil => exact nofun
  | cons n rest ih =>
    rw [labelNames] at h
    cases label : n.data.label with
    | text s =>
      rw [label] at h
      cases later : labelNames rest with
      | error f =>
        rw [later] at h
        cases h
      | ok ms => exact List.forall_mem_cons.mpr ⟨by rw [label]; rfl, ih later⟩
    | malformed v =>
      rw [label] at h
      cases v with
      | arr _ | obj _ => cases h
      | null | bool _ | int _ | float _ | str _ => exact List.forall_mem_cons.mpr ⟨by rw [label]; rfl, ih h⟩

theorem nextTableName_ok {nodes : List Node}
    (labelled : ∀ n ∈ nodes, ∃ s, n.data.label = .text s) :
    ∃ name, nextTableName nodes = .ok name ∧ Text.isBlank name = false ∧
      ∀ n ∈ nodes, n.data.label ≠ .text name := by
  have told : ∀ n ∈ nodes, n.data.label.told = true := by
    intro n hn
    obtain ⟨s, hs⟩ := labelled n hn
    rw [hs]
    rfl
  have found := labelNames_of_told told
  have fresh := nextFree_not_mem (nodes.filterMap fun n => n.data.label.text?) "new_table_" (nodes.length + 1)
  refine ⟨_, by rw [nextTableName, found]; rfl, nextFree_not_blank _ (by decide) _, fun n hn same => fresh ?_⟩
  exact List.mem_filterMap.mpr ⟨n, hn, Label.text?_eq_some_iff.mpr same⟩

theorem nextColumnName_not_blank (cs : List NodeColumn) :
    Text.isBlank (nextColumnName cs) = false :=
  nextFree_not_blank _ (by decide) _

theorem nextColumnName_fresh {cs : List NodeColumn} {c : NodeColumn} (hc : c ∈ cs) :
    c.title ≠ nextColumnName cs := by
  have fresh := nextFree_not_mem (cs.map NodeColumn.title) "column_" (cs.length + 1)
  exact fun same => fresh (List.mem_map.mpr ⟨c, hc, same⟩)

end Naming

end SchemaDiagram
