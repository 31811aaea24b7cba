import Mathlib.Data.List.TakeWhile
import Mathlib.Data.Nat.Digits.Defs
import SchemaDiagram.Proofs.FreshNames
import SchemaDiagram.Proofs.Pairs

/-!
Numbered ids. An id counts when digits follow its stem, and then they must be a numeral: decimal digits, of
whatever script, that are no more than the limit. If so a new id is made, which is none of the ids there are,
and its number is past the number of every id that is spelled with a numeral. Digits of another kind, such as
superscripts, are no numeral, and one id with such digits keeps any new one from being made.
-/

set_option autoImplicit false

namespace SchemaDiagram

namespace Text

def Decimals (s : String) (ds : List Nat) : Prop :=
  List.Forall₂ (fun c d => digitValue? c = some d) s.toList.reverse ds

theorem Decimals.length_eq {s : String} {ds : List Nat} (h : Decimals s ds) : s.toList.length = ds.length := by
  rw [← List.length_reverse]
  exact List.Forall₂.length_eq h

theorem Decimals.unique {s : String} {ds es : List Nat} (h : Decimals s ds) (h' : Decimals s es) : ds = es := by
  refine List.right_unique_forall₂' (fun c d e hd he => ?_) h h'
  exact Option.some.inj (hd.symm.trans he)

theorem Decimals.all_isSome {s : String} {ds : List Nat} (h : Decimals s ds) :
    ∀ c ∈ s.toList, (digitValue? c).isSome = true := by
  intro c hc
  obtain ⟨d, -, value⟩ := exists_of_mem_left h (List.mem_reverse.mpr hc)
  rw [value]
  rfl

theorem Decimals.lt_ten {s : String} {ds : List Nat} (h : Decimals s ds) : ∀ d ∈ ds, d < 10 := by
  intro d hd
  obtain ⟨c, -, value⟩ := exists_of_mem_right h hd
  exact digitValue?_lt value

theorem numeral?_reverse_eq_some_iff {cs : List Char} {n : Nat} : numeral? cs.reverse = some n ↔
    ∃ ds, List.Forall₂ (fun c d => digitValue? c = some d) cs ds ∧ n = Nat.ofDigits 10 ds := by
  induction cs generalizing n with
  | nil => simp [numeral?, eq_comm]
  | cons c rest ih =>
    rw [List.reverse_cons, numeral?_append_singleton]
    constructor
    · intro h
      obtain ⟨m, before, h⟩ := Option.bind_eq_some_iff.mp h
      obtain ⟨d, value, rfl⟩ := Option.map_eq_some_iff.mp h
      obtain ⟨ds, decimals, rfl⟩ := ih.mp before
      exact ⟨d :: ds, .cons value decimals, by rw [Nat.ofDigits_cons, Nat.add_comm]⟩
    · rintro ⟨ds, decimals, rfl⟩
      obtain ⟨d, ds, value, later, rfl⟩ := List.forall₂_cons_left_iff.mp decimals
      rw [ih.mpr ⟨ds, later, rfl⟩, value, Nat.ofDigits_cons, Nat.add_comm]
      rfl

end Text

namespace Naming

open Text (isDigit digitValue? numeral? Decimals)

variable {stem id s : String} {ids : List String} {ns : List Nat} {n : Nat}

theorem number_eq_ok_iff : number s = .ok n ↔
    ∃ ds, Decimals s ds ∧ ds.length ≤ Decimal.maxDigits ∧ n = Nat.ofDigits 10 ds := by
  have numeral : numeral? s.toList = some n ↔ ∃ ds, Decimals s ds ∧ n = Nat.ofDigits 10 ds := by
    unfold Decimals
    rw [← Text.numeral?_reverse_eq_some_iff, List.reverse_reverse]
  have run {ds : List Nat} (h : Decimals s ds) :
      (s.toList.takeWhile fun c => (digitValue? c).isSome).length = ds.length := by
    rw [List.takeWhile_eq_self_iff.mpr h.all_isSome, h.length_eq]
  unfold number
  dsimp only
  constructor
  · intro h
    split at h
    · cases h
    · rename_i short
      split at h
      · rename_i m read
        cases h
        obtain ⟨ds, decimals, same⟩ := numeral.mp read
        exact ⟨ds, decimals, by rw [← run decimals]; omega, same⟩
      · cases h
  · rintro ⟨ds, decimals, short, same⟩
    rw [run decimals, if_neg (Nat.not_lt.mpr short), numeral.mpr ⟨ds, decimals, same⟩]

/-- An id counts by the digits behind its stem, of whatever kind they are. -/
def Counts (stem id s : String) : Prop := id = stem ++ s ∧ s ≠ "" ∧ ∀ c ∈ s.toList, isDigit c = true

theorem suffix?_eq_some_iff : suffix? stem id = some s ↔ id = stem ++ s := by
  constructor
  · intro h
    unfold suffix? at h
    split at h
    · rename_i begins
      obtain ⟨rest, split⟩ := List.isPrefixOf_iff_prefix.mp begins
      cases h
      rw [← String.toList_inj, String.toList_append, String.toList_ofList, ← split, ← String.length_toList,
        List.drop_left]
    · cases h
  · rintro rfl
    exact suffix?_append stem s

/-- The digits by which an id counts, if it does. -/
def digits? (stem id : String) : Option String :=
  (suffix? stem id).filter fun s => decide (s ≠ "" ∧ s.toList.all isDigit)

theorem digits?_eq_some_iff : digits? stem id = some s ↔ Counts stem id s := by
  unfold digits? Counts
  rw [Option.filter_eq_some_iff, suffix?_eq_some_iff, decide_eq_true_eq, List.all_eq_true]

theorem numbers_eq_mapM (stem : String) (ids : List String) :
    numbers stem ids = (ids.filterMap (digits? stem)).mapM number := by
  induction ids with
  | nil => rfl
  | cons id rest ih =>
    rw [numbers, List.filterMap_cons, digits?]
    cases suffix? stem id with
    | none => exact ih
    | some s =>
      by_cases counted : s ≠ "" ∧ s.toList.all isDigit
      · simp only [if_pos counted, Option.filter_some, decide_eq_true counted, if_true]
        rw [List.mapM_cons, ih]
      · simp only [if_neg counted, Option.filter_some, decide_eq_false counted]
        exact ih

theorem mem_numbers_iff (found : numbers stem ids = .ok ns) :
    n ∈ ns ↔ ∃ id ∈ ids, ∃ s, Counts stem id s ∧ number s = .ok n := by
  rw [numbers_eq_mapM] at found
  have pairs := Result.mapM_ok.mp found
  constructor
  · intro hn
    obtain ⟨s, hs, read⟩ := exists_of_mem_left pairs hn
    obtain ⟨id, hid, counted⟩ := List.mem_filterMap.mp hs
    exact ⟨id, hid, s, digits?_eq_some_iff.mp counted, read⟩
  · rintro ⟨id, hid, s, counted, read⟩
    have hs := List.mem_filterMap.mpr ⟨id, hid, digits?_eq_some_iff.mpr counted⟩
    obtain ⟨m, hm, read'⟩ := exists_of_mem_right pairs hs
    cases read.symm.trans read'
    exact hm

theorem exists_numbers_iff : (∃ ns, numbers stem ids = .ok ns) ↔
    ∀ id ∈ ids, ∀ s, Counts stem id s → ∃ n, number s = .ok n := by
  rw [numbers_eq_mapM, Result.exists_mapM_ok]
  simp only [List.mem_filterMap, digits?_eq_some_iff]
  exact ⟨fun h id hid s counted => h s ⟨id, hid, counted⟩, fun h s ⟨id, hid, counted⟩ => h id hid s counted⟩

theorem foldl_max_lt_iff {k b : Nat} : ns.foldl max k < b ↔ k < b ∧ ∀ n ∈ ns, n < b := by
  induction ns generalizing k with
  | nil => simp
  | cons m rest ih => rw [List.foldl_cons, ih, max_lt_iff, List.forall_mem_cons, and_assoc]

theorem numbered_ok_iff : numbered stem n = .ok id ↔ n < 10 ^ Decimal.maxDigits ∧ id = stem ++ toString n := by
  have power (k : Nat) : Nat.pow 10 k = 10 ^ k := rfl
  unfold numbered
  rw [power]
  split
  · rename_i few
    rw [and_iff_right few, Except.ok.injEq, eq_comm]
  · rename_i many
    exact iff_of_false nofun fun h => many h.1

theorem nextNumbered_ok_iff : nextNumbered stem ids = .ok id ↔
    ∃ ns, numbers stem ids = .ok ns ∧ ns.foldl max 0 + 1 < 10 ^ Decimal.maxDigits ∧
      id = stem ++ toString (ns.foldl max 0 + 1) := by
  constructor
  · intro h
    obtain ⟨ns, found, h⟩ := Result.bind_ok h
    exact ⟨ns, found, numbered_ok_iff.mp h⟩
  · rintro ⟨ns, found, made⟩
    simp only [nextNumbered, found, bind, Except.bind]
    exact numbered_ok_iff.mpr made

/-- What a new id is like beside the ids there are. It can be made when whatever digits an id counts by are a
    numeral, and the number after it is not too long to be written. Then it has the number past them all. -/
structure NumbersPast (stem : String) (ids : List String) (made : Result String) : Prop where
  made_iff : (∃ id, made = .ok id) ↔ ∀ id ∈ ids, ∀ s, Counts stem id s →
    ∃ ds, Decimals s ds ∧ ds.length ≤ Decimal.maxDigits ∧ Nat.ofDigits 10 ds + 1 < 10 ^ Decimal.maxDigits
  made_of_fewer : (∀ id ∈ ids, ∀ s, Counts stem id s → ∃ ds, Decimals s ds ∧ ds.length < Decimal.maxDigits) →
    ∃ id, made = .ok id
  past : ∀ id, made = .ok id → id ∉ ids ∧ ∃ n, id = stem ++ toString n ∧
    ∀ other ∈ ids, ∀ s ds, other = stem ++ s → s ≠ "" → Decimals s ds → Nat.ofDigits 10 ds < n

theorem counts_of_decimals {ds : List Nat} (split : id = stem ++ s) (given : s ≠ "") (decimals : Decimals s ds) :
    Counts stem id s := by
  refine ⟨split, given, fun c hc => ?_⟩
  unfold isDigit
  rw [decimals.all_isSome c hc, Bool.true_or]

theorem next_of_fewer {ds : List Nat} (decimals : Decimals s ds) (fewer : ds.length < Decimal.maxDigits) :
    Nat.ofDigits 10 ds + 1 < 10 ^ Decimal.maxDigits := by
  have bound := Nat.ofDigits_lt_base_pow_length (by omega) decimals.lt_ten
  calc Nat.ofDigits 10 ds + 1 ≤ 10 ^ ds.length := bound
    _ < 10 ^ Decimal.maxDigits := Nat.pow_lt_pow_right (by omega) fewer

theorem exists_nextNumbered_iff : (∃ id, nextNumbered stem ids = .ok id) ↔ ∀ id ∈ ids, ∀ s, Counts stem id s →
    ∃ ds, Decimals s ds ∧ ds.length ≤ Decimal.maxDigits ∧ Nat.ofDigits 10 ds + 1 < 10 ^ Decimal.maxDigits := by
  constructor
  · rintro ⟨made, h⟩ id hid s counted
    obtain ⟨ns, found, few, -⟩ := nextNumbered_ok_iff.mp h
    obtain ⟨n, read⟩ := exists_numbers_iff.mp ⟨ns, found⟩ id hid s counted
    have le := (le_foldl_max ns 0).2 n ((mem_numbers_iff found).mpr ⟨id, hid, s, counted, read⟩)
    obtain ⟨ds, decimals, short, rfl⟩ := number_eq_ok_iff.mp read
    exact ⟨ds, decimals, short, by omega⟩
  · intro h
    obtain ⟨ns, found⟩ : ∃ ns, numbers stem ids = .ok ns := by
      refine exists_numbers_iff.mpr fun id hid s counted => ?_
      obtain ⟨ds, decimals, short, -⟩ := h id hid s counted
      exact ⟨_, number_eq_ok_iff.mpr ⟨ds, decimals, short, rfl⟩⟩
    have below : ns.foldl max 0 < 10 ^ Decimal.maxDigits - 1 := by
      refine foldl_max_lt_iff.mpr ⟨Nat.sub_pos_of_lt (Nat.one_lt_pow (by decide) (by omega)), fun n hn => ?_⟩
      obtain ⟨id, hid, s, counted, read⟩ := (mem_numbers_iff found).mp hn
      obtain ⟨ds, decimals, -, same⟩ := number_eq_ok_iff.mp read
      obtain ⟨es, decimals', -, few⟩ := h id hid s counted
      obtain rfl := decimals.unique decimals'
      omega
    exact ⟨_, nextNumbered_ok_iff.mpr ⟨ns, found, by omega, rfl⟩⟩

theorem nextNumbered_numbersPast (stem : String) (ids : List String) :
    NumbersPast stem ids (nextNumbered stem ids) := by
  refine ⟨exists_nextNumbered_iff, fun h => exists_nextNumbered_iff.mpr fun id hid s counted => ?_, fun id h => ?_⟩
  · obtain ⟨ds, decimals, fewer⟩ := h id hid s counted
    exact ⟨ds, decimals, fewer.le, next_of_fewer decimals fewer⟩
  · obtain ⟨ns, found, -, same⟩ := nextNumbered_ok_iff.mp h
    refine ⟨nextNumbered_not_mem h, _, same, fun other hother s ds split given decimals => ?_⟩
    have counted := counts_of_decimals split given decimals
    obtain ⟨n, read⟩ := exists_numbers_iff.mp ⟨ns, found⟩ other hother s counted
    have le := (le_foldl_max ns 0).2 n ((mem_numbers_iff found).mpr ⟨other, hother, s, counted, read⟩)
    obtain ⟨es, decimals', -, rfl⟩ := number_eq_ok_iff.mp read
    obtain rfl := decimals.unique decimals'
    exact Nat.lt_succ_of_le le

/-- A new table and a new relationship are numbered past all there are, in whatever script these are numbered.
    They cannot be made only if the id of a table, or of a relationship, is numbered with digits that are no
    numeral or with a number that has too many. -/
theorem numbered_past_all (nodes : List Node) (edges : List Edge) :
    NumbersPast "table_" (nodes.map Node.id) (nextTableId nodes) ∧
      NumbersPast "rel_" (edges.map Edge.id) (nextRelationshipId edges) :=
  ⟨nextNumbered_numbersPast _ _, nextNumbered_numbersPast _ _⟩

example : nextTableId [{ id := "table_٣" }, { id := "table_007" }] = .ok "table_8" := by
  decide +kernel

/-- A superscript is a digit and no numeral. -/
theorem superscript_keeps_new_from_made :
    nextTableId [{ id := "table_²" }] = .error (.noNumeral "²") ∧
      nextRelationshipId [{ id := "rel_²" }] = .error (.noNumeral "²") := by
  decide +kernel

end Naming

end SchemaDiagram
