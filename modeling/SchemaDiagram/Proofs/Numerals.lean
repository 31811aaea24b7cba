import SchemaDiagram.Json.Parser
import SchemaDiagram.Json.Printer
import SchemaDiagram.Proofs.ShortestDigits

/-!
Numbers come back from their numerals. An integer is read of its digits. The digits of a floating-point
number are laid out with a point or with an exponent; either way they are read as the decimal number that
they were, which is rounded to the binary number that they were written for.
-/

set_option autoImplicit false

namespace SchemaDiagram

open Decimal (isAsciiDigit ofDigits toFloat maxDigits)

namespace Decimal

theorem isAsciiDigit_of_mem_toDigits {n : ℕ} {c : Char} (h : c ∈ Nat.toDigits 10 n) :
    isAsciiDigit c = true := by
  have digit := Nat.isDigit_of_mem_toDigits (by decide) (by decide) h
  unfold isAsciiDigit
  unfold Char.isDigit at digit
  exact digit

theorem ofDigits_toDigits (n : ℕ) : ofDigits (Nat.toDigits 10 n) = n :=
  Nat.ofDigitChars_ten_toDigits

theorem ofDigits_append (as bs : List Char) :
    ofDigits (as ++ bs) = 10 ^ bs.length * ofDigits as + ofDigits bs := by
  change Nat.ofDigitChars 10 (as ++ bs) 0 = _
  rw [Nat.ofDigitChars_append, Nat.ofDigitChars_eq_ofDigitChars_zero]
  rfl

theorem ofDigits_zeros (n : ℕ) : ofDigits (zeros n) = 0 := by
  change Nat.ofDigitChars 10 (List.replicate n '0') 0 = 0
  rw [Nat.ofDigitChars_replicate_zero, Nat.mul_zero]

theorem head_toDigits {n : ℕ} (pos : 0 < n) : (Nat.toDigits 10 n).head? ≠ some '0' := by
  induction n using Nat.strongRecOn with
  | ind n ih =>
    by_cases small : n < 10
    · rw [Nat.toDigits_of_lt_base small]
      interval_cases n <;> decide
    · rw [Nat.toDigits_of_base_le (by decide) (by omega), List.head?_append]
      have front := ih (n / 10) (by omega) (by omega)
      cases head : (Nat.toDigits 10 (n / 10)).head? with
      | none => exact absurd (List.head?_eq_none_iff.mp head) Nat.toDigits_ne_nil
      | some c => simpa [head] using front

/-- The whole part of a numeral: at least one digit, no zero in front, and not more digits than the limit. -/
structure Whole (ds : List Char) : Prop where
  digits : ∀ c ∈ ds, isAsciiDigit c = true
  given : ds ≠ []
  front : ds.head? = some '0' → ds = ['0']
  short : ds.length ≤ maxDigits

def Closes (rest : List Char) : Prop :=
  ∀ c ∈ rest.head?, isAsciiDigit c = false ∧ c ≠ '.' ∧ c ≠ 'e' ∧ c ≠ 'E'

theorem take_digits {ds rest : List Char} (digits : ∀ c ∈ ds, isAsciiDigit c = true)
    (ends : ∀ c ∈ rest.head?, isAsciiDigit c = false) :
    (ds ++ rest).takeWhile isAsciiDigit = ds ∧ (ds ++ rest).dropWhile isAsciiDigit = rest := by
  rw [List.takeWhile_append_of_pos digits, List.dropWhile_append_of_pos digits]
  cases rest with
  | nil => simp
  | cons c rest => simp [ends c rfl]

end Decimal

namespace Json

open Decimal (Whole Closes take_digits)

variable {d : Dialect} {negative : Bool} {whole fraction rest : List Char}

def places? : List Char → Option (List Char × List Char)
  | '.' :: rest =>
    if rest.takeWhile isAsciiDigit = [] then none
    else some (rest.takeWhile isAsciiDigit, rest.dropWhile isAsciiDigit)
  | rest => some ([], rest)

def power? (cs : List Char) : Option (Option ℤ × List Char) :=
  match cs with
  | e :: rest =>
    if e = 'e' ∨ e = 'E' then
      let (minus, rest) := match rest with
        | '-' :: rest => (true, rest)
        | '+' :: rest => (false, rest)
        | rest => (false, rest)
      let digits := rest.takeWhile isAsciiDigit
      if digits = [] then none
      else
        let size : ℤ := ofDigits digits
        some (some (if minus then -size else size), rest.dropWhile isAsciiDigit)
    else some (none, cs)
  | [] => some (none, cs)

theorem readNumber_eq (h : Whole whole) (ends : ∀ c ∈ rest.head?, isAsciiDigit c = false) :
    readNumber d negative (whole ++ rest) =
      match places? rest with
      | none => .error .malformed
      | some (fraction, rest) =>
        match power? rest with
        | none => .error .malformed
        | some (none, rest) =>
          if fraction = [] then
            .ok (.int (if negative then -(ofDigits whole : ℤ) else ofDigits whole), rest)
          else .ok (.float (toFloat negative (ofDigits (whole ++ fraction)) (-fraction.length)), rest)
        | some (some e, rest) =>
          .ok (.float (toFloat negative (ofDigits (whole ++ fraction)) (e - fraction.length)), rest) := by
  obtain ⟨take, drop⟩ := take_digits h.digits ends
  have short : ¬ maxDigits < whole.length := Nat.not_lt.mpr h.short
  unfold readNumber
  dsimp only
  rw [take, drop, decide_eq_false short]
  obtain ⟨first, more, rfl⟩ := List.exists_cons_of_ne_nil h.given
  have front : ¬ (first = '0' ∧ more ≠ []) := by
    rintro ⟨rfl, some⟩
    exact some (List.cons.inj (h.front rfl)).2
  simp only [if_neg front, Bool.false_eq_true, and_false, if_false]
  rfl

theorem places?_point (digits : ∀ c ∈ fraction, isAsciiDigit c = true) (given : fraction ≠ [])
    (ends : ∀ c ∈ rest.head?, isAsciiDigit c = false) :
    places? ('.' :: (fraction ++ rest)) = some (fraction, rest) := by
  obtain ⟨take, drop⟩ := take_digits digits ends
  rw [places?, take, drop, if_neg given]

theorem places?_none (ends : ∀ c ∈ rest.head?, c ≠ '.') : places? rest = some ([], rest) := by
  unfold places?
  split
  · exact absurd rfl (ends '.' rfl)
  · rfl

theorem power?_none (closes : Closes rest) : power? rest = some (none, rest) := by
  unfold power?
  split
  · rename_i c rest
    obtain ⟨-, -, e, E⟩ := closes c rfl
    rw [if_neg (not_or.mpr ⟨e, E⟩)]
  · rfl

theorem power?_signed {ds : List Char} (minus : Bool) (digits : ∀ c ∈ ds, isAsciiDigit c = true)
    (given : ds ≠ []) (closes : Closes rest) :
    power? ('e' :: (if minus then '-' else '+') :: (ds ++ rest)) =
      some (some (if minus then -(ofDigits ds : ℤ) else ofDigits ds), rest) := by
  obtain ⟨take, drop⟩ := take_digits digits fun c hc => (closes c hc).1
  cases minus with
  | false => simp [power?, take, drop, given]
  | true => simp [power?, take, drop, given]

theorem readNumber_whole (h : Whole whole) (closes : Closes rest) :
    readNumber d negative (whole ++ rest) =
      .ok (.int (if negative then -(ofDigits whole : ℤ) else ofDigits whole), rest) := by
  rw [readNumber_eq h fun c hc => (closes c hc).1, places?_none fun c hc => (closes c hc).2.1]
  simp only [power?_none closes, if_true]

theorem readNumber_point (h : Whole whole) (digits : ∀ c ∈ fraction, isAsciiDigit c = true)
    (given : fraction ≠ []) (closes : Closes rest) :
    readNumber d negative (whole ++ '.' :: (fraction ++ rest)) =
      .ok (.float (toFloat negative (ofDigits (whole ++ fraction)) (-fraction.length)), rest) := by
  rw [readNumber_eq h (by simp [isAsciiDigit]), places?_point digits given fun c hc => (closes c hc).1]
  simp only [power?_none closes, if_neg given]

theorem readNumber_power {ds : List Char} (h : Whole whole) (minus : Bool)
    (digits : ∀ c ∈ ds, isAsciiDigit c = true) (given : ds ≠ []) (closes : Closes rest) :
    readNumber d negative (whole ++ 'e' :: (if minus then '-' else '+') :: (ds ++ rest)) =
      .ok (.float (toFloat negative (ofDigits whole)
        (if minus then -(ofDigits ds : ℤ) else ofDigits ds)), rest) := by
  rw [readNumber_eq h (by simp [isAsciiDigit]), places?_none (by simp)]
  simp [power?_signed minus digits given closes]

theorem readNumber_point_power {ds : List Char} (h : Whole whole)
    (places : ∀ c ∈ fraction, isAsciiDigit c = true) (some : fraction ≠ []) (minus : Bool)
    (digits : ∀ c ∈ ds, isAsciiDigit c = true) (given : ds ≠ []) (closes : Closes rest) :
    readNumber d negative (whole ++ '.' :: (fraction ++ 'e' :: (if minus then '-' else '+') :: (ds ++ rest))) =
      .ok (.float (toFloat negative (ofDigits (whole ++ fraction))
        ((if minus then -(ofDigits ds : ℤ) else ofDigits ds) - fraction.length)), rest) := by
  rw [readNumber_eq h (by simp [isAsciiDigit]), places?_point places some (by simp [isAsciiDigit])]
  simp [power?_signed minus digits given closes]

end Json

namespace Decimal

def ReadsAs (cs : List Char) (n : ℕ) (e : ℤ) : Prop :=
  (∃ c ∈ cs.head?, isAsciiDigit c = true) ∧ ∀ (d : Json.Dialect) (negative : Bool) (rest : List Char),
    Closes rest → Json.readNumber d negative (cs ++ rest) = .ok (.float (toFloat negative n e), rest)

variable {n : ℕ} {e : ℤ}

theorem zeros_digits (n : ℕ) : ∀ c ∈ zeros n, isAsciiDigit c = true := by
  intro c hc
  rw [List.eq_of_mem_replicate hc]
  decide

theorem append_digits {as bs : List Char} (ha : ∀ c ∈ as, isAsciiDigit c = true)
    (hb : ∀ c ∈ bs, isAsciiDigit c = true) : ∀ c ∈ as ++ bs, isAsciiDigit c = true :=
  List.forall_mem_append.mpr ⟨ha, hb⟩

theorem toDigits_digits (n : ℕ) : ∀ c ∈ Nat.toDigits 10 n, isAsciiDigit c = true :=
  fun _ => isAsciiDigit_of_mem_toDigits

theorem Whole.headed {whole : List Char} (h : Whole whole) (rest : List Char) :
    ∃ c ∈ (whole ++ rest).head?, isAsciiDigit c = true := by
  obtain ⟨first, more, rfl⟩ := List.exists_cons_of_ne_nil h.given
  exact ⟨first, rfl, h.digits first List.mem_cons_self⟩

theorem positional_whole (pos : 0 < n) (k : ℕ) (short : width n + k ≤ maxDigits) :
    ReadsAs (positional (Nat.toDigits 10 n) (k : ℤ)) (n * 10 ^ (k + 1)) (-1) := by
  have whole : Whole (Nat.toDigits 10 n ++ zeros k) := by
    refine ⟨append_digits (toDigits_digits n) (zeros_digits k), ?_, fun front => ?_, ?_⟩
    · simp [Nat.toDigits_ne_nil]
    · rw [List.head?_append_of_ne_nil _ Nat.toDigits_ne_nil] at front
      exact absurd front (head_toDigits pos)
    · rw [List.length_append]
      simpa [zeros, width] using short
  have value : ofDigits (Nat.toDigits 10 n ++ zeros k ++ zeros 1) = n * 10 ^ (k + 1) := by
    rw [ofDigits_append, ofDigits_append, ofDigits_toDigits, ofDigits_zeros, ofDigits_zeros, pow_succ]
    simp only [zeros, List.length_replicate]
    ring
  have text : positional (Nat.toDigits 10 n) (k : ℤ) = Nat.toDigits 10 n ++ zeros k ++ ['.', '0'] := rfl
  rw [text]
  refine ⟨whole.headed _, fun d negative rest closes => ?_⟩
  rw [List.append_assoc]
  change Json.readNumber d negative (_ ++ '.' :: (zeros 1 ++ rest)) = _
  rw [Json.readNumber_point whole (zeros_digits 1) (by simp [zeros]) closes, value]
  rfl

theorem positional_places (pos : 0 < n) (k : ℕ) (short : width n ≤ maxDigits) :
    ReadsAs (positional (Nat.toDigits 10 n) (-((k : ℤ) + 1))) n (-((k : ℤ) + 1)) := by
  set padded := zeros (k + 1 + 1 - (Nat.toDigits 10 n).length) ++ Nat.toDigits 10 n with pads
  have text : positional (Nat.toDigits 10 n) (-((k : ℤ) + 1)) =
      padded.take (padded.length - (k + 1)) ++ '.' :: padded.drop (padded.length - (k + 1)) := by
    rw [show -((k : ℤ) + 1) = Int.negSucc k by omega]
    rfl
  have digits : ∀ c ∈ padded, isAsciiDigit c = true := append_digits (zeros_digits _) (toDigits_digits n)
  have size : padded.length = max (k + 2) (width n) := by
    rw [pads, List.length_append, zeros, List.length_replicate]
    change k + 1 + 1 - width n + width n = _
    omega
  have whole : Whole (padded.take (padded.length - (k + 1))) := by
    refine ⟨fun c hc => digits c (List.mem_of_mem_take hc), ?_, fun front => ?_, ?_⟩
    · rw [Ne, List.take_eq_nil_iff, ← List.length_eq_zero_iff]
      omega
    · by_cases long : k + 2 ≤ width n
      · have none : k + 1 + 1 - (Nat.toDigits 10 n).length = 0 := Nat.sub_eq_zero_of_le long
        rw [none] at pads
        rw [List.head?_take, if_neg (by omega), pads] at front
        exact absurd front (head_toDigits pos)
      · have one : padded.length - (k + 1) = 1 := by omega
        obtain ⟨first, more, cons⟩ := List.exists_cons_of_length_pos (show 0 < padded.length by omega)
        rw [one, cons] at front ⊢
        simpa using front
    · rw [List.length_take, size]
      unfold maxDigits at *
      omega
  have value : ofDigits (padded.take (padded.length - (k + 1)) ++ padded.drop (padded.length - (k + 1))) = n := by
    rw [List.take_append_drop, pads, ofDigits_append, ofDigits_zeros, ofDigits_toDigits, Nat.mul_zero, Nat.zero_add]
  have places : (padded.drop (padded.length - (k + 1))).length = k + 1 := by
    rw [List.length_drop]
    omega
  rw [text]
  refine ⟨whole.headed _, fun d negative rest closes => ?_⟩
  rw [List.append_assoc, List.cons_append, Json.readNumber_point whole
    (fun c hc => digits c (List.mem_of_mem_drop hc)) (List.ne_nil_of_length_pos (by omega)) closes, value, places]
  push_cast
  rfl

theorem scientific_reads (pos : 0 < n) (lead : ℤ) :
    ReadsAs (scientific document (Nat.toDigits 10 n) lead) n (lead - width n + 1) := by
  set size := zeros (document.exponentWidth - (Nat.toDigits 10 lead.natAbs).length) ++
    Nat.toDigits 10 lead.natAbs with sizes
  have digits : ∀ c ∈ size, isAsciiDigit c = true := append_digits (zeros_digits _) (toDigits_digits _)
  have given : size ≠ [] := by simp [sizes, Nat.toDigits_ne_nil]
  have exponent : (if decide (lead < 0) = true then -(ofDigits size : ℤ) else ofDigits size) = lead := by
    rw [sizes, ofDigits_append, ofDigits_zeros, ofDigits_toDigits, Nat.mul_zero, Nat.zero_add]
    by_cases minus : lead < 0
    · rw [if_pos (decide_eq_true minus)]
      omega
    · rw [if_neg (by simpa using minus)]
      omega
  have sign : (if lead < 0 then '-' else '+') = if decide (lead < 0) = true then '-' else '+' := by
    simp
  have value := ofDigits_toDigits n
  have all := toDigits_digits n
  have head := head_toDigits pos
  unfold scientific width
  dsimp only
  rw [sign, ← sizes]
  rcases cons : Nat.toDigits 10 n with - | ⟨first, - | ⟨second, more⟩⟩
  · exact absurd cons Nat.toDigits_ne_nil
  · rw [cons] at value all
    have whole : Whole [first] := ⟨all, by simp, by simp, by simp [maxDigits]⟩
    refine ⟨whole.headed _, fun d negative rest closes => ?_⟩
    rw [List.append_assoc]
    refine (Json.readNumber_power whole _ digits given closes).trans ?_
    rw [exponent, value]
    simp
  · rw [cons] at value all head
    have whole : Whole [first] :=
      ⟨fun c hc => all c (by simp_all), by simp, by simp, by simp [maxDigits]⟩
    refine ⟨whole.headed ('.' :: (second :: more ++ _)), fun d negative rest closes => ?_⟩
    rw [List.append_assoc]
    have places : ∀ c ∈ second :: more, isAsciiDigit c = true :=
      fun c hc => all c (List.mem_cons_of_mem _ hc)
    refine (Json.readNumber_point_power whole places (by simp) _ digits given closes).trans ?_
    rw [exponent]
    change Except.ok (Json.float (toFloat negative (ofDigits (first :: second :: more)) _), rest) = _
    rw [value]
    congr 4
    simp
    omega

/-- Digits are read of their layout as the number that they are. -/
theorem write_reads (digits : Digits) (pos : 0 < digits.digits) (few : digits.digits ≤ 10 ^ 17) :
    ∃ n e, 0 < n ∧ width n ≤ 1000 ∧ (n : ℚ) * 10 ^ e = digits.digits * 10 ^ digits.exponent ∧
      ReadsAs (digits.write document) n e := by
  obtain ⟨n, exponent⟩ := digits
  change 0 < n at pos
  have narrow : width n ≤ 18 := (Nat.length_toDigits_le_iff (by decide) (by decide)).mpr
    (few.trans_lt (by decide))
  have limit : maxDigits = 4300 := rfl
  have opened : Digits.write document ⟨n, exponent⟩ =
      if document.least ≤ exponent + (width n : ℤ) - 1 ∧ exponent + (width n : ℤ) - 1 < document.beyond then
        positional (Nat.toDigits 10 n) exponent
      else scientific document (Nat.toDigits 10 n) (exponent + (width n : ℤ) - 1) := rfl
  rw [opened]
  by_cases plain : document.least ≤ exponent + (width n : ℤ) - 1 ∧ exponent + (width n : ℤ) - 1 < document.beyond
  · rw [if_pos plain]
    obtain ⟨-, beyond⟩ := plain
    change exponent + (width n : ℤ) - 1 < 16 at beyond
    rcases le_or_gt 0 exponent with whole | places
    · obtain ⟨k, rfl⟩ := Int.eq_ofNat_of_zero_le whole
      have short : width (n * 10 ^ (k + 1)) ≤ 1000 := by
        refine (Nat.length_toDigits_le_iff (by decide) (by decide)).mpr ?_
        calc n * 10 ^ (k + 1) < 10 ^ width n * 10 ^ (k + 1) :=
              Nat.mul_lt_mul_of_pos_right (width_bounds pos).2 (by positivity)
          _ = 10 ^ (width n + (k + 1)) := by rw [← pow_add]
          _ ≤ 10 ^ 1000 := Nat.pow_le_pow_right (by decide) (by omega)
      refine ⟨n * 10 ^ (k + 1), -1, by positivity, short, ?_, positional_whole pos k (by omega)⟩
      push_cast
      rw [pow_succ, zpow_neg_one, zpow_natCast]
      field_simp
    · obtain ⟨k, hk⟩ := Int.eq_ofNat_of_zero_le (show 0 ≤ -exponent - 1 by omega)
      obtain rfl : exponent = -((k : ℤ) + 1) := by omega
      exact ⟨n, _, pos, by omega, rfl, positional_places pos k (by omega)⟩
  · rw [if_neg plain]
    have same : exponent + (width n : ℤ) - 1 - width n + 1 = exponent := by ring
    refine ⟨n, exponent, pos, by omega, rfl, ?_⟩
    have reads := scientific_reads pos (exponent + (width n : ℤ) - 1)
    rw [same] at reads
    exact reads

end Decimal

namespace Json

open Decimal (Closes ReadsAs Whole document)

variable {d : Dialect} {cs rest : List Char}

theorem readAtom_digit (headed : ∃ c ∈ cs.head?, isAsciiDigit c = true) :
    readAtom d cs = readNumber d false cs ∧ readAtom d ('-' :: cs) = readNumber d true cs := by
  obtain ⟨c, first, digit⟩ := headed
  obtain ⟨more, rfl⟩ := List.head?_eq_some_iff.mp first
  have apart : ∀ {b : Char}, isAsciiDigit b = false → b ≠ c := by
    rintro b other rfl
    rw [digit] at other
    cases other
  have n : 'n' ≠ c := apart (by decide)
  have t : 't' ≠ c := apart (by decide)
  have f : 'f' ≠ c := apart (by decide)
  have N : 'N' ≠ c := apart (by decide)
  have I : 'I' ≠ c := apart (by decide)
  have minus : '-' ≠ c := apart (by decide)
  constructor
  · simp only [readAtom, word?]
    simp [List.isPrefixOf, n, t, f, N, I, minus]
    split
    · rename_i same
      exact absurd (List.cons.inj same).1.symm minus
    · rfl
  · simp [readAtom, word?, List.isPrefixOf, I]

theorem whole_toDigits {n : ℕ} (few : n < 10 ^ maxDigits) : Whole (Nat.toDigits 10 n) := by
  refine ⟨Decimal.toDigits_digits n, Nat.toDigits_ne_nil, fun front => ?_,
    (Nat.length_toDigits_le_iff (by decide) (by decide)).mpr few⟩
  rcases Nat.eq_zero_or_pos n with rfl | pos
  · exact Nat.toDigits_zero 10
  · exact absurd front (Decimal.head_toDigits pos)

theorem readAtom_int (i : ℤ) (few : i.natAbs < 10 ^ maxDigits) (closes : Closes rest) :
    readAtom d ((toString i).toList ++ rest) = .ok (.int i, rest) := by
  cases i with
  | ofNat n =>
    have whole : Whole (Nat.toDigits 10 n) := whole_toDigits few
    have text : (toString (Int.ofNat n)).toList = Nat.toDigits 10 n := by
      simp [toString, Int.repr, Nat.repr]
    rw [text, (readAtom_digit (whole.headed rest)).1]
    refine (readNumber_whole whole closes).trans ?_
    rw [Decimal.ofDigits_toDigits]
    rfl
  | negSucc n =>
    have whole : Whole (Nat.toDigits 10 (n + 1)) := whole_toDigits few
    have text : (toString (Int.negSucc n)).toList = '-' :: Nat.toDigits 10 (n + 1) := by
      simp [toString, Int.repr, Nat.repr]
    rw [text, List.cons_append, (readAtom_digit (whole.headed rest)).2]
    refine (readNumber_whole whole closes).trans ?_
    rw [Decimal.ofDigits_toDigits]
    rfl

theorem readAtom_signed {n : ℕ} {e : ℤ} (reads : ReadsAs cs n e) (negative : Bool) (closes : Closes rest) :
    readAtom d ((if negative then "-" else "").toList ++ (cs ++ rest)) = .ok (.float (toFloat negative n e), rest) := by
  obtain ⟨⟨c, first, digit⟩, read⟩ := reads
  have headed : ∃ c ∈ (cs ++ rest).head?, isAsciiDigit c = true := by
    obtain ⟨more, rfl⟩ := List.head?_eq_some_iff.mp first
    exact ⟨c, rfl, digit⟩
  cases negative with
  | false => exact (readAtom_digit headed).1.trans (read d false rest closes)
  | true => exact (readAtom_digit headed).2.trans (read d true rest closes)

theorem zero_reads : ReadsAs "0.0".toList 0 (-1) := by
  refine ⟨⟨'0', rfl, by decide⟩, fun d negative rest closes => ?_⟩
  have whole : Whole ['0'] := ⟨Decimal.zeros_digits 1, by simp, fun _ => rfl, by simp [maxDigits]⟩
  have places : ∀ c ∈ ['0'], isAsciiDigit c = true := Decimal.zeros_digits 1
  exact readNumber_point whole places (by simp) closes

theorem readAtom_infinity (negative : Bool) :
    readAtom d ((if negative then "-" else "").toList ++ ("Infinity".toList ++ rest)) =
      .ok (.float (.ofModel (Float.Model.pack (.infinity (Decimal.signOf negative)))), rest) := by
  have up : Float.ofModel (Float.Model.pack (.infinity .positive)) = 1.0 / 0.0 := by decide +kernel
  have down : Float.ofModel (Float.Model.pack (.infinity .negative)) = -(1.0 / 0.0) := by decide +kernel
  cases negative with
  | false => simp [readAtom, word?, List.isPrefixOf, ← String.length_toList, Decimal.signOf, up]
  | true => simp [readAtom, word?, List.isPrefixOf, ← String.length_toList, Decimal.signOf, down]

theorem readAtom_float (x : Float) (closes : Closes rest) :
    readAtom d ((document.write x).toList ++ rest) = .ok (.float x, rest) := by
  have value := Decimal.ofModel_pack_unpack x
  have nan : x.isNaN = x.toModel.unpack.isNaN := rfl
  have inf : x.isInf = x.toModel.unpack.isInf := rfl
  have sign : (if x.toBits.toNat / 2 ^ 63 = 1 then "-" else "") =
      if decide (x.toBits.toNat / 2 ^ 63 = 1) = true then "-" else "" := by simp
  unfold Decimal.Layout.write
  simp only [nan, inf, Nat.pow_eq, sign]
  have kinds := Decimal.parts x
  cases kinds with
  | nan parts =>
    rw [parts] at value
    have same : x = 0.0 / 0.0 := value.symm.trans (by decide +kernel)
    simp only [parts, Float.Model.UnpackedFloat.isNaN, if_true]
    rw [same]
    simp [readAtom, word?, List.isPrefixOf, ← String.length_toList, document]
  | infinite parts =>
    rw [parts] at value
    simp only [parts, Float.Model.UnpackedFloat.isNaN, Float.Model.UnpackedFloat.isInf, Bool.false_eq_true,
      if_false, if_true]
    rw [String.toList_append, List.append_assoc]
    refine (readAtom_infinity _).trans ?_
    rw [value]
  | zero none parts =>
    rw [parts] at value
    simp only [parts, Float.Model.UnpackedFloat.isNaN, Float.Model.UnpackedFloat.isInf, Bool.false_eq_true,
      if_false, if_pos none]
    rw [String.toList_append, List.append_assoc]
    refine (readAtom_signed zero_reads _ closes).trans ?_
    have read : ∀ negative, toFloat negative 0 (-1) =
        .ofModel (Float.Model.pack (.zero (Decimal.signOf negative))) := by decide +kernel
    rw [read, value]
  | finite m q some canonical top between parts =>
    rw [parts] at value
    simp only [parts, Float.Model.UnpackedFloat.isNaN, Float.Model.UnpackedFloat.isInf, Bool.false_eq_true,
      if_false, if_neg some, between]
    obtain ⟨pos, few, near⟩ := Decimal.shortest_spec canonical
    obtain ⟨n, e, given, short, worth, reads⟩ := Decimal.write_reads _ pos few
    rw [← worth] at near
    rw [String.toList_append, String.toList_ofList, List.append_assoc]
    refine (readAtom_signed reads _ closes).trans ?_
    rw [Decimal.toFloat_eq given short canonical top near, value]

end Json

end SchemaDiagram
