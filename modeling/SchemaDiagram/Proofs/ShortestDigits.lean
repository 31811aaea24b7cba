import SchemaDiagram.Proofs.BinaryNumbers

/-!
The digits that are written for a binary number. They lie in the interval of the numbers that are rounded to
it: a grid that is finer than the interval has a point in it, and seventeen digits make such a grid.
-/

set_option autoImplicit false

namespace SchemaDiagram.Decimal

theorem scaled_pos (n : ℕ) {b : ℕ} (pos : 0 < b) (e : ℤ) : 0 < (scaled n b e).2 := by
  cases e with
  | ofNat k => exact Nat.one_pos
  | negSucc k => exact Nat.pow_pos pos

theorem scaled_eq (n : ℕ) {b : ℕ} (pos : 0 < b) (e : ℤ) :
    ((scaled n b e).1 : ℚ) = n * b ^ e * (scaled n b e).2 := by
  have base : (b : ℚ) ≠ 0 := by exact_mod_cast pos.ne'
  cases e with
  | ofNat k => simp [scaled]
  | negSucc k =>
    simp only [scaled, Nat.pow_eq, zpow_negSucc]
    push_cast
    field_simp

theorem leading_spec {num den : ℕ} (some : 0 < num) (pos : 0 < den) :
    (10 : ℚ) ^ leading num den * den ≤ num ∧ (num : ℚ) < 10 ^ (leading num den + 1) * den := by
  obtain ⟨numLow, numHigh⟩ := width_bounds some
  obtain ⟨denLow, denHigh⟩ := width_bounds pos
  have numWidth : 0 < width num := Nat.length_toDigits_pos
  have denWidth : 0 < width den := Nat.length_toDigits_pos
  have numLow : (10 : ℚ) ^ ((width num : ℤ) - 1) ≤ num := by
    have : ((width num : ℤ) - 1) = ((width num - 1 : ℕ) : ℤ) := by omega
    rw [this, zpow_natCast]
    exact_mod_cast numLow
  have numHigh : (num : ℚ) < 10 ^ (width num : ℤ) := by
    rw [zpow_natCast]
    exact_mod_cast numHigh
  have denLow : (10 : ℚ) ^ ((width den : ℤ) - 1) ≤ den := by
    have : ((width den : ℤ) - 1) = ((width den - 1 : ℕ) : ℤ) := by omega
    rw [this, zpow_natCast]
    exact_mod_cast denLow
  have denHigh : (den : ℚ) < 10 ^ (width den : ℤ) := by
    rw [zpow_natCast]
    exact_mod_cast denHigh
  have guess := scaled_eq 1 (show 0 < 10 by decide) ((width num : ℤ) - width den)
  have unit : (0 : ℚ) < (scaled 1 10 ((width num : ℤ) - width den)).2 := by
    exact_mod_cast scaled_pos 1 (by decide) _
  push_cast at guess
  have compare : num * (scaled 1 10 ((width num : ℤ) - width den)).2 <
      den * (scaled 1 10 ((width num : ℤ) - width den)).1 ↔
        (num : ℚ) < 10 ^ ((width num : ℤ) - width den) * den := by
    rw [← Nat.cast_lt (α := ℚ)]
    push_cast
    rw [guess, one_mul, ← mul_assoc, mul_lt_mul_iff_left₀ unit, mul_comm (den : ℚ)]
  have power (e : ℤ) : (0 : ℚ) < 10 ^ e := zpow_pos (by norm_num) e
  unfold leading
  dsimp only
  by_cases less : num * (scaled 1 10 ((width num : ℤ) - width den)).2 <
      den * (scaled 1 10 ((width num : ℤ) - width den)).1
  · rw [if_pos less, sub_add_cancel]
    refine ⟨le_trans ?_ numLow, compare.mp less⟩
    calc (10 : ℚ) ^ ((width num : ℤ) - width den - 1) * den
        ≤ 10 ^ ((width num : ℤ) - width den - 1) * 10 ^ (width den : ℤ) :=
          mul_le_mul_of_nonneg_left denHigh.le (power _).le
      _ = 10 ^ ((width num : ℤ) - 1) := by
          rw [← zpow_add₀ (by norm_num)]
          congr 1
          ring
  · rw [if_neg less]
    refine ⟨not_lt.mp (mt compare.mpr less), numHigh.trans_le ?_⟩
    calc (10 : ℚ) ^ (width num : ℤ)
        = 10 ^ ((width num : ℤ) - width den + 1) * 10 ^ ((width den : ℤ) - 1) := by
          rw [← zpow_add₀ (by norm_num)]
          congr 1
          ring
      _ ≤ _ := mul_le_mul_of_nonneg_left denLow (power _).le

theorem dropZeros_spec (fuel : ℕ) (d : Digits) :
    (dropZeros fuel d).digits ≤ d.digits ∧
      ((dropZeros fuel d).digits : ℚ) * 10 ^ (dropZeros fuel d).exponent = d.digits * 10 ^ d.exponent := by
  induction fuel generalizing d with
  | zero => exact ⟨le_rfl, rfl⟩
  | succ fuel ih =>
    rw [dropZeros]
    split
    · rename_i zero
      obtain ⟨less, value⟩ := ih ⟨d.digits / 10, d.exponent + 1⟩
      refine ⟨less.trans (Nat.div_le_self _ _), value.trans ?_⟩
      have tenth : (d.digits : ℚ) = 10 * (d.digits / 10 : ℕ) := by
        exact_mod_cast (show d.digits = 10 * (d.digits / 10) by omega)
      rw [zpow_add_one₀ (by norm_num), tenth]
      simp
      ring
    · exact ⟨le_rfl, rfl⟩

namespace Binary

variable {x : Binary} {unit : ℤ} {c : ℕ}

/-- A number lies in the interval of a binary one. -/
structure Holds (x : Binary) (v : ℚ) : Prop where
  low : (x.low : ℚ) * 2 ^ (x.exponent - 2) ≤ v
  high : v ≤ x.high * 2 ^ (x.exponent - 2)
  odd : x.mantissa % 2 = 1 → x.low * 2 ^ (x.exponent - 2) < v ∧ v < x.high * 2 ^ (x.exponent - 2)

def below (x : Binary) (unit : ℤ) : ℕ :=
  4 * x.mantissa * ((scaled 1 10 unit).2 * (scaled 1 2 (x.exponent - 2)).1) /
    ((scaled 1 10 unit).1 * (scaled 1 2 (x.exponent - 2)).2)

def inside (x : Binary) (unit : ℤ) (c : ℕ) : Bool :=
  let stepNum := (scaled 1 10 unit).1 * (scaled 1 2 (x.exponent - 2)).2
  let stepDen := (scaled 1 10 unit).2 * (scaled 1 2 (x.exponent - 2)).1
  if x.mantissa % 2 = 0 then x.low * stepDen ≤ c * stepNum && c * stepNum ≤ x.high * stepDen
  else x.low * stepDen < c * stepNum && c * stepNum < x.high * stepDen

def pick (inBelow inAbove : Bool) (below gapBelow gapAbove : ℕ) : Option ℕ :=
  match inBelow, inAbove with
  | false, false => none
  | true, false => some below
  | false, true => some (below + 1)
  | true, true =>
    if gapBelow < gapAbove then some below
    else if gapAbove < gapBelow then some (below + 1)
    else if below % 2 = 0 then some below else some (below + 1)

/-- A grid has one of the points next to the number, if one of them lies in the interval. -/
theorem onGrid?_cases (x : Binary) (unit : ℤ) :
    (x.onGrid? unit = none ∧ x.inside unit (x.below unit) = false ∧
        x.inside unit (x.below unit + 1) = false) ∨
      ∃ c, x.onGrid? unit = some c ∧ x.inside unit c = true ∧ (c = x.below unit ∨ c = x.below unit + 1) := by
  obtain ⟨gapBelow, gapAbove, opened⟩ : ∃ gapBelow gapAbove : ℕ, x.onGrid? unit =
      pick (x.inside unit (x.below unit)) (x.inside unit (x.below unit + 1)) (x.below unit) gapBelow gapAbove :=
    ⟨_, _, rfl⟩
  rw [opened]
  cases low : x.inside unit (x.below unit) <;> cases high : x.inside unit (x.below unit + 1)
  · exact .inl ⟨rfl, rfl, rfl⟩
  · exact .inr ⟨_, rfl, high, .inr rfl⟩
  · exact .inr ⟨_, rfl, low, .inl rfl⟩
  · right
    unfold pick
    split_ifs
    · exact ⟨_, rfl, low, .inl rfl⟩
    · exact ⟨_, rfl, high, .inr rfl⟩
    · exact ⟨_, rfl, low, .inl rfl⟩
    · exact ⟨_, rfl, high, .inr rfl⟩

theorem grid_le (unit : ℤ) (a c : ℕ) (e : ℤ) :
    (a * ((scaled 1 10 unit).2 * (scaled 1 2 e).1) ≤ c * ((scaled 1 10 unit).1 * (scaled 1 2 e).2) ↔
      (a : ℚ) * 2 ^ e ≤ c * 10 ^ unit) ∧
    (c * ((scaled 1 10 unit).1 * (scaled 1 2 e).2) ≤ a * ((scaled 1 10 unit).2 * (scaled 1 2 e).1) ↔
      (c : ℚ) * 10 ^ unit ≤ a * 2 ^ e) := by
  have tens := scaled_eq 1 (show 0 < 10 by decide) unit
  have twos := scaled_eq 1 (show 0 < 2 by decide) e
  have den : (0 : ℚ) < (scaled 1 10 unit).2 * (scaled 1 2 e).2 := by
    exact_mod_cast Nat.mul_pos (scaled_pos 1 (by decide) unit) (scaled_pos 1 (by decide) e)
  push_cast at tens twos
  have left : ((a * ((scaled 1 10 unit).2 * (scaled 1 2 e).1) : ℕ) : ℚ) =
      a * 2 ^ e * ((scaled 1 10 unit).2 * (scaled 1 2 e).2) := by
    push_cast
    rw [twos]
    ring
  have right : ((c * ((scaled 1 10 unit).1 * (scaled 1 2 e).2) : ℕ) : ℚ) =
      c * 10 ^ unit * ((scaled 1 10 unit).2 * (scaled 1 2 e).2) := by
    push_cast
    rw [tens]
    ring
  rw [← Nat.cast_le (α := ℚ), ← Nat.cast_le (α := ℚ), left, right]
  exact ⟨mul_le_mul_iff_left₀ den, mul_le_mul_iff_left₀ den⟩

theorem inside_iff : x.inside unit c = true ↔ x.Holds (c * 10 ^ unit) := by
  obtain ⟨lowLe, leLow⟩ := grid_le unit x.low c (x.exponent - 2)
  obtain ⟨highLe, leHigh⟩ := grid_le unit x.high c (x.exponent - 2)
  unfold inside
  dsimp only
  rcases Nat.mod_two_eq_zero_or_one x.mantissa with even | odd
  · rw [if_pos even, Bool.and_eq_true, decide_eq_true_eq, decide_eq_true_eq, lowLe, leHigh]
    exact ⟨fun h => ⟨h.1, h.2, fun odd => by omega⟩, fun h => ⟨h.low, h.high⟩⟩
  · rw [if_neg (by omega), Bool.and_eq_true, decide_eq_true_eq, decide_eq_true_eq, ← not_le, ← not_le,
      leLow, highLe, not_le, not_le]
    exact ⟨fun h => ⟨h.1.le, h.2.le, fun _ => h⟩, fun h => h.odd odd⟩

theorem below_spec (x : Binary) (unit : ℤ) :
    (x.below unit : ℚ) * 10 ^ unit ≤ x.mantissa * 2 ^ x.exponent ∧
      (x.mantissa : ℚ) * 2 ^ x.exponent < (x.below unit + 1) * 10 ^ unit := by
  have quarters : ((4 * x.mantissa : ℕ) : ℚ) * 2 ^ (x.exponent - 2) = x.mantissa * 2 ^ x.exponent := by
    rw [zpow_sub₀ (by norm_num)]
    push_cast
    ring
  have pos : 0 < (scaled 1 10 unit).1 * (scaled 1 2 (x.exponent - 2)).2 := by
    refine Nat.mul_pos ?_ (scaled_pos 1 (by decide) _)
    cases unit with
    | ofNat k => simp [scaled]
    | negSucc k => simp [scaled]
  constructor
  · rw [← quarters]
    exact (grid_le unit _ _ _).2.mp (Nat.div_mul_le_self _ _)
  · rw [← quarters, ← not_le]
    have := (grid_le unit (4 * x.mantissa) (x.below unit + 1) (x.exponent - 2)).2
    push_cast at this ⊢
    rw [← this, not_le]
    exact Nat.lt_mul_of_div_lt (Nat.lt_succ_self _) pos

theorem onGrid?_spec (found : x.onGrid? unit = some c) :
    x.Holds (c * 10 ^ unit) ∧ ((c : ℚ) - 1) * 10 ^ unit ≤ x.mantissa * 2 ^ x.exponent := by
  have step : (0 : ℚ) < 10 ^ unit := zpow_pos (by norm_num) _
  have under := (x.below_spec unit).1
  rcases x.onGrid?_cases unit with ⟨none, -, -⟩ | ⟨c', found', within, place⟩
  · rw [none] at found
    cases found
  · obtain rfl : c' = c := Option.some.inj (found'.symm.trans found)
    refine ⟨inside_iff.mp within, ?_⟩
    rcases place with rfl | rfl
    · rw [sub_mul]
      linarith
    · push_cast
      rw [add_sub_cancel_right]
      exact under

theorem onGrid?_some (low : x.low < 4 * x.mantissa) (high : 4 * x.mantissa < x.high)
    (fine : (10 : ℚ) ^ unit < (x.high - x.low) * 2 ^ (x.exponent - 2)) :
    ∃ c, x.onGrid? unit = some c := by
  have quarter : (0 : ℚ) < 2 ^ (x.exponent - 2) := zpow_pos (by norm_num) _
  obtain ⟨under, beyond⟩ := x.below_spec unit
  have value : (x.mantissa : ℚ) * 2 ^ x.exponent = 4 * x.mantissa * 2 ^ (x.exponent - 2) := by
    rw [zpow_sub₀ (by norm_num)]
    ring
  have low : (x.low : ℚ) * 2 ^ (x.exponent - 2) < x.mantissa * 2 ^ x.exponent := by
    rw [value]
    exact mul_lt_mul_of_pos_right (by exact_mod_cast low) quarter
  have high : (x.mantissa : ℚ) * 2 ^ x.exponent < x.high * 2 ^ (x.exponent - 2) := by
    rw [value]
    exact mul_lt_mul_of_pos_right (by exact_mod_cast high) quarter
  have next : ((x.below unit + 1 : ℕ) : ℚ) * 10 ^ unit = x.below unit * 10 ^ unit + 10 ^ unit := by
    push_cast
    rw [add_mul, one_mul]
  rw [sub_mul] at fine
  rw [add_mul, one_mul] at beyond
  rcases x.onGrid?_cases unit with ⟨-, outBelow, outAbove⟩ | ⟨c, found, -, -⟩
  · have lowOut : (x.below unit : ℚ) * 10 ^ unit ≤ x.low * 2 ^ (x.exponent - 2) := by
      by_contra more
      have within : x.Holds (x.below unit * 10 ^ unit) :=
        ⟨by linarith, by linarith, fun _ => ⟨by linarith, by linarith⟩⟩
      rw [inside_iff.mpr within] at outBelow
      cases outBelow
    have highOut : x.high * 2 ^ (x.exponent - 2) ≤ ((x.below unit + 1 : ℕ) : ℚ) * 10 ^ unit := by
      by_contra less
      have within : x.Holds ((x.below unit + 1 : ℕ) * 10 ^ unit) :=
        ⟨by linarith, by linarith, fun _ => ⟨by linarith, by linarith⟩⟩
      rw [inside_iff.mpr within] at outAbove
      cases outAbove
    linarith
  · exact ⟨c, found⟩

/-- A search takes the first grid with a point in the interval. -/
theorem search_spec {top : ℤ} {fuel n k : ℕ} (more : n ≤ k) (reach : k < n + fuel)
    (found : ∃ c, x.onGrid? (top + 1 - k) = some c) :
    ∃ k' c, k' ≤ k ∧ x.onGrid? (top + 1 - k') = some c ∧
      x.search top fuel n = dropZeros 20 ⟨c, top + 1 - k'⟩ := by
  induction fuel generalizing n with
  | zero => omega
  | succ fuel ih =>
    rw [search]
    split
    · rename_i c here
      exact ⟨n, c, more, here, rfl⟩
    · rename_i none
      have other : n ≠ k := by
        rintro rfl
        obtain ⟨c, found⟩ := found
        rw [none] at found
        cases found
      exact ih (by omega) (by omega)

end Binary

section Shortest

variable {m : ℕ} {q : ℤ} {v : ℚ}

theorem interval_low (canonical : Canonical m q) :
    ((interval m q).low : ℚ) = 4 * (m - if m = 2 ^ 52 ∧ -1074 < q then 1 / 4 else 1 / 2) := by
  have pos := canonical.pos
  unfold interval
  dsimp only
  split
  · rw [Nat.cast_sub (by omega)]
    push_cast
    ring
  · rw [Nat.cast_sub (by omega)]
    push_cast
    ring

theorem interval_high (m : ℕ) (q : ℤ) : ((interval m q).high : ℚ) = 4 * (m + 1 / 2) := by
  unfold interval
  push_cast
  ring

theorem quarters (a : ℚ) (q : ℤ) : 4 * a * 2 ^ (q - 2) = a * 2 ^ q := by
  rw [zpow_sub₀ (by norm_num)]
  ring

/-- What lies in the interval of a binary number is rounded to it. -/
theorem Binary.Holds.roundsTo (holds : (interval m q).Holds v) (canonical : Canonical m q) :
    RoundsTo v m q := by
  obtain ⟨low, high, odd⟩ := holds
  have exponent : (interval m q).exponent = q := rfl
  rw [interval_low canonical, exponent, quarters] at low odd
  rw [interval_high, exponent, quarters] at high
  rw [interval_high, quarters] at odd
  refine ⟨low, high, fun parity => ?_⟩
  have other : ¬ (m = 2 ^ 52 ∧ -1074 < q) := fun h => by omega
  have odd := odd parity
  rw [if_neg other] at odd
  exact odd

theorem first_digit (pos : 0 < m) (q : ℤ) :
    (10 : ℚ) ^ leading (scaled m 2 q).1 (scaled m 2 q).2 ≤ m * 2 ^ q ∧
      (m : ℚ) * 2 ^ q < 10 ^ (leading (scaled m 2 q).1 (scaled m 2 q).2 + 1) := by
  have unit : (0 : ℚ) < 2 ^ q := zpow_pos (by norm_num) q
  have den : (0 : ℚ) < (scaled m 2 q).2 := by exact_mod_cast scaled_pos m (by decide) q
  have fraction := scaled_eq m (show 0 < 2 by decide) q
  push_cast at fraction
  have num : 0 < (scaled m 2 q).1 := by
    have : (0 : ℚ) < (scaled m 2 q).1 := by
      rw [fraction]
      positivity
    exact_mod_cast this
  have bounds := leading_spec num (scaled_pos m (show 0 < 2 by decide) q)
  rw [fraction, mul_le_mul_iff_left₀ den, mul_lt_mul_iff_left₀ den] at bounds
  exact bounds

theorem seventeen_digits (canonical : Canonical m q) {top : ℤ} (first : (10 : ℚ) ^ top ≤ m * 2 ^ q) :
    ∃ c, (interval m q).onGrid? (top + 1 - (17 : ℕ)) = some c := by
  have some : (1 : ℚ) ≤ m := by exact_mod_cast canonical.pos
  have small : (m : ℚ) + 1 ≤ 2 ^ 53 := by exact_mod_cast canonical.small
  have low := interval_low canonical
  refine Binary.onGrid?_some ?_ (Nat.lt_add_of_pos_right (show 0 < 2 by decide)) ?_
  · have : ((interval m q).low : ℚ) < (4 * m : ℕ) := by
      rw [low]
      push_cast
      split <;> linarith
    exact_mod_cast this
  · have split : (10 : ℚ) ^ (top + 1 - (17 : ℕ)) = 10 ^ top / 10 ^ 16 := by
      have : top + 1 - (17 : ℕ) = top - 16 := by omega
      rw [this, zpow_sub₀ (by norm_num)]
      rfl
    have gap : (4 * m : ℚ) < ((interval m q).high - (interval m q).low) * 10 ^ 16 := by
      rw [low, interval_high]
      split_ifs with power
      · rw [power.1]
        norm_num
      · norm_num at small ⊢
        linarith
    rw [split, div_lt_iff₀ (by norm_num)]
    calc (10 : ℚ) ^ top ≤ 4 * m * 2 ^ (q - 2) := by
          rw [quarters]
          exact first
      _ < ((interval m q).high - (interval m q).low) * 10 ^ 16 * 2 ^ (q - 2) :=
          mul_lt_mul_of_pos_right gap (zpow_pos (by norm_num) _)
      _ = _ := by
          rw [mul_right_comm]
          rfl

/-- The digits of a binary number are rounded to it, and they are not many. -/
theorem shortest_spec (canonical : Canonical m q) :
    0 < (interval m q).shortest.digits ∧ (interval m q).shortest.digits ≤ 10 ^ 17 ∧
      RoundsTo ((interval m q).shortest.digits * 10 ^ (interval m q).shortest.exponent) m q := by
  obtain ⟨first, beyond⟩ := first_digit canonical.pos q
  have opened : (interval m q).shortest =
      (interval m q).search (leading (scaled m 2 q).1 (scaled m 2 q).2) 17 1 := rfl
  generalize leading (scaled m 2 q).1 (scaled m 2 q).2 = top at first beyond opened
  obtain ⟨k, c, few, found, digits⟩ := Binary.search_spec (show 1 ≤ 17 by decide)
    (show 17 < 1 + 17 by decide) (seventeen_digits canonical first)
  obtain ⟨holds, near⟩ := Binary.onGrid?_spec found
  obtain ⟨less, value⟩ := dropZeros_spec 20 ⟨c, top + 1 - k⟩
  rw [← opened] at digits
  rw [← digits] at less value
  have rounds := holds.roundsTo canonical
  rw [← value] at rounds
  refine ⟨?_, less.trans ?_, rounds⟩
  · by_contra none
    have none : (interval m q).shortest.digits = 0 := by omega
    have low := rounds.low
    have some : (1 : ℚ) ≤ m := by exact_mod_cast canonical.pos
    have positive : 0 < ((m : ℚ) - if m = 2 ^ 52 ∧ -1074 < q then 1 / 4 else 1 / 2) * 2 ^ q :=
      mul_pos (by split <;> linarith) (zpow_pos (by norm_num) q)
    rw [none, Nat.cast_zero, zero_mul] at low
    linarith
  · by_contra more
    have more : (10 : ℚ) ^ 17 + 1 ≤ c := by exact_mod_cast Nat.not_le.mp more
    have step : (0 : ℚ) < 10 ^ (top + 1 - k) := zpow_pos (by norm_num) _
    have exceeds : (10 : ℚ) ^ (top + 1) ≤ m * 2 ^ q := by
      calc (10 : ℚ) ^ (top + 1) = 10 ^ k * 10 ^ (top + 1 - k) := by
            rw [← zpow_natCast, ← zpow_add₀ (by norm_num)]
            congr 1
            ring
        _ ≤ 10 ^ 17 * 10 ^ (top + 1 - k) :=
            mul_le_mul_of_nonneg_right (pow_le_pow_right₀ (by norm_num) few) step.le
        _ ≤ (c - 1) * 10 ^ (top + 1 - k) := mul_le_mul_of_nonneg_right (by linarith) step.le
        _ ≤ _ := near
    linarith

end Shortest

end SchemaDiagram.Decimal
