import Mathlib

/-!
How numbers are rounded to binary numbers. A mantissa with two bits behind it tells where a number lies
between two whole ones, so that it can be shifted and rounded as the number itself; of all numbers near
a binary number it is the one that they are rounded to.
-/

set_option autoImplicit false

namespace SchemaDiagram.Decimal

open Float.Model Float.Model.UnpackedFloat

/-- A mantissa with its bits stands for a number: the bits tell whether the rest is none, less than a half,
a half, or more. -/
def Stands (em : ExtendedMantissa) (v : ℚ) : Prop :=
  match em.roundBit, em.stickyBit with
  | false, false => v = em.mantissa
  | false, true => em.mantissa < v ∧ v < em.mantissa + 1 / 2
  | true, false => v = em.mantissa + 1 / 2
  | true, true => em.mantissa + 1 / 2 < v ∧ v < em.mantissa + 1

/-- A whole number is nearest to another number; from the middle between two the even one is. -/
structure Nearest (v : ℚ) (m : ℕ) : Prop where
  low : (m : ℚ) - 1 / 2 ≤ v
  high : v ≤ m + 1 / 2
  odd : m % 2 = 1 → (m : ℚ) - 1 / 2 < v ∧ v < m + 1 / 2

namespace Stands

variable {em : ExtendedMantissa} {v : ℚ}

theorem floor (h : Stands em v) : (em.mantissa : ℚ) ≤ v ∧ v < em.mantissa + 1 := by
  obtain ⟨m, r, s⟩ := em
  cases r <;> cases s <;> simp only [Stands] at h ⊢ <;> constructor <;> linarith

theorem shiftRightOne (h : Stands em v) : Stands em.shiftRightOne (v / 2) := by
  obtain ⟨m, r, s⟩ := em
  have halves : (m : ℚ) = 2 * (m / 2 : ℕ) + (m % 2 : ℕ) := by exact_mod_cast (Nat.div_add_mod m 2).symm
  rcases Nat.mod_two_eq_zero_or_one m with parity | parity <;>
    rw [parity] at halves <;> cases r <;> cases s <;>
    simp [Stands, ExtendedMantissa.shiftRightOne, parity] at h halves ⊢ <;>
    first | linarith | (constructor <;> linarith)

theorem shiftRight (h : Stands em v) (n : ℕ) : Stands (em >>> n) (v / 2 ^ n) := by
  induction n with
  | zero => simpa [HShiftRight.hShiftRight, Nat.repeat] using h
  | succ n ih =>
    rw [pow_succ, ← div_div]
    exact ih.shiftRightOne

theorem rounded (h : Stands em v) {m : ℕ} (near : Nearest v m) : em.roundedMantissa = m := by
  have floor := h.floor
  obtain ⟨k, r, s⟩ := em
  obtain ⟨low, high, odd⟩ := near
  have below : k ≤ m := by
    by_contra more
    have : (m : ℚ) + 1 ≤ k := by exact_mod_cast Nat.not_le.mp more
    linarith [floor.1]
  have above : m ≤ k + 1 := by
    by_contra more
    have : (k : ℚ) + 2 ≤ m := by exact_mod_cast Nat.not_le.mp more
    linarith [floor.2]
  rcases Nat.eq_or_lt_of_le below with rfl | less
  · have odd := fun parity => (odd parity).2
    cases r <;> cases s <;>
      simp only [Stands, ExtendedMantissa.roundedMantissa, ExtendedMantissa.accuracy,
        Accuracy.roundToNearestEven] at h ⊢
    · rcases Nat.mod_two_eq_zero_or_one k with parity | parity
      · rw [parity, Nat.add_zero]
      · linarith [odd parity]
    · linarith
  · obtain rfl : m = k + 1 := by omega
    push_cast at low odd
    cases r <;> cases s <;>
      simp only [Stands, ExtendedMantissa.roundedMantissa, ExtendedMantissa.accuracy,
        Accuracy.roundToNearestEven] at h ⊢
    · linarith
    · linarith
    · rcases Nat.mod_two_eq_zero_or_one k with parity | parity
      · linarith [odd (by omega)]
      · rw [parity]

end Stands

/-- A mantissa and an exponent in the one form that each positive binary number has. -/
structure Canonical (m : ℕ) (e : ℤ) : Prop where
  pos : 0 < m
  small : m < 2 ^ 53
  least : -1074 ≤ e
  full : 2 ^ 52 ≤ m ∨ e = -1074

/-- A number lies where the binary number `m · 2 ^ e` is the nearest. Below a power of two the neighbours are
half as far apart. -/
structure RoundsTo (x : ℚ) (m : ℕ) (e : ℤ) : Prop where
  low : ((m : ℚ) - if m = 2 ^ 52 ∧ -1074 < e then 1 / 4 else 1 / 2) * 2 ^ e ≤ x
  high : x ≤ (m + 1 / 2) * 2 ^ e
  odd : m % 2 = 1 → (m - 1 / 2) * 2 ^ e < x ∧ x < (m + 1 / 2) * 2 ^ e

theorem targetExponent_eq (m : ℕ) (e : ℤ) :
    Format.binary64.targetExponent (totalExponent m e) = max (m.log2 + e - 52) (-1074) := by
  simp only [Format.targetExponent, totalExponent, Format.mantissaBits, Format.minExponent]
  norm_num
  omega

theorem shift_of_small {m : ℕ} {e : ℤ} (small : m < 2 ^ 53) (least : -1074 ≤ e) :
    shiftToTargetExponent .binary64 m e .exact = (⟨m, false, false⟩, e) := by
  have log : m.log2 ≤ 52 := by
    rcases Nat.eq_zero_or_pos m with rfl | pos
    · exact Nat.zero_le _
    · exact Nat.lt_succ_iff.mp ((Nat.log2_lt pos.ne').mpr small)
  have stays : (Format.binary64.targetExponent (totalExponent m e) - e).toNat = 0 := by
    rw [targetExponent_eq]
    omega
  unfold shiftToTargetExponent shiftToExponent
  dsimp only
  rw [stays]
  simp [HShiftRight.hShiftRight, Nat.repeat, ExtendedMantissa.ofMantissaAndAccuracy]

theorem shift_of_carry {e : ℤ} (least : -1074 ≤ e) :
    shiftToTargetExponent .binary64 (2 ^ 53) e .exact = (⟨2 ^ 52, false, false⟩, e + 1) := by
  have next : (Format.binary64.targetExponent (totalExponent (2 ^ 53) e) - e).toNat = 1 := by
    rw [targetExponent_eq, Nat.log2_two_pow]
    omega
  unfold shiftToTargetExponent shiftToExponent
  dsimp only
  rw [next]
  simp [HShiftRight.hShiftRight, Nat.repeat, ExtendedMantissa.ofMantissaAndAccuracy,
    ExtendedMantissa.shiftRightOne]

section Rounded

variable {s : Sign} {k m : ℕ} {e t q : ℤ} {a : Accuracy} {v x : ℚ}

theorem first_stands (stands : Stands (ExtendedMantissa.ofMantissaAndAccuracy k a) v) (value : x = v * 2 ^ e)
    (target : Format.binary64.targetExponent (totalExponent k e) = t) (fine : e ≤ t) :
    ∃ em, shiftToTargetExponent .binary64 k e a = (em, t) ∧ Stands em (x / 2 ^ t) := by
  obtain ⟨n, rfl⟩ : ∃ n : ℕ, t = e + n := ⟨(t - e).toNat, by omega⟩
  have amount : (e + (n : ℤ) - e).toNat = n := by omega
  refine ⟨ExtendedMantissa.ofMantissaAndAccuracy k a >>> n, ?_, ?_⟩
  · unfold shiftToTargetExponent shiftToExponent
    dsimp only
    rw [target, amount]
  · have scaled : x / 2 ^ (e + (n : ℤ)) = v / 2 ^ n := by
      rw [value, zpow_add₀ (by norm_num), zpow_natCast]
      field_simp
    rw [scaled]
    exact stands.shiftRight n

theorem rounds_at (stands : Stands (ExtendedMantissa.ofMantissaAndAccuracy k a) v) (value : x = v * 2 ^ e)
    (target : Format.binary64.targetExponent (totalExponent k e) = q) (fine : e ≤ q)
    (canonical : Canonical m q) (near : Nearest (x / 2 ^ q) m) :
    roundWithAccuracy .binary64 s k e a = .finite s m q canonical.pos := by
  obtain ⟨em, first, shifted⟩ := first_stands stands value target fine
  unfold roundWithAccuracy
  simp only [first, shifted.rounded near, shift_of_small canonical.small canonical.least,
    dif_neg canonical.pos.ne']

theorem rounds_to_carry (stands : Stands (ExtendedMantissa.ofMantissaAndAccuracy k a) v)
    (value : x = v * 2 ^ e) (target : Format.binary64.targetExponent (totalExponent k e) = q - 1)
    (fine : e ≤ q - 1) (least : -1074 < q) (near : Nearest (x / 2 ^ (q - 1)) (2 ^ 53)) :
    roundWithAccuracy .binary64 s k e a = .finite s (2 ^ 52) q (by decide) := by
  obtain ⟨em, first, shifted⟩ := first_stands stands value target fine
  unfold roundWithAccuracy
  simp only [first, shifted.rounded near, shift_of_carry (show -1074 ≤ q - 1 by omega)]
  simp

theorem target_of_between (whole : (k : ℚ) ≤ v ∧ v < k + 1) (value : x = v * 2 ^ e)
    (fine : 52 ≤ k.log2 ∨ e ≤ -1074) :
    (∀ p, -1021 ≤ p → x < 2 ^ p → Format.binary64.targetExponent (totalExponent k e) ≤ p - 53) ∧
      ∀ p, 2 ^ p ≤ x → p - 52 ≤ Format.binary64.targetExponent (totalExponent k e) := by
  have scale : (0 : ℚ) < 2 ^ e := zpow_pos (by norm_num) e
  rw [targetExponent_eq]
  constructor
  · intro p bound less
    rcases Nat.eq_zero_or_pos k with rfl | pos
    · have : e ≤ -1074 := fine.resolve_left (by decide)
      have : Nat.log2 0 = 0 := rfl
      omega
    · have log : (2 : ℚ) ^ (k.log2 : ℤ) ≤ k := by
        rw [zpow_natCast]
        exact_mod_cast Nat.log2_self_le pos.ne'
      have below : (2 : ℚ) ^ ((k.log2 : ℤ) + e) < 2 ^ p := by
        rw [zpow_add₀ (by norm_num)]
        calc (2 : ℚ) ^ (k.log2 : ℤ) * 2 ^ e ≤ v * 2 ^ e :=
              mul_le_mul_of_nonneg_right (log.trans whole.1) scale.le
          _ < 2 ^ p := value ▸ less
      have := (zpow_lt_zpow_iff_right₀ (by norm_num : (1 : ℚ) < 2)).mp below
      omega
  · intro p more
    have log : (k : ℚ) + 1 ≤ 2 ^ ((k.log2 : ℤ) + 1) := by
      have : k + 1 ≤ 2 ^ (k.log2 + 1) := Nat.lt_log2_self
      exact_mod_cast this
    have above : (2 : ℚ) ^ p < 2 ^ ((k.log2 : ℤ) + 1 + e) := by
      rw [zpow_add₀ (by norm_num) _ e]
      calc (2 : ℚ) ^ p ≤ v * 2 ^ e := value ▸ more
        _ < (k + 1) * 2 ^ e := mul_lt_mul_of_pos_right whole.2 scale
        _ ≤ _ := mul_le_mul_of_nonneg_right log scale.le
    have := (zpow_lt_zpow_iff_right₀ (by norm_num : (1 : ℚ) < 2)).mp above
    omega

theorem RoundsTo.nearest (near : RoundsTo x m q) : Nearest (x / 2 ^ q) m := by
  have unit : (0 : ℚ) < 2 ^ q := zpow_pos (by norm_num) q
  refine ⟨?_, (div_le_iff₀ unit).mpr near.high, fun odd => ?_⟩
  · refine (le_div_iff₀ unit).mpr (le_trans (mul_le_mul_of_nonneg_right ?_ unit.le) near.low)
    split <;> linarith
  · obtain ⟨low, high⟩ := near.odd odd
    exact ⟨(lt_div_iff₀ unit).mpr low, (div_lt_iff₀ unit).mpr high⟩

theorem RoundsTo.nearest_carry (near : RoundsTo x (2 ^ 52) q) (normal : -1074 < q) (below : x < 2 ^ (52 + q)) :
    Nearest (x / 2 ^ (q - 1)) (2 ^ 53) := by
  have unit : (0 : ℚ) < 2 ^ (q - 1) := zpow_pos (by norm_num) (q - 1)
  have twice : (2 : ℚ) ^ q = 2 * 2 ^ (q - 1) := by
    rw [zpow_sub_one₀ (by norm_num)]
    ring
  have low := near.low
  rw [if_pos ⟨rfl, normal⟩, twice] at low
  rw [zpow_add₀ (by norm_num), twice] at below
  refine ⟨(le_div_iff₀ unit).mpr ?_, ((div_lt_iff₀ unit).mpr ?_).le, fun odd => absurd odd (by decide)⟩
  · push_cast at low ⊢
    linarith
  · norm_num at below ⊢
    linarith

/-- Of what lies near a binary number it is the one that is rounded to, if the mantissa has enough bits. -/
theorem round_eq (stands : Stands (ExtendedMantissa.ofMantissaAndAccuracy k a) v) (value : x = v * 2 ^ e)
    (fine : 52 ≤ k.log2 ∨ e ≤ -1074) (canonical : Canonical m q) (near : RoundsTo x m q) :
    roundWithAccuracy .binary64 s k e a = .finite s m q canonical.pos := by
  have whole : (k : ℚ) ≤ v ∧ v < k + 1 := by
    have floor := stands.floor
    rcases a with - | (- | - | -) <;> exact floor
  have unit : (0 : ℚ) < 2 ^ q := zpow_pos (by norm_num) q
  have least := canonical.least
  obtain ⟨upper, lower⟩ := target_of_between whole value fine
  have floor : -1074 ≤ Format.binary64.targetExponent (totalExponent k e) :=
    targetExponent_eq k e ▸ le_max_right _ _
  have fits : e ≤ Format.binary64.targetExponent (totalExponent k e) := by
    rw [targetExponent_eq]
    omega
  have top : Format.binary64.targetExponent (totalExponent k e) ≤ q := by
    have small : (m : ℚ) + 1 ≤ 2 ^ 53 := by exact_mod_cast canonical.small
    have := upper (53 + q) (by omega) <| near.high.trans_lt <| by
      rw [zpow_add₀ (by norm_num)]
      exact mul_lt_mul_of_pos_right (by norm_num at small ⊢; linarith) unit
    omega
  have settled (same : Format.binary64.targetExponent (totalExponent k e) = q) :=
    rounds_at (s := s) stands value same (same ▸ fits) canonical near.nearest
  by_cases normal : q = -1074
  · exact settled (by omega)
  have full := canonical.full.resolve_right normal
  by_cases above : (2 : ℚ) ^ (52 + q) ≤ x
  · have := lower (52 + q) above
    exact settled (by omega)
  have below := not_le.mp above
  obtain rfl : m = 2 ^ 52 := by
    by_contra other
    have more : (2 : ℚ) ^ 52 + 1 ≤ m := by exact_mod_cast Nat.lt_of_le_of_ne full (Ne.symm other)
    have low := near.low
    rw [if_neg fun h => other h.1] at low
    refine above (le_trans ?_ low)
    rw [zpow_add₀ (by norm_num), zpow_ofNat]
    exact mul_le_mul_of_nonneg_right (by linarith) unit.le
  have less := upper (52 + q) (by omega) below
  have more := lower (51 + q) <| le_trans ?_ near.low
  · have step : Format.binary64.targetExponent (totalExponent k e) = q - 1 := by omega
    exact rounds_to_carry stands value step (step ▸ fits) (by omega)
      (near.nearest_carry (by omega) below)
  · rw [zpow_add₀ (by norm_num)]
    refine mul_le_mul_of_nonneg_right ?_ unit.le
    split <;> norm_num

end Rounded

end SchemaDiagram.Decimal
