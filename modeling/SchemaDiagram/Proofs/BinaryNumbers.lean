import Mathlib
import SchemaDiagram.Decimal.Reader
import SchemaDiagram.Proofs.Rounding

/-!
Decimal numbers as binary ones. Products and quotients are rounded to the binary number that they are near,
so a decimal number is read as the binary number in whose interval it lies, with either sign.
-/

set_option autoImplicit false

namespace SchemaDiagram.Decimal

open Float.Model Float.Model.UnpackedFloat

variable {s : Sign} {m : ℕ} {q : ℤ}

theorem toNat_implicit {n : ℕ} (b : BitVec n) : (1#1 ++ b).toNat = 2 ^ n + b.toNat := by
  rw [BitVec.toNat_append, ← Nat.shiftLeft_add_eq_or_of_lt b.isLt]
  simp [Nat.shiftLeft_eq]

theorem Canonical.unpack_pack (h : Canonical m q) (most : q ≤ 971) :
    UnpackedFloat.unpack .binary64 (UnpackedFloat.pack .binary64 (.finite s m q h.pos)) = .finite s m q h.pos := by
  obtain ⟨pos, small, least, full⟩ := h
  have biased : (q + (Format.binary64.exponentBias : ℤ) +
      (Format.binary64.mantissaBitsWithoutImplicit : ℤ)).toNat = (q + 1075).toNat := by
    norm_num [Format.exponentBias]
    omega
  have fits : ¬ 2 ^ 11 ≤ (q + 1075).toNat + 1 := by omega
  unfold UnpackedFloat.pack
  simp only [biased]
  rw [if_neg fits]
  by_cases normal : 2 ^ 52 ≤ m
  · have log : m.log2 = 52 := (Nat.log2_eq_iff pos.ne').mpr ⟨normal, small⟩
    have exponent : (BitVec.ofNat 11 (q + 1075).toNat).toNat = (q + 1075).toNat := by
      rw [BitVec.toNat_ofNat, Nat.mod_eq_of_lt (by omega)]
    have some : BitVec.ofNat 11 (q + 1075).toNat ≠ 0#11 := fun h => by
      have := congrArg BitVec.toNat h
      rw [exponent, BitVec.toNat_zero] at this
      omega
    have finite : BitVec.ofNat 11 (q + 1075).toNat ≠ -1#11 := fun h => by
      have := congrArg BitVec.toNat h
      rw [exponent] at this
      simp at this
      omega
    have mantissa : (1#1 ++ BitVec.ofNat 52 m).toNat = m := by
      rw [toNat_implicit, BitVec.toNat_ofNat]
      omega
    rw [if_pos (by rw [log]; rfl)]
    unfold UnpackedFloat.unpack
    simp only [unpackMantissa_packComponents, unpackExponent_packComponents, unpackSign_packComponents,
      Sign.ofBitVec_toBitVec]
    rw [if_neg finite, if_neg some]
    simp only [mantissa, exponent]
    congr 1
    norm_num [Format.exponentBias]
    omega
  · obtain rfl := full.resolve_left normal
    have less : m < 2 ^ 52 := Nat.not_le.mp normal
    have log : m.log2 + 1 ≠ Format.binary64.mantissaBits := by
      have := (Nat.log2_lt pos.ne').mpr less
      change m.log2 + 1 ≠ 53
      omega
    have mantissa : (BitVec.ofNat 52 m).toNat = m := by
      rw [BitVec.toNat_ofNat, Nat.mod_eq_of_lt less]
    have some : BitVec.ofNat 52 m ≠ 0#52 := fun h => by
      have := congrArg BitVec.toNat h
      rw [mantissa, BitVec.toNat_zero] at this
      omega
    rw [if_neg log]
    unfold UnpackedFloat.unpack
    simp only [unpackMantissa_packComponents, unpackExponent_packComponents, unpackSign_packComponents,
      Sign.ofBitVec_toBitVec]
    rw [if_neg (by decide), if_pos trivial, dif_neg some]
    simp only [mantissa]
    rfl

theorem stands_exact (m : ℕ) : Stands (ExtendedMantissa.ofMantissaAndAccuracy m .exact) m := rfl

theorem stands_quotient (n : ℕ) {d : ℕ} (pos : 0 < d) :
    Stands (ExtendedMantissa.ofMantissaAndAccuracy (n / d) (accuracyOfFraction (n % d) d))
      ((n : ℚ) / d) := by
  have den : (0 : ℚ) < d := by exact_mod_cast pos
  have split : (n : ℚ) / d = (n / d : ℕ) + (n % d : ℕ) / d := by
    rw [eq_comm, ← sub_eq_zero]
    have : (d : ℚ) * (n / d : ℕ) + (n % d : ℕ) = n := by exact_mod_cast Nat.div_add_mod n d
    field_simp
    linarith
  have rest : ((n % d : ℕ) : ℚ) / d < 1 := (div_lt_one den).mpr (by exact_mod_cast Nat.mod_lt n pos)
  rw [split]
  unfold accuracyOfFraction
  by_cases none : n % d = 0
  · rw [if_pos none, none]
    simp [Stands, ExtendedMantissa.ofMantissaAndAccuracy]
  · rw [if_neg none]
    have some : (0 : ℚ) < (n % d : ℕ) / d := div_pos (by exact_mod_cast Nat.pos_of_ne_zero none) den
    rcases lt_trichotomy (2 * (n % d)) d with less | same | more
    · rw [compare_lt_iff_lt.mpr less]
      have : ((n % d : ℕ) : ℚ) / d < 1 / 2 := by
        rw [div_lt_iff₀ den]
        have : (2 : ℚ) * (n % d : ℕ) < d := by exact_mod_cast less
        linarith
      exact ⟨lt_add_of_pos_right _ some, (add_lt_add_iff_left _).mpr this⟩
    · rw [compare_eq_iff_eq.mpr same]
      have : ((n % d : ℕ) : ℚ) / d = 1 / 2 := by
        rw [div_eq_iff den.ne']
        have : (2 : ℚ) * (n % d : ℕ) = d := by exact_mod_cast same
        linarith
      simp [Stands, ExtendedMantissa.ofMantissaAndAccuracy, this]
    · rw [compare_gt_iff_gt.mpr more]
      have : 1 / 2 < ((n % d : ℕ) : ℚ) / d := by
        rw [lt_div_iff₀ den]
        have : (d : ℚ) < 2 * (n % d : ℕ) := by exact_mod_cast more
        linarith
      exact ⟨(add_lt_add_iff_left _).mpr this, (add_lt_add_iff_left _).mpr rest⟩

section Operations

variable {s₁ s₂ : Sign} {m₁ m₂ : ℕ} {e₁ e₂ : ℤ} {pos₁ : 0 < m₁} {pos₂ : 0 < m₂}

theorem mul_eq (canonical : Canonical m q) (near : RoundsTo (((m₁ : ℚ) * m₂) * 2 ^ (e₁ + e₂)) m q)
    (fine : 2 ^ 52 ≤ m₁ * m₂) :
    UnpackedFloat.mul .binary64 (.finite s₁ m₁ e₁ pos₁) (.finite s₂ m₂ e₂ pos₂) =
      .finite (s₁ * s₂) m q canonical.pos := by
  have log : 52 ≤ (m₁ * m₂).log2 := (Nat.le_log2 (Nat.mul_pos pos₁ pos₂).ne').mpr fine
  unfold UnpackedFloat.mul
  exact round_eq (stands_exact _) (by push_cast; rfl) (.inl log) canonical near

theorem div_eq (canonical : Canonical m q) (near : RoundsTo ((m₁ : ℚ) / m₂ * 2 ^ (e₁ - e₂)) m q) :
    UnpackedFloat.div .binary64 (.finite s₁ m₁ e₁ pos₁) (.finite s₂ m₂ e₂ pos₂) =
      .finite (s₁ / s₂) m q canonical.pos := by
  have target : Format.binary64.targetExponent (totalExponent m₁ e₁ - totalExponent m₂ e₂) =
      max ((m₁.log2 : ℤ) + e₁ - m₂.log2 - e₂ - 53) (-1074) := by
    simp only [Format.targetExponent, totalExponent, Format.mantissaBits, Format.minExponent]
    norm_num
    omega
  unfold UnpackedFloat.div divCore
  simp only [target]
  obtain ⟨n, hn⟩ : ∃ n : ℕ, e₁ - e₂ - min (e₁ - e₂)
      (max ((m₁.log2 : ℤ) + e₁ - m₂.log2 - e₂ - 53) (-1074)) = n :=
    ⟨_, (Int.toNat_of_nonneg (by omega)).symm⟩
  rw [hn, Int.toNat_natCast, Nat.shiftLeft_eq]
  refine round_eq (stands_quotient _ pos₂) ?_ ?_ canonical near
  · have exponent : min (e₁ - e₂) (max ((m₁.log2 : ℤ) + e₁ - m₂.log2 - e₂ - 53) (-1074)) =
        e₁ - e₂ - n := by omega
    rw [exponent, zpow_sub₀ (by norm_num) (e₁ - e₂), zpow_natCast]
    push_cast
    field_simp
  · by_cases deep : min (e₁ - e₂) (max ((m₁.log2 : ℤ) + e₁ - m₂.log2 - e₂ - 53) (-1074)) ≤ -1074
    · exact .inr deep
    · have shift : m₂.log2 + 53 ≤ m₁.log2 + n := by omega
      have enough : 2 ^ 52 ≤ m₁ * 2 ^ n / m₂ := by
        rw [Nat.le_div_iff_mul_le pos₂]
        calc 2 ^ 52 * m₂ ≤ 2 ^ 52 * 2 ^ (m₂.log2 + 1) := Nat.mul_le_mul_left _ Nat.lt_log2_self.le
          _ = 2 ^ (m₂.log2 + 53) := by rw [← pow_add]; congr 1; omega
          _ ≤ 2 ^ (m₁.log2 + n) := Nat.pow_le_pow_right (by decide) shift
          _ = 2 ^ m₁.log2 * 2 ^ n := pow_add ..
          _ ≤ m₁ * 2 ^ n := Nat.mul_le_mul_right _ (Nat.log2_self_le pos₁.ne')
      exact .inl ((Nat.le_log2 (by omega)).mpr enough)

end Operations

/-- A positive binary number that is a rational one. -/
structure Exactly (u : UnpackedFloat) (x : ℚ) (m : ℕ) (e : ℤ) : Prop where
  canonical : Canonical m e
  parts : u = .finite .positive m e canonical.pos
  value : (m : ℚ) * 2 ^ e = x

theorem RoundsTo.self (m : ℕ) (e : ℤ) : RoundsTo ((m : ℚ) * 2 ^ e) m e := by
  have unit : (0 : ℚ) < 2 ^ e := zpow_pos (by norm_num) e
  refine ⟨mul_le_mul_of_nonneg_right ?_ unit.le, mul_le_mul_of_nonneg_right (by linarith) unit.le,
    fun _ => ⟨mul_lt_mul_of_pos_right (by linarith) unit, mul_lt_mul_of_pos_right (by linarith) unit⟩⟩
  split <;> linarith

theorem exactly_ofNat {n : ℕ} (pos : 0 < n) (small : n < 2 ^ 53) :
    Exactly (Float.Model.ofNat n).unpack n (n * 2 ^ (52 - n.log2)) ((n.log2 : ℤ) - 52) := by
  have log : n.log2 ≤ 52 := Nat.lt_succ_iff.mp ((Nat.log2_lt pos.ne').mpr small)
  have shifted : 2 ^ 52 ≤ n * 2 ^ (52 - n.log2) := by
    calc 2 ^ 52 = 2 ^ n.log2 * 2 ^ (52 - n.log2) := by rw [← pow_add]; congr 1; omega
      _ ≤ _ := Nat.mul_le_mul_right _ (Nat.log2_self_le pos.ne')
  have canonical : Canonical (n * 2 ^ (52 - n.log2)) ((n.log2 : ℤ) - 52) := by
    refine ⟨by positivity, ?_, by omega, .inl shifted⟩
    calc n * 2 ^ (52 - n.log2) < 2 ^ (n.log2 + 1) * 2 ^ (52 - n.log2) :=
          Nat.mul_lt_mul_of_pos_right Nat.lt_log2_self (by positivity)
      _ = 2 ^ 53 := by rw [← pow_add]; congr 1; omega
  have rounded : UnpackedFloat.round .binary64 .positive n 0 =
      .finite .positive (n * 2 ^ (52 - n.log2)) ((n.log2 : ℤ) - 52) canonical.pos := by
    have target : Format.binary64.targetExponent (totalExponent n 0) = (n.log2 : ℤ) - 52 := by
      rw [targetExponent_eq]
      omega
    have amount : (0 - ((n.log2 : ℤ) - 52)).toNat = 52 - n.log2 := by omega
    have exponent : (0 : ℤ) - ((52 - n.log2 : ℕ) : ℤ) = (n.log2 : ℤ) - 52 := by omega
    unfold UnpackedFloat.round decreaseExponent
    simp only [target, amount, exponent, Nat.shiftLeft_eq]
    exact round_eq (stands_exact _) rfl (.inl ((Nat.le_log2 canonical.pos.ne').mpr shifted)) canonical
      (.self _ _)
  refine ⟨canonical, ?_, ?_⟩
  · unfold Float.Model.ofNat UnpackedFloat.ofNat UnpackedFloat.ofInt UnpackedFloat.normalize
    rw [Int.compare_eq_gt.mpr (by omega)]
    simp only [Int.toNat_natCast, rounded]
    exact canonical.unpack_pack (by omega)
  · push_cast
    rw [mul_assoc, ← zpow_natCast, ← zpow_add₀ (by norm_num)]
    have : ((52 - n.log2 : ℕ) : ℤ) + ((n.log2 : ℤ) - 52) = 0 := by omega
    rw [this, zpow_zero, mul_one]

def isWhole (n : ℕ) : UnpackedFloat → Bool
  | .finite .positive m e _ => 2 ^ 52 ≤ m && m < 2 ^ 53 && -1074 ≤ e &&
      m * 2 ^ e.toNat == n * 2 ^ (-e).toNat
  | _ => false

theorem exactly_of_isWhole {n : ℕ} {u : UnpackedFloat} (h : isWhole n u = true) :
    ∃ m e, Exactly u n m e := by
  unfold isWhole at h
  split at h
  · rename_i m e pos
    simp only [Bool.and_eq_true, decide_eq_true_eq, beq_iff_eq] at h
    obtain ⟨⟨⟨full, small⟩, least⟩, same⟩ := h
    refine ⟨m, e, ⟨pos, small, least, .inl full⟩, rfl, ?_⟩
    have same : (m : ℚ) * 2 ^ e.toNat = n * 2 ^ (-e).toNat := by exact_mod_cast same
    rcases le_total 0 e with up | down
    · obtain ⟨k, rfl⟩ := Int.eq_ofNat_of_zero_le up
      simpa using same
    · obtain ⟨k, hk⟩ := Int.eq_ofNat_of_zero_le (neg_nonneg.mpr down)
      obtain rfl : e = -k := by omega
      simp at same
      rw [zpow_neg, zpow_natCast, same]
      field_simp
  · cases h

theorem isWhole_power : ∀ i : Fin Float.exactlyRepresentablePowersOfTen.size,
    isWhole (10 ^ i.val) Float.exactlyRepresentablePowersOfTen[i].toModel.unpack = true := by
  decide +kernel

theorem exactly_power (e : ℕ) (h : e < Float.exactlyRepresentablePowersOfTen.size) :
    ∃ m q, Exactly Float.exactlyRepresentablePowersOfTen[e].toModel.unpack ((10 : ℚ) ^ e) m q := by
  obtain ⟨m, q, exactly⟩ := exactly_of_isWhole (isWhole_power ⟨e, h⟩)
  exact ⟨m, q, by simpa using exactly⟩

section Decimal

variable {n : ℕ} {e : ℤ}

theorem ofScientific_quick (pos : 0 < n) (small : n < 2 ^ 53) (few : e.natAbs ≤ 22)
    (canonical : Canonical m q) (near : RoundsTo ((n : ℚ) * 10 ^ e) m q) :
    (Float.ofScientific n (decide (e < 0)) e.natAbs).toModel =
      Float.Model.pack (.finite .positive m q canonical.pos) := by
  have number : Exactly n.toUInt64.toFloat.toModel.unpack n (n * 2 ^ (52 - n.log2)) ((n.log2 : ℤ) - 52) := by
    have whole : n.toUInt64.toNat = n := by
      change n % 2 ^ 64 = n
      exact Nat.mod_eq_of_lt (by omega)
    have same : n.toUInt64.toFloat.toModel = Float.Model.ofNat n := congrArg Float.Model.ofNat whole
    rw [same]
    exact exactly_ofNat pos small
  have known : e.natAbs < Float.exactlyRepresentablePowersOfTen.size := Nat.lt_succ_of_le few
  obtain ⟨m₂, q₂, power⟩ := exactly_power e.natAbs known
  unfold Float.ofScientific
  rw [dif_pos ⟨small, few⟩]
  by_cases down : e < 0
  · rw [decide_eq_true down]
    change Float.Model.pack (UnpackedFloat.div .binary64 _ _) = _
    rw [number.parts, power.parts]
    refine congrArg Float.Model.pack (div_eq canonical ?_)
    have value : (n : ℚ) * 10 ^ e = n / 10 ^ e.natAbs := by
      have : e = -(e.natAbs : ℤ) := by omega
      rw [this, zpow_neg, zpow_natCast, Int.natAbs_neg, Int.natAbs_natCast, div_eq_mul_inv]
    rw [value, ← number.value, ← power.value, mul_div_mul_comm, ← zpow_sub₀ (by norm_num)] at near
    exact near
  · rw [decide_eq_false down]
    change Float.Model.pack (UnpackedFloat.mul .binary64 _ _) = _
    rw [number.parts, power.parts]
    refine congrArg Float.Model.pack (mul_eq canonical ?_ ?_)
    · have value : (n : ℚ) * 10 ^ e = n * 10 ^ e.natAbs := by
        have : e = (e.natAbs : ℤ) := by omega
        conv_lhs => rw [this, zpow_natCast]
      rw [value, ← number.value, ← power.value, mul_mul_mul_comm, ← zpow_add₀ (by norm_num)] at near
      exact near
    · have log : n.log2 ≤ 52 := Nat.lt_succ_iff.mp ((Nat.log2_lt pos.ne').mpr small)
      calc 2 ^ 52 = 2 ^ n.log2 * 2 ^ (52 - n.log2) := by rw [← pow_add]; congr 1; omega
        _ ≤ n * 2 ^ (52 - n.log2) := Nat.mul_le_mul_right _ (Nat.log2_self_le pos.ne')
        _ ≤ _ := Nat.le_mul_of_pos_right _ power.canonical.pos

theorem ofScientific_long (pos : 0 < n) (low : -2048 ≤ e) (high : e ≤ 2048) (canonical : Canonical m q)
    (near : RoundsTo ((n : ℚ) * 10 ^ e) m q) :
    Float.Model.ofScientific n e = Float.Model.pack (.finite .positive m q canonical.pos) := by
  unfold Float.Model.ofScientific UnpackedFloat.ofScientific
  rw [dif_neg pos.ne', if_neg (by norm_num; omega), if_neg (by norm_num; omega)]
  refine congrArg Float.Model.pack ?_
  by_cases up : 0 ≤ e
  · rw [if_pos up]
    refine mul_eq canonical ?_ ?_
    · obtain ⟨k, rfl⟩ := Int.eq_ofNat_of_zero_le up
      have value : (n : ℚ) * 10 ^ (k : ℤ) =
          ((n <<< Format.binary64.mantissaBits : ℕ) : ℚ) * ((10 ^ (k : ℤ).toNat : ℕ) : ℚ) *
            2 ^ (-(Format.binary64.mantissaBits : ℤ) + 0) := by
        change _ = ((n <<< 53 : ℕ) : ℚ) * _ * 2 ^ (-53 + 0 : ℤ)
        rw [Nat.shiftLeft_eq, Int.toNat_natCast, zpow_natCast]
        push_cast
        norm_num
        ring
      rw [← value]
      exact near
    · change 2 ^ 52 ≤ n <<< 53 * 10 ^ e.toNat
      rw [Nat.shiftLeft_eq]
      calc 2 ^ 52 ≤ 1 * 2 ^ 53 * 1 := by decide
        _ ≤ n * 2 ^ 53 * 10 ^ e.toNat :=
          Nat.mul_le_mul (Nat.mul_le_mul_right _ pos) (Nat.one_le_pow _ _ (by decide))
  · rw [if_neg up]
    refine div_eq canonical ?_
    obtain ⟨k, hk⟩ := Int.eq_ofNat_of_zero_le (show 0 ≤ -e by omega)
    have value : (n : ℚ) * 10 ^ e = (n : ℚ) / ((10 ^ (-e).toNat : ℕ) : ℚ) * 2 ^ (0 - 0 : ℤ) := by
      obtain rfl : e = -k := by omega
      rw [neg_neg, Int.toNat_natCast, zpow_neg, zpow_natCast]
      push_cast
      simp [div_eq_mul_inv]
    rw [← value]
    exact near

theorem ofScientific_eq (pos : 0 < n) (low : -2048 ≤ e) (high : e ≤ 2048) (canonical : Canonical m q)
    (near : RoundsTo ((n : ℚ) * 10 ^ e) m q) :
    (Float.ofScientific n (decide (e < 0)) e.natAbs).toModel =
      Float.Model.pack (.finite .positive m q canonical.pos) := by
  by_cases quick : n < 2 ^ 53 ∧ e.natAbs ≤ 22
  · exact ofScientific_quick pos quick.1 quick.2 canonical near
  · unfold Float.ofScientific
    rw [dif_neg quick]
    have exponent : (if decide (e < 0) = true then Int.negOfNat e.natAbs else Int.ofNat e.natAbs) = e := by
      by_cases down : e < 0
      · rw [if_pos (decide_eq_true down), Int.negOfNat_eq, Int.ofNat_eq_natCast]
        omega
      · rw [if_neg (by simpa using down), Int.ofNat_eq_natCast]
        omega
    change Float.Model.ofScientific n _ = _
    rw [exponent]
    exact ofScientific_long pos low high canonical near

theorem width_bounds (pos : 0 < n) : 10 ^ (width n - 1) ≤ n ∧ n < 10 ^ width n := by
  have some : 0 < width n := Nat.length_toDigits_pos
  refine ⟨?_, (Nat.length_toDigits_le_iff (by decide) some).mp le_rfl⟩
  rcases Nat.eq_or_lt_of_le some with one | more
  · rw [← one]
    exact pos
  · by_contra less
    have := (Nat.length_toDigits_le_iff (by decide) (by omega)).mpr (Nat.not_le.mp less)
    change width n ≤ width n - 1 at this
    omega

theorem RoundsTo.near_point (near : RoundsTo ((n : ℚ) * 10 ^ e) m q) (pos : 0 < n) (canonical : Canonical m q)
    (top : q ≤ 971) : -400 ≤ width n + e ∧ width n + e ≤ 400 := by
  have unit : (0 : ℚ) < 2 ^ q := zpow_pos (by norm_num) q
  have scale : (0 : ℚ) < 10 ^ e := zpow_pos (by norm_num) e
  have some : 0 < width n := Nat.length_toDigits_pos
  obtain ⟨least, beyond⟩ := width_bounds pos
  constructor
  · have half : (1 / 2 : ℚ) ≤ m - if m = 2 ^ 52 ∧ -1074 < q then 1 / 4 else 1 / 2 := by
      have : (1 : ℚ) ≤ m := by exact_mod_cast canonical.pos
      split <;> linarith
    have below : (10 : ℚ) ^ (-324 : ℤ) < 10 ^ (width n + e) := by
      have small : (2 : ℚ) ^ 1075 ≤ 10 ^ 324 := by
        exact_mod_cast (show 2 ^ 1075 ≤ 10 ^ 324 by decide +kernel)
      calc (10 : ℚ) ^ (-324 : ℤ) = (10 ^ 324)⁻¹ := zpow_neg ..
        _ ≤ (2 ^ 1075)⁻¹ := inv_anti₀ (by positivity) small
        _ = 1 / 2 * 2 ^ (-1074 : ℤ) := by
          rw [zpow_neg, pow_succ, mul_inv, mul_comm, one_div]
          rfl
        _ ≤ 1 / 2 * 2 ^ q :=
          mul_le_mul_of_nonneg_left (zpow_le_zpow_right₀ (by norm_num) canonical.least) (by norm_num)
        _ ≤ _ := mul_le_mul_of_nonneg_right half unit.le
        _ ≤ n * 10 ^ e := near.low
        _ < 10 ^ width n * 10 ^ e := mul_lt_mul_of_pos_right (by exact_mod_cast beyond) scale
        _ = _ := by rw [zpow_add₀ (by norm_num), zpow_natCast]
    have := (zpow_lt_zpow_iff_right₀ (by norm_num : (1 : ℚ) < 10)).mp below
    omega
  · have above : (10 : ℚ) ^ ((width n - 1 : ℕ) + e) < 10 ^ (309 : ℤ) := by
      have small : (m : ℚ) + 1 ≤ 2 ^ 53 := by exact_mod_cast canonical.small
      have large : (2 : ℚ) ^ 53 * 2 ^ 971 < 10 ^ 309 := by
        exact_mod_cast (show 2 ^ 53 * 2 ^ 971 < 10 ^ 309 by decide +kernel)
      calc (10 : ℚ) ^ ((width n - 1 : ℕ) + e) = 10 ^ (width n - 1) * 10 ^ e := by
            rw [zpow_add₀ (by norm_num), zpow_natCast]
        _ ≤ n * 10 ^ e := mul_le_mul_of_nonneg_right (by exact_mod_cast least) scale.le
        _ ≤ _ := near.high
        _ ≤ 2 ^ 53 * 2 ^ q := mul_le_mul_of_nonneg_right (by linarith) unit.le
        _ ≤ 2 ^ 53 * 2 ^ (971 : ℤ) :=
          mul_le_mul_of_nonneg_left (zpow_le_zpow_right₀ (by norm_num) top) (by norm_num)
        _ < 10 ^ (309 : ℤ) := large
    have := (zpow_lt_zpow_iff_right₀ (by norm_num : (1 : ℚ) < 10)).mp above
    omega

def signOf (negative : Bool) : Sign :=
  if negative then .negative else .positive

theorem toFloat_eq (pos : 0 < n) (short : width n ≤ 1000) (canonical : Canonical m q) (top : q ≤ 971)
    (near : RoundsTo ((n : ℚ) * 10 ^ e) m q) (negative : Bool) :
    toFloat negative n e =
      .ofModel (Float.Model.pack (.finite (signOf negative) m q canonical.pos)) := by
  obtain ⟨low, high⟩ := near.near_point pos canonical top
  have magnitude : Float.ofScientific n (decide (e < 0)) e.natAbs =
      .ofModel (Float.Model.pack (.finite .positive m q canonical.pos)) :=
    congrArg Float.ofModel (ofScientific_eq pos (by omega) (by omega) canonical near)
  unfold toFloat
  dsimp only
  rw [if_neg (by omega : ¬ (n = 0 ∨ (width n : ℤ) + e < -400)),
    if_neg (by omega : ¬ 400 < (width n : ℤ) + e), magnitude]
  cases negative with
  | false => rfl
  | true =>
    change Float.ofModel (Float.Model.pack (UnpackedFloat.neg (UnpackedFloat.unpack .binary64
      (UnpackedFloat.pack .binary64 _)))) = _
    rw [canonical.unpack_pack top]
    rfl

end Decimal

section Parts

variable (x : Float)

theorem ofModel_pack_unpack : Float.ofModel (Float.Model.pack x.toModel.unpack) = x := by
  obtain ⟨⟨⟨bits⟩, valid⟩⟩ := x
  have same : UnpackedFloat.pack .binary64 (UnpackedFloat.unpack .binary64 bits) = bits :=
    pack_unpack_of_valid valid
  congr 1
  unfold Float.Model.pack
  congr 2

abbrev bits : BitVec Format.binary64.numBits := x.toModel.toBits.toBitVec

theorem mantissa_toNat : (unpackMantissa (bits x)).toNat = x.toBits.toNat % 2 ^ 52 := by
  rw [unpackMantissa_def, BitVec.extractLsb'_toNat]
  rfl

theorem exponent_toNat : (unpackExponent (bits x)).toNat = x.toBits.toNat / 2 ^ 52 % 2 ^ 11 := by
  rw [unpackExponent_def, BitVec.extractLsb'_toNat, Nat.shiftRight_eq_div_pow]
  rfl

theorem sign_eq :
    Sign.ofBitVec (unpackSign (bits x)) = signOf (decide (x.toBits.toNat / 2 ^ 63 = 1)) := by
  have value : (unpackSign (bits x)).toNat = x.toBits.toNat / 2 ^ 63 := by
    rw [unpackSign_def, BitVec.extractLsb'_toNat, Nat.shiftRight_eq_div_pow]
    have : x.toBits.toNat < 2 ^ 64 := x.toBits.toBitVec.isLt
    change x.toBits.toNat / 2 ^ 63 % 2 ^ 1 = _
    omega
  rw [← value]
  rcases BitVec.eq_zero_or_eq_one (unpackSign (bits x)) with zero | one
  · rw [zero]
    rfl
  · rw [one]
    rfl

def interval (m : ℕ) (q : ℤ) : Binary :=
  ⟨m, q, if m = 2 ^ 52 ∧ -1074 < q then 4 * m - 1 else 4 * m - 2, 4 * m + 2⟩

inductive Parts : Prop where
  | nan (value : x.toModel.unpack = .notANumber)
  | infinite (value : x.toModel.unpack = .infinity (signOf (decide (x.toBits.toNat / 2 ^ 63 = 1))))
  | zero (none : x.toBits.toNat % 2 ^ 63 = 0)
    (value : x.toModel.unpack = .zero (signOf (decide (x.toBits.toNat / 2 ^ 63 = 1))))
  | finite (m : ℕ) (q : ℤ) (some : x.toBits.toNat % 2 ^ 63 ≠ 0) (canonical : Canonical m q) (top : q ≤ 971)
    (between : Binary.ofBits (x.toBits.toNat % 2 ^ 63) = interval m q)
    (value : x.toModel.unpack =
      .finite (signOf (decide (x.toBits.toNat / 2 ^ 63 = 1))) m q canonical.pos)

theorem parts : Parts x := by
  have mantissa := mantissa_toNat x
  have exponent := exponent_toNat x
  have sign := sign_eq x
  have whole : x.toBits.toNat < 2 ^ 64 := x.toBits.toBitVec.isLt
  have unpacked : x.toModel.unpack = UnpackedFloat.unpack .binary64 (bits x) := rfl
  unfold UnpackedFloat.unpack at unpacked
  dsimp only at unpacked
  rw [sign] at unpacked
  split at unpacked
  · split at unpacked
    · exact .infinite unpacked
    · exact .nan unpacked
  · rename_i bounded
    have bounded : x.toBits.toNat / 2 ^ 52 % 2 ^ 11 ≠ 2047 := fun h =>
      bounded (BitVec.eq_of_toNat_eq (exponent.trans h))
    split at unpacked
    · rename_i none
      have none : x.toBits.toNat / 2 ^ 52 % 2 ^ 11 = 0 := exponent ▸ congrArg BitVec.toNat none
      split at unpacked
      · rename_i zero
        have zero : x.toBits.toNat % 2 ^ 52 = 0 := mantissa ▸ congrArg BitVec.toNat zero
        exact .zero (by omega) unpacked
      · rename_i some
        have some : x.toBits.toNat % 2 ^ 52 ≠ 0 := fun h =>
          some (BitVec.eq_of_toNat_eq (mantissa.trans h))
        have canonical : Canonical (x.toBits.toNat % 2 ^ 52) (-1074) :=
          ⟨by omega, by omega, le_rfl, .inr rfl⟩
        refine .finite _ _ (by omega) canonical (by norm_num) ?_ (unpacked.trans ?_)
        · have biased : x.toBits.toNat % 2 ^ 63 / 2 ^ 52 % 2 ^ 11 = 0 := by omega
          have fraction : x.toBits.toNat % 2 ^ 63 % 2 ^ 52 = x.toBits.toNat % 2 ^ 52 := by omega
          unfold Binary.ofBits interval
          simp only [Nat.pow_eq, biased, fraction]
          simp
        · congr 1
          rw [exponent, none]
          norm_num [Format.exponentBias]
    · rename_i some
      have some : x.toBits.toNat / 2 ^ 52 % 2 ^ 11 ≠ 0 := fun h =>
        some (BitVec.eq_of_toNat_eq (exponent.trans h))
      have canonical : Canonical (x.toBits.toNat % 2 ^ 52 + 2 ^ 52)
          ((x.toBits.toNat / 2 ^ 52 % 2 ^ 11 : ℕ) - 1075) :=
        ⟨by omega, by omega, by omega, .inl (by omega)⟩
      refine .finite _ _ (by omega) canonical (by omega) ?_ (unpacked.trans ?_)
      · have biased : x.toBits.toNat % 2 ^ 63 / 2 ^ 52 % 2 ^ 11 = x.toBits.toNat / 2 ^ 52 % 2 ^ 11 := by
          omega
        have fraction : x.toBits.toNat % 2 ^ 63 % 2 ^ 52 = x.toBits.toNat % 2 ^ 52 := by omega
        have least : (x.toBits.toNat % 2 ^ 52 = 0 ∧ 1 < x.toBits.toNat / 2 ^ 52 % 2 ^ 11) ↔
            (x.toBits.toNat % 2 ^ 52 + 2 ^ 52 = 2 ^ 52 ∧
              (-1074 : ℤ) < (x.toBits.toNat / 2 ^ 52 % 2 ^ 11 : ℕ) - 1075) := by omega
        unfold Binary.ofBits interval
        simp only [Nat.pow_eq, biased, fraction, if_neg some, least]
      · congr 1
        · rw [toNat_implicit, mantissa, Nat.add_comm]
        · rw [exponent]
          norm_num [Format.exponentBias]

end Parts

end SchemaDiagram.Decimal
