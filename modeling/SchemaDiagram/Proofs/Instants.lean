import Mathlib
import SchemaDiagram.EventLoop

/-!
Times as the clock of a loop shows them. A time is not negative and has no sign; times are ordered
as their parts are, so that two between which neither order can tell are the same, and a wait that is
no number makes no time.
-/

set_option autoImplicit false

namespace SchemaDiagram

open Float.Model (Format UnpackedFloat)
open Float.Model.UnpackedFloat

/-- The numbers that are not negative and have no sign. -/
inductive Forward : UnpackedFloat → Prop where
  | zero : Forward (.zero .positive)
  | finite {m : Nat} {e : Int} (pos : 0 < m) : Forward (.finite .positive m e pos)
  | infinity : Forward (.infinity .positive)

/-- A time that a clock can show. -/
def Instant (x : Float) : Prop := Forward x.toModel.unpack

def rank : UnpackedFloat → ℕ ×ₗ ℤ ×ₗ ℕ
  | .zero _ | .notANumber => toLex (0, toLex (0, 0))
  | .finite _ m e _ => toLex (1, toLex (e, m))
  | .infinity _ => toLex (2, toLex (0, 0))

theorem Forward.compare {a b : UnpackedFloat} (ha : Forward a) (hb : Forward b) :
    a.compare b = some (Ord.compare (rank a) (rank b)) := by
  cases ha <;> cases hb <;> rfl

theorem Forward.eq_of_rank {a b : UnpackedFloat} (ha : Forward a) (hb : Forward b)
    (same : rank a = rank b) : a = b := by
  cases ha <;> cases hb <;> cases same <;> rfl

theorem forward_packComponents {e : BitVec 11} {m : BitVec 52} (proper : e = -1#11 → m = 0#52) :
    Forward (UnpackedFloat.unpack .binary64 (packComponents .binary64 .positive e m)) := by
  unfold UnpackedFloat.unpack
  simp only [unpackExponent_packComponents, unpackMantissa_packComponents, unpackSign_packComponents,
    Sign.ofBitVec_toBitVec]
  split
  · rw [if_pos (proper ‹_›)]
    exact .infinity
  · split
    · split
      · exact .zero
      · exact .finite _
    · exact .finite _

theorem Forward.pack {a : UnpackedFloat} (ha : Forward a) :
    Forward (UnpackedFloat.unpack .binary64 (UnpackedFloat.pack .binary64 a)) := by
  cases ha with
  | zero => exact forward_packComponents nofun
  | infinity => exact forward_packComponents fun _ => rfl
  | @finite m e pos =>
    unfold UnpackedFloat.pack
    simp only
    split
    · exact forward_packComponents fun _ => rfl
    · rename_i small
      split
      · refine forward_packComponents fun all => ?_
        have := congrArg BitVec.toNat all
        simp at this small
        omega
      · exact forward_packComponents nofun

theorem forward_normalize {m : Nat} (pos : 0 < m) (e : Int) (s : Sign) :
    Forward (UnpackedFloat.normalize .binary64 m e s) := by
  have positive : Ord.compare (m : Int) 0 = .gt := Int.compare_eq_gt.mpr (by omega)
  unfold UnpackedFloat.normalize
  rw [positive]
  unfold UnpackedFloat.round roundWithAccuracy
  simp only
  split
  · exact .zero
  · exact .finite _

theorem Forward.add {a b : UnpackedFloat} (ha : Forward a) (hb : Forward b) :
    Forward (UnpackedFloat.add .binary64 a b) := by
  cases ha with
  | zero => cases hb with
    | zero => exact .zero
    | finite pos => exact .finite pos
    | infinity => exact .infinity
  | infinity => cases hb <;> exact .infinity
  | @finite m e pos => cases hb with
    | zero => exact .finite pos
    | infinity => exact .infinity
    | @finite m' e' pos' =>
      unfold UnpackedFloat.add decreaseExponent
      have pos₁ : 0 < m <<< (e - min e e').toNat := Nat.shiftLeft_eq m _ ▸ Nat.mul_pos pos (Nat.two_pow_pos _)
      simp only [Sign.apply, ← Int.natCast_add]
      exact forward_normalize (Nat.add_pos_left pos₁ _) _ _

theorem Forward.add_zero {a : UnpackedFloat} (ha : Forward a) (s : Sign) :
    UnpackedFloat.add .binary64 a (.zero s) = a := by
  cases ha <;> cases s <;> rfl

theorem forward_or_zero {d : Float} (nonneg : 0 ≤ d) :
    Forward d.toModel.unpack ∨ ∃ s, d.toModel.unpack = .zero s := by
  have le : (UnpackedFloat.compare (.zero .positive) d.toModel.unpack).any (·.isLE) = true :=
    of_decide_eq_true nonneg
  revert le
  match d.toModel.unpack with
  | .zero s => exact fun _ => .inr ⟨s, rfl⟩
  | .finite .positive _ _ pos => exact fun _ => .inl (.finite pos)
  | .infinity .positive => exact fun _ => .inl .infinity
  | .notANumber | .finite .negative _ _ _ | .infinity .negative => exact nofun

theorem nonneg_of_not_le {d : Float} (number : d.isNaN = false) (more : ¬ d ≤ 0) : 0 ≤ d := by
  have le : ¬ (UnpackedFloat.compare d.toModel.unpack (.zero .positive)).any (·.isLE) = true :=
    fun le => more (decide_eq_true le)
  have isNaN : d.toModel.unpack.isNaN = false := number
  refine (decide_eq_true (?_ :
    (UnpackedFloat.compare (.zero .positive) d.toModel.unpack).any (·.isLE) = true) :)
  revert le isNaN
  match d.toModel.unpack with
  | .notANumber => exact fun _ h => nomatch h
  | .zero _ | .finite .positive _ _ _ | .infinity .positive => exact fun _ _ => rfl
  | .finite .negative _ _ _ | .infinity .negative => exact fun h => absurd rfl h

theorem number_of_nonneg {d : Float} (nonneg : 0 ≤ d) : d.isNaN = false := by
  change d.toModel.unpack.isNaN = false
  rcases forward_or_zero nonneg with forward | ⟨s, zero⟩
  · generalize d.toModel.unpack = u at forward
    cases forward <;> rfl
  · rw [zero]
    rfl

theorem zero_of_le {d : Float} (nonneg : 0 ≤ d) (nothing : d ≤ 0) :
    ∃ s, d.toModel.unpack = .zero s := by
  refine (forward_or_zero nonneg).elim (fun forward => ?_) id
  have le : (UnpackedFloat.compare d.toModel.unpack (.zero .positive)).any (·.isLE) = true :=
    of_decide_eq_true nothing
  generalize d.toModel.unpack = u at le forward
  cases forward with
  | zero => exact ⟨_, rfl⟩
  | finite | infinity => cases le

namespace Instant

variable {x y z d : Float}

theorem ext (hx : Instant x) (hy : Instant y)
    (same : rank x.toModel.unpack = rank y.toModel.unpack) : x = y := by
  have parts : x.toModel.unpack = y.toModel.unpack := Forward.eq_of_rank hx hy same
  have bits := (unpack_inj_of_valid x.toModel.valid y.toModel.valid).mp parts
  exact Float.toBits_inj.mp (UInt64.toBitVec_inj.mp bits)

theorem le_iff (hx : Instant x) (hy : Instant y) :
    x ≤ y ↔ rank x.toModel.unpack ≤ rank y.toModel.unpack := by
  have le : x ≤ y ↔ (x.toModel.unpack.compare y.toModel.unpack).any (·.isLE) = true :=
    decide_eq_true_iff
  rw [le, Forward.compare hx hy, Option.any_some, Ordering.isLE_iff_ne_gt]
  exact compare_le_iff_le

theorem lt_iff (hx : Instant x) (hy : Instant y) :
    x < y ↔ rank x.toModel.unpack < rank y.toModel.unpack := by
  have lt : x < y ↔ (x.toModel.unpack.compare y.toModel.unpack == some .lt) = true :=
    decide_eq_true_iff
  rw [lt, Forward.compare hx hy]
  simp [compare_lt_iff_lt]

theorem le_refl (hx : Instant x) : x ≤ x := (hx.le_iff hx).mpr le_rfl

theorem le_trans (hx : Instant x) (hy : Instant y) (hz : Instant z) (h : x ≤ y) (h' : y ≤ z) : x ≤ z :=
  (hx.le_iff hz).mpr (((hx.le_iff hy).mp h).trans ((hy.le_iff hz).mp h'))

theorem le_antisymm (hx : Instant x) (hy : Instant y) (h : x ≤ y) (h' : y ≤ x) : x = y :=
  hx.ext hy (((hx.le_iff hy).mp h).antisymm ((hy.le_iff hx).mp h'))

theorem le_of_not_gt (hx : Instant x) (hy : Instant y) (h : ¬ y < x) : x ≤ y :=
  (hx.le_iff hy).mpr (not_lt.mp fun lt => h ((hy.lt_iff hx).mpr lt))

theorem le_of_lt (hx : Instant x) (hy : Instant y) (h : x < y) : x ≤ y :=
  (hx.le_iff hy).mpr ((hx.lt_iff hy).mp h).le

theorem lt_of_not_ge (hx : Instant x) (hy : Instant y) (h : ¬ x ≤ y) : y < x :=
  (hy.lt_iff hx).mpr (not_le.mp fun le => h ((hx.le_iff hy).mpr le))

theorem zero : Instant 0.0 := Forward.zero

theorem add (hx : Instant x) (nonneg : 0 ≤ d) : Instant (x + d) := by
  change Forward (UnpackedFloat.unpack .binary64 (UnpackedFloat.pack .binary64
    (UnpackedFloat.add .binary64 x.toModel.unpack d.toModel.unpack)))
  rcases forward_or_zero nonneg with forward | ⟨s, zero⟩
  · exact (Forward.add hx forward).pack
  · rw [zero, Forward.add_zero hx]
    exact Forward.pack hx

theorem add_nothing (nonneg : 0 ≤ d) (nothing : d ≤ 0) (hx : Instant x) : x + d = x := by
  obtain ⟨s, zero⟩ := zero_of_le nonneg nothing
  refine (hx.add nonneg).ext hx (congrArg rank ?_)
  change UnpackedFloat.unpack .binary64 (UnpackedFloat.pack .binary64
    (UnpackedFloat.add .binary64 x.toModel.unpack d.toModel.unpack)) = _
  rw [zero, Forward.add_zero hx]
  exact congrArg _ (pack_unpack_of_valid x.toModel.valid)

end Instant

namespace Loop

variable {P : Type} {l k : Loop P}

def sooner (acc : Option Float) (s : Sleeper) : Option Float :=
  match acc with
  | none => some s.wakeAt
  | some x => some (if s.wakeAt < x then s.wakeAt else x)

theorem sooner_least {acc : Option Float} {s : Sleeper} (known : ∀ x ∈ acc, Instant x)
    (time : Instant s.wakeAt) :
    ∃ y, sooner acc s = some y ∧ Instant y ∧ y ≤ s.wakeAt ∧ ∀ x ∈ acc, y ≤ x := by
  cases acc with
  | none => exact ⟨_, rfl, time, time.le_refl, nofun⟩
  | some x =>
    have hx := known x rfl
    refine ⟨_, rfl, ?_⟩
    split
    · rename_i less
      refine ⟨time, time.le_refl, fun z hz => ?_⟩
      cases hz
      exact time.le_of_lt hx less
    · rename_i more
      refine ⟨hx, hx.le_of_not_gt time more, fun z hz => ?_⟩
      cases hz
      exact hx.le_refl

theorem foldl_sooner_least {sleepers : List Sleeper} (times : ∀ s ∈ sleepers, Instant s.wakeAt)
    {acc : Option Float} (known : ∀ x ∈ acc, Instant x) {time : Float}
    (least : sleepers.foldl sooner acc = some time) :
    Instant time ∧ (∀ x ∈ acc, time ≤ x) ∧ ∀ s ∈ sleepers, time ≤ s.wakeAt := by
  induction sleepers generalizing acc with
  | nil =>
    obtain rfl : acc = some time := least
    have ht := known time rfl
    refine ⟨ht, fun x hx => ?_, nofun⟩
    cases hx
    exact ht.le_refl
  | cons s sleepers ih =>
    obtain ⟨first, others⟩ := List.forall_mem_cons.mp times
    obtain ⟨y, hy, instant, below, least'⟩ := sooner_least known first
    have known' : ∀ x ∈ some y, Instant x := fun x hx => by
      cases hx
      exact instant
    rw [List.foldl_cons, hy] at least
    obtain ⟨ht, ty, rest⟩ := ih others known' least
    have le := ty y rfl
    refine ⟨ht, fun x hx => ?_, List.forall_mem_cons.mpr ⟨?_, rest⟩⟩
    · exact ht.le_trans instant (known x hx) le (least' x hx)
    · exact ht.le_trans instant first le below

/-- The clock moves to the earliest of the times at which tasks wake. -/
theorem advance?_least (times : ∀ s ∈ l.sleepers, Instant s.wakeAt) (moves : l.advance? = some k) :
    Instant k.now ∧ ∀ s ∈ l.sleepers, k.now ≤ s.wakeAt := by
  obtain ⟨time, next, rfl⟩ := Option.map_eq_some_iff.mp moves
  have least := foldl_sooner_least times (by simp) next
  exact ⟨least.1, least.2.2⟩

theorem foldl_sooner_mem (sleepers : List Sleeper) (acc : Option Float) :
    sleepers.foldl sooner acc = acc ∨
      ∃ s ∈ sleepers, sleepers.foldl sooner acc = some s.wakeAt := by
  induction sleepers generalizing acc with
  | nil => exact .inl rfl
  | cons s sleepers ih =>
    rw [List.foldl_cons]
    rcases ih (sooner acc s) with same | ⟨u, hu, wakes⟩
    · have first : sooner acc s = acc ∨ sooner acc s = some s.wakeAt := by
        unfold sooner
        cases acc with
        | none => exact .inr rfl
        | some x =>
          simp only
          split
          · exact .inr rfl
          · exact .inl rfl
      exact first.imp same.trans fun first => ⟨s, List.mem_cons_self, same.trans first⟩
    · exact .inr ⟨u, List.mem_cons_of_mem s hu, wakes⟩

theorem advance?_wakes (times : ∀ s ∈ l.sleepers, Instant s.wakeAt) (asleep : l.sleepers ≠ []) :
    ∃ k, l.advance? = some k ∧ k.sleepers.length < l.sleepers.length := by
  obtain ⟨s, sleepers, shape⟩ := List.exists_cons_of_ne_nil asleep
  have next : l.nextTime? = l.sleepers.foldl sooner none := rfl
  obtain ⟨u, hu, wakes⟩ : ∃ u ∈ l.sleepers, l.nextTime? = some u.wakeAt := by
    rw [next, shape, List.foldl_cons]
    rcases foldl_sooner_mem sleepers (some s.wakeAt) with same | ⟨u, hu, wakes⟩
    · exact ⟨s, List.mem_cons_self, same⟩
    · exact ⟨u, List.mem_cons_of_mem s hu, wakes⟩
  refine ⟨_, congrArg (Option.map _) wakes, ?_⟩
  refine List.length_filter_lt_length_iff_exists.mpr ⟨u, hu, ?_⟩
  simp [(times u hu).le_refl]

end Loop

end SchemaDiagram
