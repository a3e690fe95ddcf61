import Mathlib.Algebra.Order.Field.Power
import Mathlib.Algebra.Order.Field.Rat
import Mathlib.Tactic.Linarith
import Mathlib.Tactic.LinearCombination
import Mathlib.Tactic.Positivity
import Mathlib.Tactic.Ring
import NetPack.Decimal.Shortest

/-!
# Shortest decimals have digits and read back

Zero reads back as no other number, so the shortest decimal of a number that is not zero has digits
(`Dyadic.exponent_shortest`), and none of the zeros in its layout stands before the first of them.
The search for the shortest decimal ends on a grid that is finer than the interval of the reals that
read back, at the latest on the last of the grids. So there always is a shortest decimal, and it
reads back as the number (`Dyadic.readsBack_shortest`).
-/

namespace NetPack

namespace Decimal

/-! ### Comparisons of scaled numbers -/

theorem zpow_mul_pow_neg {b : ℚ} (hb : 0 < b) (t : ℤ) :
    b ^ t * b ^ (-t).toNat = b ^ t.toNat := by
  rw [← zpow_natCast, ← zpow_natCast, ← zpow_add₀ hb.ne']
  congr 1
  omega

theorem compare_natCast (a b : ℕ) : compare (a : ℚ) b = compare a b := by
  rcases lt_trichotomy a b with hlt | rfl | hgt
  · rw [compare_lt_iff_lt.2 hlt, compare_lt_iff_lt.2 (by exact_mod_cast hlt)]
  · rw [compare_eq_iff_eq.2 rfl, compare_eq_iff_eq.2 rfl]
  · rw [compare_gt_iff_gt.2 hgt, compare_gt_iff_gt.2 (by exact_mod_cast hgt)]

theorem compare_mul_right {x y k : ℚ} (hk : 0 < k) : compare (x * k) (y * k) = compare x y := by
  rcases lt_trichotomy x y with hlt | rfl | hgt
  · rw [compare_lt_iff_lt.2 hlt, compare_lt_iff_lt.2 (mul_lt_mul_of_pos_right hlt hk)]
  · rw [compare_eq_iff_eq.2 rfl, compare_eq_iff_eq.2 rfl]
  · rw [compare_gt_iff_gt.2 hgt, compare_gt_iff_gt.2 (mul_lt_mul_of_pos_right hgt hk)]

/-- The comparison of scaled numbers is that of the rational numbers that they are. -/
theorem compareScaled_eq (a : ℕ) (s : ℤ) (b : ℕ) (t : ℤ) :
    compareScaled a s b t = compare ((a : ℚ) * 10 ^ s) (b * 2 ^ t) := by
  have hk : (0 : ℚ) < 10 ^ (-s).toNat * 2 ^ (-t).toNat := by positivity
  have hten := zpow_mul_pow_neg (by norm_num : (0 : ℚ) < 10) s
  have htwo := zpow_mul_pow_neg (by norm_num : (0 : ℚ) < 2) t
  unfold compareScaled
  rw [← compare_mul_right hk, ← compare_natCast, Nat.shiftLeft_eq, Nat.shiftLeft_eq]
  congr 1
  · push_cast [Nat.pow_eq]
    linear_combination (-(a : ℚ) * 2 ^ (-t).toNat) * hten
  · push_cast [Nat.pow_eq]
    linear_combination (-(b : ℚ) * 10 ^ (-s).toNat) * htwo

namespace Dyadic

variable {x : Dyadic} {tie : Tie} {s : Int} {d : Finite}

theorem readsBack_zero (hx : 0 < x.significand) (s : Int) : x.readsBack 0 s = false := by
  have hlow : 0 < x.ends.1 := by
    unfold ends
    split <;> simp <;> omega
  have hcompare (t : Int) : compareScaled 0 s x.ends.1 t = .lt := by
    have hpos : 0 < x.ends.1 * Nat.pow 10 (-s).toNat * 2 ^ t.toNat :=
      Nat.mul_pos (Nat.mul_pos hlow (Nat.pow_pos (by decide))) (Nat.pow_pos (by decide))
    unfold compareScaled
    rw [Nat.zero_mul, Nat.zero_shiftLeft, Nat.shiftLeft_eq]
    exact Nat.compare_eq_lt.2 hpos
  simp [readsBack, hcompare]

theorem pos_of_readsBack (hx : 0 < x.significand) {c : Nat} (h : x.readsBack c s = true) :
    0 < c := by
  refine Nat.pos_of_ne_zero fun hc => ?_
  rw [hc, readsBack_zero hx] at h
  cases h

theorem le_nearer (x : Dyadic) (tie : Tie) (c : Nat) (s : Int) : c ≤ x.nearer tie c s := by
  unfold nearer
  split
  · exact Nat.le_refl c
  · exact Nat.le_succ c
  · cases tie with
    | up => exact Nat.le_succ c
    | toEven =>
      dsimp only
      split <;> omega

theorem digits_pos_of_onGrid (hx : 0 < x.significand) (h : x.onGrid tie s = some d) :
    0 < d.digits := by
  unfold onGrid at h
  dsimp only at h
  split at h <;> cases h
  · rename_i hlow _
    exact Nat.lt_of_lt_of_le (pos_of_readsBack hx hlow) (le_nearer x tie _ s)
  · rename_i hlow _
    exact pos_of_readsBack hx hlow
  · exact Nat.succ_pos _

/-- The shortest decimal has no digits at most if none was found, and is written as zero then. -/
theorem exponent_shortest (hx : 0 < x.significand) (tie : Tie)
    (h : (x.shortest tie).digits = 0) : (x.shortest tie).exponent = 0 := by
  unfold shortest at h ⊢
  cases hfind : (List.range 24).findSome? fun i =>
      x.onGrid tie (x.topExponent - Int.ofNat i) with
  | none => rfl
  | some d =>
    rw [hfind] at h
    obtain ⟨i, -, hi⟩ := List.exists_of_findSome?_eq_some hfind
    exact absurd h (Nat.ne_of_gt (digits_pos_of_onGrid hx hi))

/-! ### Reading back -/

theorem nearer_eq (x : Dyadic) (tie : Tie) (c : ℕ) (s : ℤ) :
    x.nearer tie c s = c ∨ x.nearer tie c s = c + 1 := by
  unfold nearer
  split
  · exact .inl rfl
  · exact .inr rfl
  · cases tie with
    | up => exact .inr rfl
    | toEven =>
      dsimp only
      split
      · exact .inl rfl
      · exact .inr rfl

theorem readsBack_onGrid (h : x.onGrid tie s = some d) :
    x.readsBack d.digits d.exponent = true := by
  unfold onGrid at h
  dsimp only at h
  split at h <;> cases h
  · rename_i hlow hhigh
    rcases x.nearer_eq tie (x.floorOn s) s with hnearer | hnearer <;> rw [hnearer] <;> assumption
  · assumption
  · assumption

theorem floorOn_bounds (x : Dyadic) (s : ℤ) :
    (x.floorOn s : ℚ) * 10 ^ s ≤ x.significand * 2 ^ x.exponent ∧
      (x.significand : ℚ) * 2 ^ x.exponent < (x.floorOn s + 1) * 10 ^ s := by
  have hk : (0 : ℚ) < 10 ^ (-s).toNat * 2 ^ (-x.exponent).toNat := by positivity
  have hten := zpow_mul_pow_neg (by norm_num : (0 : ℚ) < 10) s
  have htwo := zpow_mul_pow_neg (by norm_num : (0 : ℚ) < 2) x.exponent
  -- The quotient of natural numbers is taken after both sides are made whole.
  obtain ⟨N, hN⟩ : ∃ N, N = (x.significand * Nat.pow 10 (-s).toNat) <<< x.exponent.toNat :=
    ⟨_, rfl⟩
  obtain ⟨D, hD⟩ : ∃ D, D = Nat.pow 10 s.toNat <<< (-x.exponent).toNat := ⟨_, rfl⟩
  have hfloor : x.floorOn s = N / D := by rw [hN, hD, floorOn]
  have hDpos : 0 < D := by
    rw [hD, Nat.shiftLeft_eq]
    exact Nat.mul_pos (Nat.pow_pos (by decide)) (Nat.two_pow_pos _)
  have hle : (x.floorOn s : ℚ) * D ≤ N := by
    rw [hfloor]
    exact_mod_cast Nat.div_mul_le_self N D
  have hlt : (N : ℚ) < (x.floorOn s + 1) * D := by
    rw [hfloor]
    exact_mod_cast Nat.lt_mul_of_div_lt (Nat.lt_succ_self _) hDpos
  have hNq : (N : ℚ) = x.significand * 2 ^ x.exponent *
      (10 ^ (-s).toNat * 2 ^ (-x.exponent).toNat) := by
    rw [hN, Nat.shiftLeft_eq]
    push_cast [Nat.pow_eq]
    linear_combination (-(x.significand : ℚ) * 10 ^ (-s).toNat) * htwo
  have hDq : (D : ℚ) = 10 ^ s * (10 ^ (-s).toNat * 2 ^ (-x.exponent).toNat) := by
    rw [hD, Nat.shiftLeft_eq]
    push_cast [Nat.pow_eq]
    linear_combination (-(2 : ℚ) ^ (-x.exponent).toNat) * hten
  rw [hNq, hDq, ← mul_assoc (x.floorOn s : ℚ)] at hle
  rw [hNq, hDq, ← mul_assoc ((x.floorOn s : ℚ) + 1)] at hlt
  exact ⟨le_of_mul_le_mul_right hle hk, lt_of_mul_lt_mul_right hlt hk.le⟩

/-- On a grid that is finer than a quarter of the unit, the decimal above the number reads back. -/
theorem readsBack_of_fine (hfine : (10 : ℚ) ^ s ≤ 2 ^ (x.exponent - 2)) :
    x.readsBack (x.floorOn s + 1) s = true := by
  obtain ⟨hle, hlt⟩ := x.floorOn_bounds s
  have hquarter : (2 : ℚ) ^ x.exponent = 4 * 2 ^ (x.exponent - 2) := by
    rw [zpow_sub₀ (by norm_num)]
    norm_num
    ring
  have hpos : (0 : ℚ) < 2 ^ (x.exponent - 2) := by positivity
  have hends : (x.ends.1 : ℚ) ≤ 4 * x.significand := by
    exact_mod_cast (Nat.sub_le _ _ : x.ends.1 ≤ 4 * x.significand)
  have hlow : compareScaled (x.floorOn s + 1) s x.ends.1 (x.exponent - 2) = .gt := by
    rw [compareScaled_eq, compare_gt_iff_gt]
    push_cast
    nlinarith
  have hhigh : compareScaled (x.floorOn s + 1) s x.ends.2 (x.exponent - 2) = .lt := by
    rw [compareScaled_eq, compare_lt_iff_lt, ends]
    push_cast
    nlinarith
  unfold readsBack
  rw [hlow, hhigh]
  rfl

/-- Ten is a little less than the cube root of `2 ^ 10`, and a little more than the root of order 28
of `2 ^ 93`. -/
theorem ten_zpow_le {s t : ℤ} (hpos : 0 ≤ s → 10 * s ≤ 3 * t) (hneg : s < 0 → 93 * s ≤ 28 * t) :
    (10 : ℚ) ^ s ≤ 2 ^ t := by
  by_cases hs : 0 ≤ s
  · rw [← zpow_le_zpow_iff_left₀ (by positivity) (by positivity) (by decide : (0 : ℤ) < 3)]
    calc ((10 : ℚ) ^ s) ^ (3 : ℤ) = (10 ^ (3 : ℤ)) ^ s := zpow_comm ..
      _ ≤ (2 ^ (10 : ℤ)) ^ s := zpow_le_zpow_left₀ hs (by norm_num) (by norm_num)
      _ = 2 ^ (10 * s) := (zpow_mul ..).symm
      _ ≤ 2 ^ (t * 3) := zpow_le_zpow_right₀ (by norm_num) (by have := hpos hs; omega)
      _ = (2 ^ t) ^ (3 : ℤ) := zpow_mul ..
  · rw [← zpow_le_zpow_iff_left₀ (by positivity) (by positivity) (by decide : (0 : ℤ) < 28)]
    have hroot : ((2 : ℚ) ^ (93 : ℤ)) ^ (-s) ≤ (10 ^ (28 : ℤ)) ^ (-s) :=
      zpow_le_zpow_left₀ (by omega) (by norm_num) (by norm_num)
    calc ((10 : ℚ) ^ s) ^ (28 : ℤ) = (10 ^ (28 : ℤ)) ^ s := zpow_comm ..
      _ ≤ (2 ^ (93 : ℤ)) ^ s := by
        rw [zpow_neg, zpow_neg] at hroot
        exact (inv_le_inv₀ (by positivity) (by positivity)).1 hroot
      _ = 2 ^ (93 * s) := (zpow_mul ..).symm
      _ ≤ 2 ^ (t * 28) := zpow_le_zpow_right₀ (by norm_num) (by have := hneg (by omega); omega)
      _ = (2 ^ t) ^ (28 : ℤ) := zpow_mul ..

/-- The last of the grids is fine enough for doubles. -/
theorem fine_topExponent (hlog : x.significand.log2 ≤ 52) (hmin : -1074 ≤ x.exponent)
    (hmax : x.exponent ≤ 971) : (10 : ℚ) ^ (x.topExponent - 23) ≤ 2 ^ (x.exponent - 2) := by
  have hlog' : (x.significand.log2 : ℤ) ≤ 52 := by exact_mod_cast hlog
  have htop : x.topExponent =
      ((x.significand.log2 : ℤ) + x.exponent + 1) * 30103 / 100000 + 1 := rfl
  rw [htop]
  generalize (x.significand.log2 : ℤ) = l at hlog' ⊢
  exact ten_zpow_le (by omega) (by omega)

/-- **The shortest decimal of a double reads back.** -/
theorem readsBack_shortest (hlog : x.significand.log2 ≤ 52)
    (hmin : -1074 ≤ x.exponent) (hmax : x.exponent ≤ 971) (tie : Tie) :
    x.readsBack (x.shortest tie).digits (x.shortest tie).exponent = true := by
  have hlast : (x.onGrid tie (x.topExponent - Int.ofNat 23)).isSome := by
    have hread := readsBack_of_fine (fine_topExponent hlog hmin hmax)
    unfold onGrid
    dsimp only
    rw [show x.topExponent - Int.ofNat 23 = x.topExponent - 23 from rfl, hread]
    cases x.readsBack (x.floorOn (x.topExponent - 23)) (x.topExponent - 23) <;> rfl
  unfold shortest
  cases hfind : (List.range 24).findSome? fun i =>
      x.onGrid tie (x.topExponent - Int.ofNat i) with
  | none =>
    rw [List.findSome?_eq_none_iff] at hfind
    rw [hfind 23 (by simp)] at hlast
    cases hlast
  | some f =>
    obtain ⟨i, -, hi⟩ := List.exists_of_findSome?_eq_some hfind
    exact readsBack_onGrid hi

theorem significand_pos {x : Binary32} (hx : x.isZero = false) :
    0 < (ofBinary32 x).significand := by
  unfold ofBinary32
  dsimp only
  split
  · rename_i hexponent
    refine Nat.pos_of_ne_zero fun hfraction => ?_
    have hlow : x.bits.toNat % 8388608 = 0 :=
      (Nat.and_two_pow_sub_one_eq_mod x.bits.toNat 23).symm.trans hfraction
    have hhigh : x.bits.toNat / 8388608 % 256 = 0 := by
      have hand : x.bits.toNat >>> 23 &&& 255 = 0 := hexponent
      rw [Nat.shiftRight_eq_div_pow] at hand
      exact (Nat.and_two_pow_sub_one_eq_mod _ 8).symm.trans hand
    have hzero : x.bits.toNat &&& 2147483647 = 0 := by
      refine (Nat.and_two_pow_sub_one_eq_mod x.bits.toNat 31).trans ?_
      omega
    have hmask : x.bits &&& 0x7fffffff = 0 := UInt32.toNat_inj.1 hzero
    simp [Binary32.isZero, hmask] at hx
  · exact Nat.succ_pos _

end Dyadic

end Decimal

/-- A number whose exponent field is not full is no NaN. -/
theorem Binary32.isNaN_of_isFinite {x : Binary32} (hx : x.isFinite) : x.isNaN = false := by
  cases hnan : x.isNaN with
  | false => rfl
  | true =>
    have hlarge : 2139095040 < x.bits.toNat % 2147483648 := by
      have hbits : 0x7f800000 < x.bits &&& 0x7fffffff := by simpa [isNaN] using hnan
      have hlt : 2139095040 < x.bits.toNat &&& 2147483647 := UInt32.lt_iff_toNat_lt.1 hbits
      exact Nat.lt_of_lt_of_eq hlt (Nat.and_two_pow_sub_one_eq_mod x.bits.toNat 31)
    have hfield : x.bits.toNat &&& 2139095040 = 2139095040 := by
      have hhigh : (x.bits.toNat &&& 2139095040) >>> 23 = x.bits.toNat >>> 23 % 256 :=
        Nat.shiftRight_and_distrib.trans (Nat.and_two_pow_sub_one_eq_mod _ 8)
      have hlow : (x.bits.toNat &&& 2139095040) % 2 ^ 23 = 0 :=
        Nat.and_mod_two_pow.trans (Nat.and_zero _)
      rw [Nat.shiftRight_eq_div_pow, Nat.shiftRight_eq_div_pow] at hhigh
      omega
    have hbits : x.bits &&& 0x7f800000 = 0x7f800000 := UInt32.toNat_inj.1 hfield
    simp [isFinite, hbits] at hx

end NetPack
