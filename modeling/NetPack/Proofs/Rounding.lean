import Mathlib.Data.Int.Log
import Mathlib.Data.Rat.Floor
import Mathlib.Tactic.FieldSimp
import NetPack.Proofs.Comparisons
import NetPack.Proofs.Decimals

/-!
# Rounding to numbers of a format

The reals that read back as a number of a format form an interval around it (`Rounding.RoundsTo`):
half a unit to each side, and a quarter of one below a number at which the unit changes. A quotient
in that interval is divided to the number (`Rounding.RoundsTo.div_eq`), however many bits are left
behind its mantissa. Decimals are read by dividing by a power of ten, so a decimal that reads back
as a double is read as that double (`Rounding.ofScientific_eq`).

A double that is no NaN is determined by what it stands for (`Rounding.eq_ofModel_pack`), and its
pattern is kept (`Rounding.toBits_ofBits`). A single-precision number is therefore the same after it
was widened and narrowed (`Binary32.ofFloat_toFloat`); a NaN is not, as narrowing sets a bit of it.
-/

namespace NetPack

open Float.Model (Format UnpackedFloat totalExponent)
open Float.Model.UnpackedFloat

namespace Rounding

/-! ### Mantissas with a rest -/

/-- The whole halves of a mantissa with its first bit behind the point. -/
def halves (em : ExtendedMantissa) : ℕ := 2 * em.mantissa + em.roundBit.toNat

/-- The mantissa holds the whole halves of a number, and the last bit says if something is left. -/
structure Approximates (em : ExtendedMantissa) (x : ℚ) : Prop where
  le : (halves em : ℚ) ≤ 2 * x
  lt : 2 * x < halves em + 1
  sticky : em.stickyBit = false ↔ 2 * x = halves em

/-- The nearest natural number, and of two the even one. -/
structure Nearest (x : ℚ) (n : ℕ) : Prop where
  le : 2 * (n : ℚ) ≤ 2 * x + 1
  ge : 2 * x ≤ 2 * n + 1
  strict : n % 2 = 1 → 2 * (n : ℚ) < 2 * x + 1 ∧ 2 * x < 2 * n + 1

variable {em : ExtendedMantissa} {x : ℚ} {n : ℕ}

theorem Approximates.floor (h : Approximates em x) :
    (em.mantissa : ℚ) ≤ x ∧ x < em.mantissa + 1 := by
  obtain ⟨m, r, s⟩ := em
  obtain ⟨hle, hlt, -⟩ := h
  simp only [halves] at hle hlt ⊢
  push_cast at hle hlt
  cases r <;> simp at hle hlt <;> constructor <;> linarith

theorem Approximates.shiftRightOne (h : Approximates em x) :
    Approximates em.shiftRightOne (x / 2) := by
  obtain ⟨m, r, s⟩ := em
  have hhalves : halves (ExtendedMantissa.shiftRightOne ⟨m, r, s⟩) = m := by
    rcases Nat.mod_two_eq_zero_or_one m with hm | hm <;>
      simp [halves, ExtendedMantissa.shiftRightOne, hm] <;> omega
  have hx : 2 * (x / 2) = x := by ring
  obtain ⟨hle, hlt, hsticky⟩ := h
  simp only [halves] at hle hlt hsticky
  push_cast at hle hlt hsticky
  constructor
  · rw [hhalves, hx]
    cases r <;> simp at hle <;> linarith
  · rw [hhalves, hx]
    cases r <;> simp at hlt <;> linarith
  · rw [hhalves, hx]
    cases r
    · simp only [ExtendedMantissa.shiftRightOne, Bool.false_or, hsticky]
      simp
    · simp only [ExtendedMantissa.shiftRightOne, Bool.true_or, reduceCtorEq, false_iff]
      simp at hle
      intro h
      linarith

theorem Approximates.shiftRight (h : Approximates em x) (k : ℕ) :
    Approximates (em >>> k) (x / 2 ^ k) := by
  change Approximates (k.repeat ExtendedMantissa.shiftRightOne em) _
  induction k with
  | zero => simpa [Nat.repeat] using h
  | succ k ih =>
    rw [Nat.repeat, pow_succ, ← div_div]
    exact ih.shiftRightOne

/-- **A mantissa with its rest is rounded to the nearest natural number.** -/
theorem Approximates.roundedMantissa_eq (h : Approximates em x) (hn : Nearest x n) :
    em.roundedMantissa = n := by
  obtain ⟨m, r, s⟩ := em
  obtain ⟨hle, hlt, hsticky⟩ := h
  obtain ⟨hlow, hhigh, hstrict⟩ := hn
  simp only [halves] at hle hlt hsticky
  push_cast at hle hlt hsticky
  cases r
  · -- Less than half is left.
    simp only [Bool.toNat_false, Nat.cast_zero, add_zero] at hle hlt hsticky
    have hlow' : 2 * n ≤ 2 * m + 1 := by
      have : (2 * n : ℚ) < 2 * m + 2 := by linarith
      have : 2 * n < 2 * m + 2 := by exact_mod_cast this
      omega
    have hhigh' : 2 * m ≤ 2 * n + 1 := by
      have : (2 * m : ℚ) ≤ 2 * n + 1 := by linarith
      exact_mod_cast this
    obtain rfl : m = n := by omega
    cases s <;> rfl
  · simp only [Bool.toNat_true, Nat.cast_one] at hle hlt hsticky
    have hlow' : n ≤ m + 1 := by
      have : (2 * n : ℚ) < 2 * m + 3 := by linarith
      have : 2 * n < 2 * m + 3 := by exact_mod_cast this
      omega
    have hhigh' : m ≤ n := by
      have : (2 * m : ℚ) ≤ 2 * n := by linarith
      have : 2 * m ≤ 2 * n := by exact_mod_cast this
      omega
    cases s
    · -- Exactly half is left, so the nearest number is even.
      have hhalf := hsticky.1 rfl
      have heven : n % 2 = 0 := by
        by_contra hodd
        obtain ⟨hlow, hhigh⟩ := hstrict (by omega)
        rw [hhalf] at hlow hhigh
        have h₁ : 2 * n < 2 * m + 1 + 1 := by exact_mod_cast hlow
        have h₂ : 2 * m + 1 < 2 * n + 1 := by exact_mod_cast hhigh
        omega
      change m + m % 2 = n
      omega
    · -- More than half is left.
      have hmore : (2 * m + 1 : ℚ) < 2 * x :=
        lt_of_le_of_ne hle fun h => by simpa using hsticky.2 h.symm
      have hne : m ≠ n := by
        rintro rfl
        linarith
      change m + 1 = n
      omega

/-! ### Exponents -/

variable {spec : Format} {M : ℕ} {E b : ℤ} {acc : Accuracy}

theorem targetExponent_mono {s t : ℤ} (h : s ≤ t) :
    spec.targetExponent s ≤ spec.targetExponent t := by
  unfold Format.targetExponent
  omega

theorem zpow_log2_le (hM : M ≠ 0) : (2 : ℚ) ^ (M.log2 : ℤ) ≤ M := by
  rw [zpow_natCast]
  exact_mod_cast Nat.log2_self_le hM

theorem lt_zpow_log2 (M : ℕ) : (M : ℚ) + 1 ≤ 2 ^ ((M.log2 : ℤ) + 1) := by
  have h : M + 1 ≤ 2 ^ (M.log2 + 1) := Nat.lt_log2_self
  have hcast : ((M.log2 : ℤ) + 1) = ((M.log2 + 1 : ℕ) : ℤ) := by push_cast; rfl
  rw [hcast, zpow_natCast]
  exact_mod_cast h

/-- The exponent that a number is shifted to depends on its size alone. -/
theorem targetExponent_eq (hle : (M : ℚ) ≤ x) (hlt : x < M + 1) (hb : (2 : ℚ) ^ b ≤ x * 2 ^ E)
    (hb' : x * 2 ^ E < 2 ^ (b + 1)) (hE : E ≤ spec.targetExponent (b + 1)) :
    spec.targetExponent (totalExponent M E) = spec.targetExponent (b + 1) := by
  have hpos : (0 : ℚ) < 2 ^ E := by positivity
  by_cases hM : M = 0
  · -- Less than a unit: both exponents are the least one.
    subst hM
    have hbE : b < E := by
      rw [← zpow_lt_zpow_iff_right₀ (by norm_num : (1 : ℚ) < 2)]
      calc (2 : ℚ) ^ b ≤ x * 2 ^ E := hb
        _ < 1 * 2 ^ E := by
          refine mul_lt_mul_of_pos_right ?_ hpos
          simpa using hlt
        _ = 2 ^ E := one_mul _
    have hbits := spec.hm
    unfold Format.targetExponent totalExponent Format.mantissaBits at *
    simp only [Nat.log2_zero]
    omega
  · have hlow : (2 : ℚ) ^ ((M.log2 : ℤ) + E) ≤ x * 2 ^ E := by
      rw [zpow_add₀ (by norm_num)]
      exact mul_le_mul_of_nonneg_right ((zpow_log2_le hM).trans hle) hpos.le
    have hhigh : x * 2 ^ E < (2 : ℚ) ^ ((M.log2 : ℤ) + 1 + E) := by
      rw [zpow_add₀ (by norm_num) _ E]
      exact mul_lt_mul_of_pos_right (hlt.trans_le (lt_zpow_log2 M)) hpos
    have h₁ : b < (M.log2 : ℤ) + 1 + E :=
      (zpow_lt_zpow_iff_right₀ (by norm_num : (1 : ℚ) < 2)).1 (hb.trans_lt hhigh)
    have h₂ : (M.log2 : ℤ) + E < b + 1 :=
      (zpow_lt_zpow_iff_right₀ (by norm_num : (1 : ℚ) < 2)).1 (hlow.trans_lt hb')
    have hsame : totalExponent M E = b + 1 := by
      unfold totalExponent
      omega
    rw [hsame]

/-! ### Rounding -/

variable {e : ℤ} {r : ℚ} {s : Sign}

/-- The number is the smallest one with its exponent, so that the next smaller one is only half as
far away as the next larger one. -/
def AtStep (spec : Format) (n : ℕ) (e : ℤ) : Prop :=
  n = 2 ^ spec.mantissaBitsWithoutImplicit ∧ spec.minExponent < e

instance : Decidable (AtStep spec n e) := inferInstanceAs (Decidable (_ ∧ _))

/-- The reals that read back as a number of the format: half a unit around it, or a quarter of a
unit below it, and the ends only if its last bit is zero. -/
structure RoundsTo (spec : Format) (n : ℕ) (e : ℤ) (r : ℚ) : Prop where
  pos : 0 < n
  canonical : spec.targetExponent (totalExponent n e) = e
  le : (4 * n - if AtStep spec n e then 1 else 2) * (2 : ℚ) ^ (e - 2) ≤ r
  ge : r ≤ (4 * n + 2) * (2 : ℚ) ^ (e - 2)
  strict : n % 2 = 1 → (4 * n - if AtStep spec n e then 1 else 2) * (2 : ℚ) ^ (e - 2) < r ∧
    r < (4 * n + 2) * (2 : ℚ) ^ (e - 2)

theorem two_zpow_pos (t : ℤ) : (0 : ℚ) < 2 ^ t := by positivity

/-- Quarters of the last bit. -/
theorem two_zpow_eq (e : ℤ) : (2 : ℚ) ^ e = 4 * 2 ^ (e - 2) := by
  rw [zpow_sub₀ (by norm_num)]
  norm_num
  ring

namespace RoundsTo

theorem half_le (h : RoundsTo spec n e r) : (n - 1 / 2) * (2 : ℚ) ^ e ≤ r := by
  have hle := h.le
  have hpos := two_zpow_pos (e - 2)
  rw [two_zpow_eq]
  split at hle
  · nlinarith
  · nlinarith

theorem pos_real (h : RoundsTo spec n e r) : 0 < r := by
  have hn : (1 : ℚ) ≤ n := by exact_mod_cast h.pos
  refine lt_of_lt_of_le ?_ h.half_le
  have := two_zpow_pos e
  nlinarith

theorem lt_zpow (h : RoundsTo spec n e r) : r < (2 : ℚ) ^ ((n.log2 : ℤ) + 1 + e) := by
  have hn := lt_zpow_log2 n
  have hge := h.ge
  have hpos := two_zpow_pos (e - 2)
  rw [zpow_add₀ (by norm_num), two_zpow_eq e]
  nlinarith

/-- A real that reaches the first bit of the number has its exponent. -/
theorem targetExponent_of_reach (h : RoundsTo spec n e r) (hb : (2 : ℚ) ^ b ≤ r)
    (hb' : r < 2 ^ (b + 1)) (hreach : (2 : ℚ) ^ ((n.log2 : ℤ) + e) ≤ r) :
    spec.targetExponent (b + 1) = e := by
  have hupper : b < (n.log2 : ℤ) + 1 + e :=
    (zpow_lt_zpow_iff_right₀ (by norm_num : (1 : ℚ) < 2)).1 (hb.trans_lt h.lt_zpow)
  have hlower : (n.log2 : ℤ) + e < b + 1 :=
    (zpow_lt_zpow_iff_right₀ (by norm_num : (1 : ℚ) < 2)).1 (hreach.trans_lt hb')
  have hsame : b + 1 = totalExponent n e := by
    unfold totalExponent
    omega
  rw [hsame, h.canonical]

/-- Above the smallest exponent a number has all its bits. -/
theorem normal (h : RoundsTo spec n e r) (hmin : e ≠ spec.minExponent) :
    n.log2 = spec.mantissaBitsWithoutImplicit ∧ spec.minExponent < e := by
  have hcanonical := h.canonical
  unfold Format.targetExponent totalExponent Format.mantissaBits at hcanonical
  omega

/-- Off the step the number has a unit to spare, so what rounds to it reaches its first bit. -/
theorem zpow_le_of_not_atStep (h : RoundsTo spec n e r) (hmin : e ≠ spec.minExponent)
    (hstep : ¬ AtStep spec n e) : (2 : ℚ) ^ ((n.log2 : ℤ) + e) ≤ r := by
  obtain ⟨hlog, hminlt⟩ := h.normal hmin
  have hspare : (2 : ℚ) ^ (n.log2 : ℤ) + 1 ≤ n := by
    have hne : n ≠ 2 ^ n.log2 := fun hn => hstep ⟨hlog ▸ hn, hminlt⟩
    have hlt : 2 ^ n.log2 + 1 ≤ n :=
      Nat.lt_of_le_of_ne (Nat.log2_self_le h.pos.ne') (Ne.symm hne)
    rw [zpow_natCast]
    exact_mod_cast hlt
  have hpos := two_zpow_pos e
  refine le_trans ?_ h.half_le
  rw [zpow_add₀ (by norm_num)]
  nlinarith

/-- A real below a number at a step has the exponent below that of the number. -/
theorem targetExponent_below (h : RoundsTo spec n e r) (hb : (2 : ℚ) ^ b ≤ r)
    (hb' : r < 2 ^ (b + 1)) (hstep : AtStep spec n e) (hlt : r < n * 2 ^ e) :
    spec.targetExponent (b + 1) = e - 1 := by
  have hcanonical := h.canonical
  obtain ⟨hlog, hminlt⟩ := h.normal hstep.2.ne'
  have hn : (n : ℚ) * 2 ^ e = 2 ^ ((n.log2 : ℤ) + e) := by
    rw [zpow_add₀ (by norm_num), hlog, zpow_natCast]
    exact_mod_cast congrArg (· * (2 : ℚ) ^ e) (congrArg Nat.cast hstep.1)
  have hbelow : b < (n.log2 : ℤ) + e := by
    rw [← zpow_lt_zpow_iff_right₀ (by norm_num : (1 : ℚ) < 2), ← hn]
    exact hb.trans_lt hlt
  -- Half of the number lies below all that rounds to it.
  have habove : (n.log2 : ℤ) + e - 1 < b + 1 := by
    rw [← zpow_lt_zpow_iff_right₀ (by norm_num : (1 : ℚ) < 2)]
    refine lt_of_le_of_lt (le_trans ?_ h.half_le) hb'
    have hn1 : (1 : ℚ) ≤ n := by exact_mod_cast h.pos
    have hpos := two_zpow_pos e
    rw [zpow_sub_one₀ (by norm_num), ← hn]
    nlinarith
  unfold Format.targetExponent totalExponent at *
  omega

/-- The exponent that a real is shifted to is that of the number, or the one below it for the reals
below a number at a step. -/
theorem target_cases (h : RoundsTo spec n e r) (hb : (2 : ℚ) ^ b ≤ r) (hb' : r < 2 ^ (b + 1)) :
    spec.targetExponent (b + 1) = e ∨
      (AtStep spec n e ∧ r < n * 2 ^ e ∧ spec.targetExponent (b + 1) = e - 1) := by
  by_cases hmin : e = spec.minExponent
  · have hcanonical := h.canonical
    have hupper : b < (n.log2 : ℤ) + 1 + e :=
      (zpow_lt_zpow_iff_right₀ (by norm_num : (1 : ℚ) < 2)).1 (hb.trans_lt h.lt_zpow)
    left
    unfold Format.targetExponent totalExponent at *
    omega
  · by_cases hstep : AtStep spec n e
    · by_cases hself : (n : ℚ) * 2 ^ e ≤ r
      · refine .inl (h.targetExponent_of_reach hb hb' (le_trans ?_ hself))
        rw [zpow_add₀ (by norm_num)]
        exact mul_le_mul_of_nonneg_right (zpow_log2_le h.pos.ne') (two_zpow_pos e).le
      · exact .inr ⟨hstep, not_le.1 hself, h.targetExponent_below hb hb' hstep (not_le.1 hself)⟩
    · exact .inl (h.targetExponent_of_reach hb hb' (h.zpow_le_of_not_atStep hmin hstep))

/-- The ends of the interval in quarters of the unit. -/
theorem quarters (h : RoundsTo spec n e r) :
    (4 * n - if AtStep spec n e then 1 else 2) ≤ 4 * (r / 2 ^ e) ∧ 4 * (r / 2 ^ e) ≤ 4 * n + 2 ∧
      (n % 2 = 1 → (4 * n - if AtStep spec n e then 1 else 2) < 4 * (r / 2 ^ e) ∧
        4 * (r / 2 ^ e) < 4 * n + 2) := by
  have hpos := two_zpow_pos (e - 2)
  have hr : r = 4 * (r / 2 ^ e) * 2 ^ (e - 2) := by
    rw [mul_comm 4, mul_assoc, ← two_zpow_eq, div_mul_cancel₀ _ (two_zpow_pos e).ne']
  obtain ⟨-, -, hle, hge, hstrict⟩ := h
  rw [hr] at hle hge hstrict
  refine ⟨le_of_mul_le_mul_right hle hpos, le_of_mul_le_mul_right hge hpos, fun hodd => ?_⟩
  obtain ⟨hlt, hgt⟩ := hstrict hodd
  exact ⟨lt_of_mul_lt_mul_right hlt hpos.le, lt_of_mul_lt_mul_right hgt hpos.le⟩

theorem nearest (h : RoundsTo spec n e r) : Nearest (r / 2 ^ e) n := by
  obtain ⟨hle, hge, hstrict⟩ := h.quarters
  have hquarters : (1 : ℚ) ≤ 2 ∧ (if AtStep spec n e then 1 else 2 : ℚ) ≤ 2 := by
    split <;> norm_num
  refine ⟨by linarith [hquarters.2], by linarith, fun hodd => ?_⟩
  obtain ⟨hlt, hgt⟩ := hstrict hodd
  exact ⟨by linarith [hquarters.2], by linarith⟩

/-- Below a step the unit is half as large, and the number is even in it. -/
theorem nearest_double (h : RoundsTo spec n e r) (hstep : AtStep spec n e) (hlt : r < n * 2 ^ e) :
    Nearest (r / 2 ^ (e - 1)) (2 * n) := by
  obtain ⟨hle, -, -⟩ := h.quarters
  rw [if_pos hstep] at hle
  have hbelow : r / 2 ^ e < n := (div_lt_iff₀ (two_zpow_pos e)).2 hlt
  have hdouble : r / 2 ^ (e - 1) = 2 * (r / 2 ^ e) := by
    rw [zpow_sub_one₀ (by norm_num)]
    field_simp
  rw [hdouble]
  refine ⟨?_, ?_, fun hodd => absurd hodd (by omega)⟩
  · push_cast
    linarith
  · push_cast
    linarith

end RoundsTo

theorem mantissa_ofMantissaAndAccuracy (M : ℕ) (acc : Accuracy) :
    (ExtendedMantissa.ofMantissaAndAccuracy M acc).mantissa = M := by
  rcases acc with _ | (_ | _ | _) <;> rfl

/-- A mantissa is shifted to its target exponent, which is not below its exponent. -/
theorem shiftToTargetExponent_eq {t : ℤ} (acc : Accuracy)
    (ht : spec.targetExponent (totalExponent M E) = t) (hE : E ≤ t) :
    shiftToTargetExponent spec M E acc =
      (ExtendedMantissa.ofMantissaAndAccuracy M acc >>> (t - E).toNat, t) := by
  unfold shiftToTargetExponent shiftToExponent
  dsimp only
  rw [ht]
  congr 1
  omega

theorem finite_of_mantissa {s : Sign} {m : ℕ} (hm : m = n) (hn : 0 < n) :
    (if h : m = 0 then UnpackedFloat.zero s else .finite s m e (Nat.pos_of_ne_zero h)) =
      .finite s n e hn := by
  subst hm
  exact dif_neg hn.ne'

/-- **A real that reads back as a number of the format is rounded to it.** The real is given by its
first bits and what is left, on a grid that is fine enough for its size. -/
theorem RoundsTo.roundWithAccuracy_eq (h : RoundsTo spec n e r)
    (happrox : Approximates (ExtendedMantissa.ofMantissaAndAccuracy M acc) x) (hr : r = x * 2 ^ E)
    (hE : ∀ b : ℤ, (2 : ℚ) ^ b ≤ r → r < 2 ^ (b + 1) → E ≤ spec.targetExponent (b + 1)) (s : Sign) :
    roundWithAccuracy spec s M E acc = .finite s n e h.pos := by
  have hreal := h.pos_real
  obtain ⟨b, hb, hb'⟩ : ∃ b : ℤ, (2 : ℚ) ^ b ≤ r ∧ r < 2 ^ (b + 1) :=
    ⟨Int.log 2 r, by exact_mod_cast Int.zpow_log_le_self (by decide) hreal,
      by exact_mod_cast Int.lt_zpow_succ_log_self (by decide) r⟩
  have hEb := hE b hb hb'
  -- The first shift leads to the exponent of the real.
  obtain ⟨hle, hlt⟩ := happrox.floor
  rw [mantissa_ofMantissaAndAccuracy] at hle hlt
  have ht : spec.targetExponent (totalExponent M E) = spec.targetExponent (b + 1) :=
    targetExponent_eq hle hlt (hr ▸ hb) (hr ▸ hb') hEb
  have hshift := shiftToTargetExponent_eq acc ht hEb
  have hround {k : ℕ} (hk : Nearest (r / 2 ^ spec.targetExponent (b + 1)) k) :
      (ExtendedMantissa.ofMantissaAndAccuracy M acc >>>
        (spec.targetExponent (b + 1) - E).toNat).roundedMantissa = k := by
    refine Approximates.roundedMantissa_eq (happrox.shiftRight _) ?_
    have hx : x / 2 ^ (spec.targetExponent (b + 1) - E).toNat =
        r / 2 ^ spec.targetExponent (b + 1) := by
      rw [hr, ← zpow_natCast, Int.toNat_of_nonneg (by omega), zpow_sub₀ (by norm_num)]
      field_simp
    rwa [hx]
  unfold roundWithAccuracy
  rw [hshift]
  dsimp only
  rcases h.target_cases hb hb' with hsame | ⟨hstep, hbelow, hbefore⟩
  · have hsecond := shiftToTargetExponent_eq .exact h.canonical le_rfl
    have hmantissa : (ExtendedMantissa.ofMantissaAndAccuracy n .exact >>> (e - e).toNat).mantissa =
        n := by
      rw [sub_self]
      rfl
    rw [hround (hsame.symm ▸ h.nearest), hsame, hsecond]
    exact finite_of_mantissa hmantissa h.pos
  · -- Twice the number has one bit too many, and is shifted once more.
    have htotal : totalExponent (2 * n) (e - 1) = totalExponent n e := by
      unfold totalExponent
      rw [Nat.log2_two_mul h.pos.ne']
      push_cast
      ring
    have hsecond := shiftToTargetExponent_eq .exact (htotal.symm ▸ h.canonical)
      (by omega : e - 1 ≤ e)
    have hmantissa : (ExtendedMantissa.ofMantissaAndAccuracy (2 * n) .exact >>>
        (e - (e - 1)).toNat).mantissa = n := by
      rw [sub_sub_cancel]
      exact Nat.mul_div_cancel_left n two_pos
    rw [hround (hbefore.symm ▸ h.nearest_double hstep hbelow), hbefore, hsecond]
    exact finite_of_mantissa hmantissa h.pos

/-! ### Quotients -/

/-- A whole quotient and its remainder stand for the quotient. -/
theorem approximates_quotient {m d : ℕ} (hd : 0 < d) :
    Approximates (ExtendedMantissa.ofMantissaAndAccuracy (m / d) (accuracyOfFraction (m % d) d))
      (m / d : ℚ) := by
  have hdq : (0 : ℚ) < d := by exact_mod_cast hd
  have hmod : (m % d : ℕ) < d := Nat.mod_lt m hd
  have hx : (m / d : ℚ) = (m / d : ℕ) + ((m % d : ℕ) : ℚ) / d := by
    have hm : ((d * (m / d) + m % d : ℕ) : ℚ) = m := by exact_mod_cast Nat.div_add_mod m d
    rw [← hm]
    push_cast
    field_simp
  rw [hx]
  generalize m / d = q, m % d = k at hmod ⊢
  unfold accuracyOfFraction
  split
  · rename_i hzero
    subst hzero
    constructor <;> simp [ExtendedMantissa.ofMantissaAndAccuracy, halves]
  · rename_i hzero
    have hpos : (0 : ℚ) < (k : ℚ) / d := by
      have : 0 < k := Nat.pos_of_ne_zero hzero
      positivity
    have hone : (k : ℚ) / d < 1 := by
      rw [div_lt_one hdq]
      exact_mod_cast hmod
    rcases lt_trichotomy (2 * k) d with hlt | heq | hgt
    · rw [Nat.compare_eq_lt.2 hlt]
      have hhalf : 2 * ((k : ℚ) / d) < 1 := by
        rw [← mul_div_assoc, div_lt_one hdq]
        exact_mod_cast hlt
      constructor
      · simp [ExtendedMantissa.ofMantissaAndAccuracy, halves]
        linarith
      · simp [ExtendedMantissa.ofMantissaAndAccuracy, halves]
        linarith
      · simp [ExtendedMantissa.ofMantissaAndAccuracy, halves, hzero, hd.ne']
    · rw [Nat.compare_eq_eq.2 heq]
      have hhalf : 2 * ((k : ℚ) / d) = 1 := by
        rw [← mul_div_assoc, div_eq_one_iff_eq hdq.ne']
        exact_mod_cast heq
      constructor <;> simp [ExtendedMantissa.ofMantissaAndAccuracy, halves] <;> linarith
    · rw [Nat.compare_eq_gt.2 hgt]
      have hhalf : 1 < 2 * ((k : ℚ) / d) := by
        rw [← mul_div_assoc, one_lt_div hdq]
        exact_mod_cast hgt
      constructor <;> simp [ExtendedMantissa.ofMantissaAndAccuracy, halves] <;> linarith

theorem zpow_totalExponent_le {m : ℕ} (hm : 0 < m) (e : ℤ) :
    (2 : ℚ) ^ (totalExponent m e - 1) ≤ m * 2 ^ e := by
  have hexponent : totalExponent m e - 1 = (m.log2 : ℤ) + e := by
    unfold totalExponent
    ring
  rw [hexponent, zpow_add₀ (by norm_num)]
  exact mul_le_mul_of_nonneg_right (zpow_log2_le hm.ne') (two_zpow_pos e).le

theorem lt_zpow_totalExponent (m : ℕ) (e : ℤ) : (m : ℚ) * 2 ^ e < 2 ^ totalExponent m e := by
  have hexponent : totalExponent m e = (m.log2 : ℤ) + 1 + e := rfl
  rw [hexponent, zpow_add₀ (by norm_num)]
  refine mul_lt_mul_of_pos_right ?_ (two_zpow_pos e)
  have := lt_zpow_log2 m
  linarith

/-- **A quotient that reads back as a number of the format is divided to it.** -/
theorem RoundsTo.div_eq (h : RoundsTo spec n e r) (s₁ s₂ : Sign) {m₁ m₂ : ℕ} (e₁ e₂ : ℤ)
    (h₁ : 0 < m₁) (h₂ : 0 < m₂) (hr : r * (m₂ * 2 ^ e₂) = m₁ * 2 ^ e₁) :
    div spec (.finite s₁ m₁ e₁ h₁) (.finite s₂ m₂ e₂ h₂) = .finite (s₁ / s₂) n e h.pos := by
  unfold div divCore
  dsimp only
  generalize ht : spec.targetExponent (totalExponent m₁ e₁ - totalExponent m₂ e₂) = t
  have hm₂ : (0 : ℚ) < m₂ := by exact_mod_cast h₂
  refine h.roundWithAccuracy_eq (approximates_quotient h₂) ?_ ?_ (s₁ / s₂)
  · have hcast : (((e₁ - e₂ - min (e₁ - e₂) t).toNat : ℕ) : ℤ) = e₁ - e₂ - min (e₁ - e₂) t :=
      Int.toNat_of_nonneg (by omega)
    have hexponents : (2 : ℚ) ^ (e₁ - e₂ - min (e₁ - e₂) t) * 2 ^ min (e₁ - e₂) t * 2 ^ e₂ =
        2 ^ e₁ := by
      rw [← zpow_add₀ (by norm_num), ← zpow_add₀ (by norm_num)]
      congr 1
      ring
    rw [Nat.shiftLeft_eq]
    push_cast
    rw [← zpow_natCast, hcast, eq_comm, div_mul_eq_mul_div, div_eq_iff hm₂.ne']
    refine mul_right_cancel₀ (two_zpow_pos e₂).ne' ?_
    rw [mul_assoc r, hr, ← hexponents]
    ring
  · intro b hb hb'
    -- The size of the quotient is known from the sizes of the two numbers up to one bit.
    have hsize : totalExponent m₁ e₁ - totalExponent m₂ e₂ ≤ b + 1 := by
      have hlt : (2 : ℚ) ^ (totalExponent m₁ e₁ - 1) < 2 ^ (b + 1 + totalExponent m₂ e₂) := by
        calc (2 : ℚ) ^ (totalExponent m₁ e₁ - 1) ≤ m₁ * 2 ^ e₁ := zpow_totalExponent_le h₁ e₁
          _ = r * (m₂ * 2 ^ e₂) := hr.symm
          _ < 2 ^ (b + 1) * 2 ^ totalExponent m₂ e₂ :=
            mul_lt_mul'' hb' (lt_zpow_totalExponent m₂ e₂) h.pos_real.le
              (mul_nonneg hm₂.le (two_zpow_pos e₂).le)
          _ = 2 ^ (b + 1 + totalExponent m₂ e₂) := (zpow_add₀ (by norm_num) _ _).symm
      have := (zpow_lt_zpow_iff_right₀ (by norm_num : (1 : ℚ) < 2)).1 hlt
      omega
    have hmono : spec.targetExponent _ ≤ spec.targetExponent _ := targetExponent_mono hsize
    omega

/-- A decimal that reads back as a number lies in its interval. -/
theorem roundsTo_of_readsBack {c : ℕ} {t : ℤ} (hpos : 0 < n)
    (hcanonical : spec.targetExponent (totalExponent n e) = e)
    (h : Decimal.Dyadic.readsBack ⟨n, e, decide (AtStep spec n e)⟩ c t = true) :
    RoundsTo spec n e (c * 10 ^ t) := by
  have hends : ((4 * n - (if AtStep spec n e then 1 else 2) : ℕ) : ℚ) =
      4 * n - if AtStep spec n e then 1 else 2 := by
    split
    · push_cast [show 1 ≤ 4 * n by omega]
      rfl
    · push_cast [show 2 ≤ 4 * n by omega]
      rfl
  unfold Decimal.Dyadic.readsBack Decimal.Dyadic.ends at h
  simp only [decide_eq_true_eq, Decimal.compareScaled_eq, hends, Bool.and_eq_true, Bool.or_eq_true,
    beq_iff_eq, compare_gt_iff_gt, compare_lt_iff_lt, compare_eq_iff_eq] at h
  push_cast at h
  obtain ⟨hlow, hhigh⟩ := h
  refine ⟨hpos, hcanonical, ?_, ?_, fun hodd => ?_⟩
  · rcases hlow with hlt | ⟨-, heq⟩
    · exact hlt.le
    · exact heq.ge
  · rcases hhigh with hlt | ⟨-, heq⟩
    · exact hlt.le
    · exact heq.le
  · refine ⟨hlow.resolve_right fun hclosed => ?_, hhigh.resolve_right fun hclosed => ?_⟩ <;> omega

/-! ### Patterns of doubles -/

open Pattern

theorem full_pos (spec : Format) : 0 < 2 ^ spec.exponentBits - 1 := by
  have := Nat.pow_le_pow_right (by decide : 0 < 2) spec.he
  omega

/-- Fields determine what they stand for. -/
theorem decodes_unique {e m e' m' : ℕ} {u u' : UnpackedFloat} (h : Decodes spec s e m u)
    (h' : Decodes spec s e' m' u') (he : e = e') (hm : m = m') : u = u' := by
  have hfull := full_pos spec
  cases h <;> cases h' <;> first | omega | (subst_vars; rfl)

theorem mantissa_of_full {e m : ℕ} {u : UnpackedFloat} (h : Decodes spec s e m u)
    (he : e = 2 ^ spec.exponentBits - 1) : m = 0 := by
  have hfull := full_pos spec
  cases h <;> omega

theorem unpackSign_packComponents (s : Sign) (e : BitVec spec.exponentBits)
    (m : BitVec spec.mantissaBitsWithoutImplicit) :
    Sign.ofBitVec (unpackSign (packComponents spec s e m)) = s := by
  have hsign : unpackSign (packComponents spec s e m) = s.toBitVec := by
    refine BitVec.eq_of_toNat_eq ?_
    rw [toNat_unpackSign, toNat_packComponents, Nat.pow_add, ← Nat.div_div_eq_div_mul,
      Nat.mul_comm _ (2 ^ spec.mantissaBitsWithoutImplicit),
      Nat.mul_add_div (Nat.two_pow_pos _), Nat.div_eq_of_lt m.isLt, Nat.add_zero,
      Nat.mul_comm, Nat.mul_add_div (Nat.two_pow_pos _), Nat.div_eq_of_lt e.isLt, Nat.add_zero]
  rw [hsign]
  cases s <;> rfl

theorem unpack_pack (hspec : 2 ≤ spec.exponentBits) {e : BitVec spec.exponentBits}
    {m : BitVec spec.mantissaBitsWithoutImplicit} {u : UnpackedFloat}
    (h : Decodes spec s e.toNat m.toNat u) : unpack spec (pack spec u) = u := by
  rw [pack_of_decodes hspec h]
  have hnan : unpackExponent (packComponents spec s e m) = -1#_ →
      unpackMantissa (packComponents spec s e m) = 0#_ := by
    rw [unpackExponent_packComponents, unpackMantissa_packComponents]
    exact fun hfull => BitVec.eq_of_toNat_eq (mantissa_of_full h (by rw [hfull, toNat_neg_one]))
  have hdecodes := decodes_unpack hnan
  rw [unpackSign_packComponents, unpackExponent_packComponents, unpackMantissa_packComponents]
    at hdecodes
  exact decodes_unique hdecodes h rfl rfl

/-- A finite number of the format has a pattern. -/
theorem exists_decodes (hpos : 0 < n) (hcanonical : spec.targetExponent (totalExponent n e) = e)
    (hmax : e + spec.exponentBias + spec.mantissaBitsWithoutImplicit + 1 < 2 ^ spec.exponentBits)
    (s : Sign) : ∃ (f : BitVec spec.exponentBits) (m : BitVec spec.mantissaBitsWithoutImplicit),
      Decodes spec s f.toNat m.toNat (.finite s n e hpos) := by
  have hmin := minExponent_eq spec
  unfold Format.targetExponent totalExponent Format.mantissaBits at hcanonical
  have hlt : n < 2 ^ (n.log2 + 1) := Nat.lt_log2_self
  by_cases hlog : n.log2 = spec.mantissaBitsWithoutImplicit
  · have hle : 2 ^ n.log2 ≤ n := Nat.log2_self_le hpos.ne'
    rw [hlog] at hle hlt
    rw [Nat.pow_succ] at hlt
    obtain ⟨m, rfl⟩ := Nat.exists_eq_add_of_le hle
    obtain ⟨f, hf⟩ : ∃ f : ℕ, (f : ℤ) = e + spec.exponentBias + spec.mantissaBitsWithoutImplicit :=
      ⟨(e + spec.exponentBias + spec.mantissaBitsWithoutImplicit).toNat,
        Int.toNat_of_nonneg (by omega)⟩
    have hfmax : f < 2 ^ spec.exponentBits - 1 := by
      have : ((f + 1 : ℕ) : ℤ) < ((2 ^ spec.exponentBits : ℕ) : ℤ) := by
        push_cast
        omega
      omega
    refine ⟨BitVec.ofNat _ f, BitVec.ofNat _ m, ?_⟩
    rw [BitVec.toNat_ofNat, BitVec.toNat_ofNat, Nat.mod_eq_of_lt (by omega),
      Nat.mod_eq_of_lt (by omega)]
    obtain rfl : e = f - (spec.exponentBias + spec.mantissaBitsWithoutImplicit) := by omega
    exact .normal (by omega) hfmax (by omega)
  · obtain rfl : e = spec.minExponent := by omega
    have hshort : n < 2 ^ spec.mantissaBitsWithoutImplicit :=
      hlt.trans_le (Nat.pow_le_pow_right (by decide) (by omega))
    refine ⟨0#_, BitVec.ofNat _ n, ?_⟩
    rw [BitVec.toNat_zero, BitVec.toNat_ofNat, Nat.mod_eq_of_lt hshort]
    exact .subnormal hshort

/-! ### Decimals of doubles -/

/-- The double that a finite number of the format is. -/
def double (s : Sign) (n : ℕ) (e : ℤ) (hpos : 0 < n) : Float :=
  .ofModel (.pack (.finite s n e hpos))

theorem unpack_double (hpos : 0 < n)
    (hcanonical : Format.binary64.targetExponent (totalExponent n e) = e) (hmax : e ≤ 971)
    (s : Sign) : (double s n e hpos).toModel.unpack = .finite s n e hpos := by
  obtain ⟨f, m, hdecodes⟩ := exists_decodes hpos hcanonical (by
    change e + 1023 + 52 + 1 < 2048
    omega) s
  exact unpack_pack (by decide) hdecodes

theorem neg_double (hpos : 0 < n)
    (hcanonical : Format.binary64.targetExponent (totalExponent n e) = e) (hmax : e ≤ 971)
    (s : Sign) : -double s n e hpos = double (-s) n e hpos := by
  have hunpack := unpack_double hpos hcanonical hmax s
  change Float.ofModel (.pack (double s n e hpos).toModel.unpack.neg) = _
  rw [hunpack]
  rfl

/-- A number of the format reads back as itself. -/
theorem roundsTo_self (hpos : 0 < n) (hcanonical : spec.targetExponent (totalExponent n e) = e) :
    RoundsTo spec n e (n * 2 ^ e) := by
  have hunit := two_zpow_pos (e - 2)
  have hquarters : (1 : ℚ) ≤ if AtStep spec n e then 1 else 2 := by split <;> norm_num
  rw [two_zpow_eq e]
  refine ⟨hpos, hcanonical, ?_, ?_, fun _ => ⟨?_, ?_⟩⟩ <;> nlinarith

/-- A number of the format is rounded to itself. -/
theorem roundWithAccuracy_self (hpos : 0 < n)
    (hcanonical : spec.targetExponent (totalExponent n e) = e) (s : Sign) :
    roundWithAccuracy spec s n e .exact = .finite s n e hpos := by
  have hself := roundsTo_self hpos hcanonical
  have hexact : Approximates (ExtendedMantissa.ofMantissaAndAccuracy n .exact) n := by
    constructor <;> simp [ExtendedMantissa.ofMantissaAndAccuracy, halves]
  refine hself.roundWithAccuracy_eq hexact rfl (fun b hb hb' => ?_) s
  rcases hself.target_cases hb hb' with hsame | ⟨-, hlt, -⟩
  · exact hsame.ge
  · exact absurd hlt (lt_irrefl _)

/-- The exponent of a natural number of at most 53 bits that fills the mantissa. -/
theorem canonical_shiftLeft {V : ℕ} (hpos : 0 < V) (hV : V < 2 ^ 53) :
    Format.binary64.targetExponent (totalExponent (V <<< (52 - V.log2)) ((V.log2 : ℤ) - 52)) =
      (V.log2 : ℤ) - 52 := by
  have hlog : V.log2 < 53 := (Nat.log2_lt hpos.ne').2 hV
  have hshift : (V <<< (52 - V.log2)).log2 = 52 := by
    have hle := Nat.log2_self_le hpos.ne'
    have hlt : V < 2 ^ (V.log2 + 1) := Nat.lt_log2_self
    have hunit : 2 ^ V.log2 * 2 ^ (52 - V.log2) = 2 ^ 52 := by
      rw [← Nat.pow_add]
      congr 1
      omega
    have hscale := Nat.two_pow_pos (52 - V.log2)
    rw [Nat.pow_succ] at hlt
    refine (Nat.log2_eq_iff (Nat.shiftLeft_eq .. ▸ by positivity)).2 ?_
    change 2 ^ 52 ≤ V <<< (52 - V.log2) ∧ V <<< (52 - V.log2) < 2 ^ 52 * 2
    rw [Nat.shiftLeft_eq, ← hunit]
    constructor <;> nlinarith
  unfold totalExponent
  rw [hshift]
  change max (((52 : ℕ) : ℤ) + 1 + ((V.log2 : ℤ) - 52) - 53) (-1074) = _
  omega

theorem shiftLeft_pos {V : ℕ} (hpos : 0 < V) (k : ℕ) : 0 < V <<< k := by
  rw [Nat.shiftLeft_eq]
  positivity

/-- A natural number of at most 53 bits is a double. -/
theorem toFloat_eq {V : ℕ} (hpos : 0 < V) (hV : V < 2 ^ 53) :
    V.toUInt64.toFloat = double .positive (V <<< (52 - V.log2)) ((V.log2 : ℤ) - 52)
      (shiftLeft_pos hpos _) := by
  have hlog : V.log2 < 53 := (Nat.log2_lt hpos.ne').2 hV
  have hword : V.toUInt64.toNat = V := Nat.mod_eq_of_lt (by omega)
  have htarget : Format.binary64.targetExponent (totalExponent V 0) = (V.log2 : ℤ) - 52 := by
    change max ((V.log2 : ℤ) + 1 + 0 - 53) (-1074) = _
    omega
  have hcompare : compare (V : ℤ) 0 = .gt := compare_gt_iff_gt.2 (by exact_mod_cast hpos)
  have hround : UnpackedFloat.ofNat Format.binary64 V =
      .finite .positive (V <<< (52 - V.log2)) ((V.log2 : ℤ) - 52) (shiftLeft_pos hpos _) := by
    have hshift : (0 - ((V.log2 : ℤ) - 52)).toNat = 52 - V.log2 := by omega
    have hexponent : (0 : ℤ) - ((52 - V.log2 : ℕ) : ℤ) = (V.log2 : ℤ) - 52 := by omega
    rw [← roundWithAccuracy_self (shiftLeft_pos hpos _) (canonical_shiftLeft hpos hV) .positive]
    unfold ofNat ofInt UnpackedFloat.normalize
    rw [hcompare]
    unfold UnpackedFloat.round decreaseExponent
    simp only [Int.toNat_natCast, htarget, hshift, hexponent]
  change Float.ofModel (.pack (UnpackedFloat.ofNat Format.binary64 V.toUInt64.toNat)) = _
  rw [hword, hround]
  rfl

/-- Does the double stand for the power of ten? -/
def isPowerOfTen (v : Float) (k : ℕ) : Bool :=
  match v.toModel.unpack with
  | .finite .positive m f _ =>
    if 0 ≤ f then m * 2 ^ f.toNat == 10 ^ k else m == 10 ^ k * 2 ^ (-f).toNat
  | _ => false

theorem isPowerOfTen_table :
    ∀ k : Fin Float.exactlyRepresentablePowersOfTen.size,
      isPowerOfTen Float.exactlyRepresentablePowersOfTen[k] k := by
  decide +kernel

/-- The powers of ten that are doubles. -/
theorem unpack_powerOfTen {k : ℕ} (hk : k < Float.exactlyRepresentablePowersOfTen.size) :
    ∃ (m : ℕ) (f : ℤ) (hm : 0 < m),
      Float.exactlyRepresentablePowersOfTen[k].toModel.unpack = .finite .positive m f hm ∧
        (m : ℚ) * 2 ^ f = 10 ^ k := by
  have htable : isPowerOfTen Float.exactlyRepresentablePowersOfTen[k] k :=
    isPowerOfTen_table ⟨k, hk⟩
  unfold isPowerOfTen at htable
  rcases hunpack : Float.exactlyRepresentablePowersOfTen[k].toModel.unpack with
    _ | _ | _ | ⟨_ | _, m, f, hm⟩
  all_goals rw [hunpack] at htable
  case finite.positive =>
    refine ⟨m, f, hm, rfl, ?_⟩
    change (if 0 ≤ f then m * 2 ^ f.toNat == 10 ^ k else m == 10 ^ k * 2 ^ (-f).toNat) = true
      at htable
    by_cases hf : 0 ≤ f
    · rw [if_pos hf, beq_iff_eq] at htable
      rw [← Int.toNat_of_nonneg hf, zpow_natCast]
      exact_mod_cast htable
    · rw [if_neg hf, beq_iff_eq] at htable
      have hm : (m : ℚ) = 10 ^ k * 2 ^ (-f).toNat := by exact_mod_cast htable
      have hpower : (2 : ℚ) ^ (-f).toNat = 2 ^ (-f) := by
        rw [← zpow_natCast, Int.toNat_of_nonneg (by omega)]
      rw [hm, hpower, mul_assoc, ← zpow_add₀ (by norm_num), neg_add_cancel, zpow_zero, mul_one]
  all_goals cases htable

/-- Small digits over a power of ten that is a double: the quotient of the two doubles. -/
theorem toFloat_div_eq {V k : ℕ} (h : RoundsTo Format.binary64 n e (V / 10 ^ k)) (hV : 0 < V)
    (hdigits : V < 2 ^ 53) (hk : k < Float.exactlyRepresentablePowersOfTen.size) :
    V.toUInt64.toFloat / Float.exactlyRepresentablePowersOfTen[k] = double .positive n e h.pos := by
  obtain ⟨m, f, hm, hunpack, hvalue⟩ := unpack_powerOfTen hk
  have hlog : V.log2 < 53 := (Nat.log2_lt hV.ne').2 hdigits
  have hnumber := unpack_double (shiftLeft_pos hV _) (canonical_shiftLeft hV hdigits) (by omega)
    .positive
  have hshift : ((V <<< (52 - V.log2) : ℕ) : ℚ) * 2 ^ ((V.log2 : ℤ) - 52) = V := by
    have hpower : (2 : ℚ) ^ (52 - V.log2) * 2 ^ ((V.log2 : ℤ) - 52) = 1 := by
      rw [← zpow_natCast, ← zpow_add₀ (by norm_num), ← zpow_zero (2 : ℚ)]
      congr 1
      omega
    rw [Nat.shiftLeft_eq]
    push_cast
    rw [mul_assoc, hpower, mul_one]
  have hten : (10 : ℚ) ^ k ≠ 0 := by positivity
  have hdiv := h.div_eq .positive .positive _ _ (shiftLeft_pos hV _) hm
    (by rw [hvalue, hshift]; field_simp)
  rw [toFloat_eq hV hdigits]
  change Float.ofModel (.pack (div Format.binary64 _ _)) = _
  rw [hnumber]
  refine (congrArg (fun u => Float.ofModel (.pack (div Format.binary64 _ u))) hunpack).trans ?_
  rw [hdiv]
  rfl

/-- Other decimals are rounded as exact fractions, unless the power of ten is out of range. -/
theorem unpacked_ofScientific_eq {V k : ℕ} (h : RoundsTo Format.binary64 n e (V / 10 ^ k))
    (hV : 0 < V) (hk : 0 < k) (hsmall : k ≤ 2048 + V.log2) :
    UnpackedFloat.ofScientific Format.binary64 V (-(k : ℤ)) = .finite .positive n e h.pos := by
  have htens : 0 < 10 ^ k := Nat.pow_pos (by decide)
  have hten : (10 : ℚ) ^ k ≠ 0 := by positivity
  have hdiv := h.div_eq .positive .positive 0 0 hV htens (by push_cast; field_simp)
  have hlarge : ¬ -(k : ℤ) > 2 ^ Format.binary64.exponentBits := by
    change ¬ -(k : ℤ) > 2048
    omega
  have htiny : ¬ -(k : ℤ) < -((2 ^ Format.binary64.exponentBits : ℤ) + V.log2) := by
    change ¬ -(k : ℤ) < -(2048 + (V.log2 : ℤ))
    omega
  unfold UnpackedFloat.ofScientific
  rw [dif_neg hV.ne', if_neg hlarge, if_neg htiny, if_neg (by omega)]
  have hplaces : (- -(k : ℤ)).toNat = k := by rw [Int.neg_neg, Int.toNat_natCast]
  generalize_proofs hpower
  generalize (- -(k : ℤ)).toNat = places at hpower hplaces
  subst hplaces
  exact hdiv

/-- **A decimal that reads back as a double is read as that double.** Small decimals are divided by
a power of ten that is a double, and all others as exact fractions. -/
theorem ofScientific_eq {V k : ℕ} (h : RoundsTo Format.binary64 n e (V / 10 ^ k)) (hV : 0 < V)
    (hk : 0 < k) (hsmall : k ≤ 2048 + V.log2) :
    Float.ofScientific V true k = double .positive n e h.pos := by
  unfold Float.ofScientific
  split
  · rename_i hfast
    exact toFloat_div_eq h hV hfast.1 (Nat.lt_succ_of_le hfast.2)
  · have hneg : Int.negOfNat k = -(k : ℤ) := Int.negOfNat_eq
    change Float.ofModel (.pack (UnpackedFloat.ofScientific Format.binary64 V
      (Int.negOfNat k))) = _
    rw [hneg, unpacked_ofScientific_eq h hV hk hsmall]
    rfl

/-- The sizes of the reals that read back as doubles. -/
theorem RoundsTo.size_bounds (h : RoundsTo Format.binary64 n e r) (hmax : e ≤ 971) :
    (2 : ℚ) ^ (-1075 : ℤ) ≤ r ∧ r < 2 ^ (1024 : ℤ) := by
  have hcanonical := h.canonical
  change max ((n.log2 : ℤ) + 1 + e - 53) (-1074) = e at hcanonical
  constructor
  · have hn : (1 : ℚ) ≤ n := by exact_mod_cast h.pos
    have hpos := two_zpow_pos e
    calc (2 : ℚ) ^ (-1075 : ℤ) ≤ 2 ^ (e - 1) := zpow_le_zpow_right₀ (by norm_num) (by omega)
      _ = 1 / 2 * 2 ^ e := by
        rw [zpow_sub_one₀ (by norm_num)]
        ring
      _ ≤ (n - 1 / 2) * 2 ^ e := mul_le_mul_of_nonneg_right (by linarith) hpos.le
      _ ≤ r := h.half_le
  · exact h.lt_zpow.trans_le (zpow_le_zpow_right₀ (by norm_num) (by omega))

/-! ### Doubles and their patterns -/

variable {v : Float}

/-- The sign of a double. -/
def signOf (v : Float) : Sign := if v.toBits.toNat < 2 ^ 63 then .positive else .negative

theorem ofBitVec_unpackSign (v : Float) :
    Sign.ofBitVec (@unpackSign Format.binary64 v.toBits.toBitVec) = signOf v := by
  have hlt := v.toBits.toNat_lt
  have hsign : (@unpackSign Format.binary64 v.toBits.toBitVec).toNat = v.toBits.toNat / 2 ^ 63 :=
    @toNat_unpackSign Format.binary64 v.toBits.toBitVec
  unfold signOf
  split
  · rename_i hpos
    have hzero : @unpackSign Format.binary64 v.toBits.toBitVec = 0#1 :=
      BitVec.eq_of_toNat_eq (hsign.trans (Nat.div_eq_of_lt hpos))
    rw [hzero]
    rfl
  · have hone : @unpackSign Format.binary64 v.toBits.toBitVec = 1#1 := by
      refine BitVec.eq_of_toNat_eq (hsign.trans ?_)
      change _ = 1
      omega
    rw [hone]
    rfl

theorem mantissa_of_not_isNaN (h : v.isNaN = false) :
    @unpackExponent Format.binary64 v.toBits.toBitVec = -1#_ →
      @unpackMantissa Format.binary64 v.toBits.toBitVec = 0#_ := by
  intro he
  by_contra hm
  have hunpack : v.toModel.unpack = .notANumber := by
    change unpack Format.binary64 v.toBits.toBitVec = _
    unfold unpack
    dsimp only
    rw [if_pos he, if_neg hm]
  have hnan : v.isNaN = v.toModel.unpack.isNaN := rfl
  rw [hnan, hunpack] at h
  cases h

/-- The fields of a double that is no NaN. -/
theorem decodes_double (h : v.isNaN = false) :
    Decodes Format.binary64 (signOf v) (v.toBits.toNat / 2 ^ 52 % 2 ^ 11) (v.toBits.toNat % 2 ^ 52)
      v.toModel.unpack := by
  have hdecodes := decodes_unpack (mantissa_of_not_isNaN h)
  rw [ofBitVec_unpackSign, toNat_unpackExponent, toNat_unpackMantissa] at hdecodes
  exact hdecodes

theorem eq_of_toBits {v w : Float} (h : v.toBits = w.toBits) : v = w := by
  obtain ⟨⟨b, hb⟩⟩ := v
  obtain ⟨⟨b', hb'⟩⟩ := w
  obtain rfl : b = b' := h
  rfl

/-- A double is determined by the number that it stands for. -/
theorem eq_ofModel_pack (h : v.isNaN = false) : v = .ofModel (.pack v.toModel.unpack) := by
  have hpack := @pack_unpack Format.binary64 _ (by decide) (mantissa_of_not_isNaN h)
  have hbits : v.toBits =
      UInt64.ofBitVec (pack Format.binary64 (unpack Format.binary64 v.toBits.toBitVec)) :=
    UInt64.toBitVec_inj.1 hpack.symm
  exact eq_of_toBits hbits

/-- The three kinds of doubles that are no NaN, with the size that a finite one is written from. -/
inductive Kind (v : Float) : Prop
  | infinity : v = .ofModel (.pack (.infinity (signOf v))) → Kind v
  | zero : v = .ofModel (.pack (.zero (signOf v))) → Kind v
  | finite {n : ℕ} {e : ℤ} {hpos : 0 < n} : v = double (signOf v) n e hpos →
      Format.binary64.targetExponent (totalExponent n e) = e → e ≤ 971 →
      Decimal.Dyadic.ofFloat v = ⟨n, e, decide (AtStep Format.binary64 n e)⟩ → Kind v

theorem kind_of_not_isNaN (h : v.isNaN = false) : Kind v := by
  have hpack := eq_ofModel_pack h
  have hdecodes := decodes_double h
  have hsize : Decimal.Dyadic.ofFloat v =
      if v.toBits.toNat / 2 ^ 52 % 2 ^ 11 = 0 then ⟨v.toBits.toNat % 2 ^ 52, -1074, false⟩
      else ⟨v.toBits.toNat % 2 ^ 52 + 2 ^ 52, Int.ofNat (v.toBits.toNat / 2 ^ 52 % 2 ^ 11) - 1075,
        v.toBits.toNat % 2 ^ 52 == 0 && v.toBits.toNat / 2 ^ 52 % 2 ^ 11 > 1⟩ := rfl
  generalize v.toModel.unpack = u, v.toBits.toNat / 2 ^ 52 % 2 ^ 11 = f,
    v.toBits.toNat % 2 ^ 52 = m at hpack hdecodes hsize
  cases hdecodes with
  | infinity => exact .infinity hpack
  | zero => exact .zero hpack
  | @subnormal _ hm hlt =>
    have hlog : m.log2 < 52 := (Nat.log2_lt hm.ne').2 hlt
    refine .finite hpack ?_ (by decide) (hsize.trans ?_)
    · change max ((m.log2 : ℤ) + 1 + (-1074) - 53) (-1074) = -1074
      omega
    · have hstep : ¬ AtStep Format.binary64 m (-1074) := fun hstep => absurd hstep.2 (by decide)
      rw [if_pos rfl]
      exact congrArg _ (decide_eq_false hstep).symm
  | @normal _ _ hsig hpos hfull hlt =>
    have hlt : m < 2 ^ 52 := hlt
    have hlog : (2 ^ 52 + m).log2 = 52 :=
      (Nat.log2_eq_iff (by omega)).2 ⟨by omega, by rw [Nat.pow_succ]; omega⟩
    refine .finite hpack ?_ ?_ (hsize.trans ?_)
    · change max (((2 ^ 52 + m).log2 : ℤ) + 1 + (f - 1075) - 53) (-1074) = f - 1075
      rw [hlog]
      omega
    · change (f : ℤ) - 1075 ≤ 971
      change f < 2047 at hfull
      omega
    · have hstep : AtStep Format.binary64 (2 ^ 52 + m) (f - 1075) ↔ m = 0 ∧ f > 1 := by
        change 2 ^ 52 + m = 2 ^ 52 ∧ (-1074 : ℤ) < f - 1075 ↔ _
        omega
      have hmark : (m == 0 && f > 1) = decide (AtStep Format.binary64 (2 ^ 52 + m) (f - 1075)) := by
        rw [decide_eq_decide.2 hstep, Bool.decide_and]
        rfl
      rw [if_neg hpos.ne', Nat.add_comm]
      exact congrArg _ hmark

theorem mantissa_of_le {b : UInt64} (h : b.toNat % 2 ^ 63 ≤ 0x7ff0000000000000) :
    @unpackExponent Format.binary64 b.toBitVec = -1#_ →
      @unpackMantissa Format.binary64 b.toBitVec = 0#_ := by
  intro he
  have he : b.toNat / 2 ^ 52 % 2 ^ 11 = 2047 :=
    (@toNat_unpackExponent Format.binary64 b.toBitVec).symm.trans (congrArg BitVec.toNat he)
  have hm : b.toNat % 2 ^ 52 = 0 := by omega
  exact BitVec.eq_of_toNat_eq ((@toNat_unpackMantissa Format.binary64 b.toBitVec).trans hm)

/-- Patterns of double precision that are no NaN stay as they are. -/
theorem toBits_ofBits {b : UInt64} (h : b.toNat % 2 ^ 63 ≤ 0x7ff0000000000000) :
    (Float.ofBits b).toBits = b := by
  have hpack := @pack_unpack Format.binary64 _ (by decide) (mantissa_of_le h)
  exact UInt64.toBitVec_inj.1 hpack

theorem isNaN_of_decodes {e m : ℕ} {u : UnpackedFloat} (h : Decodes spec s e m u) :
    u.isNaN = false := by
  cases h <;> rfl

theorem isNaN_eq_false_of_le (h : v.toBits.toNat % 2 ^ 63 ≤ 0x7ff0000000000000) :
    v.isNaN = false :=
  isNaN_of_decodes (decodes_unpack (mantissa_of_le h))

end Rounding

namespace Binary32

variable {x : Binary32} {e m : ℕ}

theorem roundShift_mul (n s : ℕ) : roundShift (n * 2 ^ s) s = n := by
  have hpow : Nat.pow 2 s = 2 ^ s := rfl
  have hpos := Nat.two_pow_pos s
  unfold roundShift
  simp only [hpow, Nat.mul_div_cancel _ hpos, Nat.mul_mod_left]
  rw [if_neg]
  simp
  omega

/-- Exponent and fraction of a number that is no NaN are widened to those of a double that is no NaN
either. -/
theorem widenBits_le (he : e < 256) (hm : m < 2 ^ 23) (hnan : e = 255 → m = 0) :
    widenBits e m ≤ 0x7ff0000000000000 := by
  unfold widenBits
  split
  · simp [hnan ‹_›]
  · split
    · split
      · simp
      · rename_i hpos
        have htop : m.log2 < 23 := (Nat.log2_lt hpos).2 hm
        have hlt : m < 2 ^ (m.log2 + 1) := Nat.lt_log2_self
        have hshift : m * 2 ^ (52 - m.log2) < 2 ^ 53 := by
          calc m * 2 ^ (52 - m.log2) < 2 ^ (m.log2 + 1) * 2 ^ (52 - m.log2) :=
                Nat.mul_lt_mul_of_pos_right hlt (Nat.two_pow_pos _)
            _ = 2 ^ 53 := by
                rw [← Nat.pow_add]
                congr 1
                omega
        simp only [Nat.shiftLeft_eq]
        omega
    · simp only [Nat.shiftLeft_eq]
      omega

theorem narrowBits_of_pos (hpos : e ≠ 0) (hmax : e ≠ 2047) : narrowBits e m =
    Nat.min 0x7f800000 ((e - 897) * 2 ^ 23 +
      roundShift (2 ^ 52 + m) (e - 897 + 926 - Nat.max e 1)) := by
  unfold narrowBits
  rw [if_neg hmax, if_neg hpos]
  norm_num [Nat.shiftLeft_eq]

/-- Exponent and fraction that are widened are narrowed to what they were. -/
theorem narrowBits_widenBits (he : e < 256) (hm : m < 2 ^ 23) (hnan : e = 255 → m = 0) :
    narrowBits (widenBits e m / 2 ^ 52) (widenBits e m % 2 ^ 52) = e * 2 ^ 23 + m := by
  by_cases hfull : e = 255
  · obtain rfl := hfull
    obtain rfl := hnan rfl
    decide +kernel
  by_cases hempty : e = 0
  · obtain rfl := hempty
    by_cases hzero : m = 0
    · obtain rfl := hzero
      decide +kernel
    · -- The first bit of a subnormal number becomes the implicit one.
      have htop : m.log2 < 23 := (Nat.log2_lt hzero).2 hm
      have hle : 2 ^ m.log2 ≤ m := Nat.log2_self_le hzero
      have hlt : m < 2 ^ (m.log2 + 1) := Nat.lt_log2_self
      have hpow : 2 ^ m.log2 * 2 ^ (52 - m.log2) = 2 ^ 52 := by
        rw [← Nat.pow_add]
        congr 1
        omega
      have hlow : 2 ^ 52 ≤ m * 2 ^ (52 - m.log2) := hpow ▸ Nat.mul_le_mul_right _ hle
      have hhigh : m * 2 ^ (52 - m.log2) < 2 ^ 53 := by
        have := Nat.mul_lt_mul_of_pos_right hlt (Nat.two_pow_pos (52 - m.log2))
        rw [Nat.pow_succ, Nat.mul_right_comm, hpow] at this
        exact this
      have hwide : widenBits 0 m = (m.log2 + 873) * 2 ^ 52 + m * 2 ^ (52 - m.log2) := by
        simp [widenBits, hzero, Nat.shiftLeft_eq]
      have hexponent : widenBits 0 m / 2 ^ 52 = m.log2 + 874 := by omega
      have hfraction : 2 ^ 52 + widenBits 0 m % 2 ^ 52 = m * 2 ^ (52 - m.log2) := by omega
      have hshift : m.log2 + 874 - 897 + 926 - Nat.max (m.log2 + 874) 1 = 52 - m.log2 := by
        have : Nat.max (m.log2 + 874) 1 = m.log2 + 874 := Nat.max_eq_left (by omega)
        omega
      rw [hexponent, narrowBits_of_pos (by omega) (by omega), hfraction, hshift, roundShift_mul]
      exact (Nat.min_eq_right (by omega)).trans (by omega)
  · have hwide : widenBits e m = (e + 896) * 2 ^ 52 + m * 2 ^ 29 := by
      simp [widenBits, hfull, hempty, Nat.shiftLeft_eq]
    have hexponent : widenBits e m / 2 ^ 52 = e + 896 := by omega
    have hfraction : 2 ^ 52 + widenBits e m % 2 ^ 52 = (2 ^ 23 + m) * 2 ^ 29 := by omega
    have hshift : e + 896 - 897 + 926 - Nat.max (e + 896) 1 = 29 := by
      have : Nat.max (e + 896) 1 = e + 896 := Nat.max_eq_left (by omega)
      omega
    rw [hexponent, narrowBits_of_pos (by omega) (by omega), hfraction, hshift, roundShift_mul]
    exact (Nat.min_eq_right (by omega)).trans (by omega)

theorem widenBits_fields_le (h : x.isNaN = false) :
    widenBits (x.bits.toNat / 2 ^ 23 % 256) (x.bits.toNat % 2 ^ 23) ≤ 0x7ff0000000000000 := by
  rw [isNaN_eq_false_iff] at h
  exact widenBits_le (by omega) (by omega) (by omega)

/-- The pattern of a number that is no NaN, in double precision. -/
theorem toBits_toFloat (h : x.isNaN = false) : x.toFloat.toBits.toNat =
    x.bits.toNat / 2 ^ 31 * 2 ^ 63 +
      widenBits (x.bits.toNat / 2 ^ 23 % 256) (x.bits.toNat % 2 ^ 23) := by
  have hlt := x.bits.toNat_lt
  have hle := widenBits_fields_le h
  have hwidth : x.bits.toNat / 2 ^ 31 * 2 ^ 63 +
      widenBits (x.bits.toNat / 2 ^ 23 % 256) (x.bits.toNat % 2 ^ 23) < 2 ^ 64 := by omega
  have hbits := UInt64.toNat_ofNat_of_lt' hwidth
  have hpattern : (UInt64.ofNat (x.bits.toNat / 2 ^ 31 * 2 ^ 63 +
      widenBits (x.bits.toNat / 2 ^ 23 % 256) (x.bits.toNat % 2 ^ 23))).toNat % 2 ^ 63 ≤
        0x7ff0000000000000 := by
    rw [hbits]
    omega
  have hfloat : x.toFloat = .ofBits (.ofNat (x.bits.toNat / 2 ^ 31 * 2 ^ 63 +
      widenBits (x.bits.toNat / 2 ^ 23 % 256) (x.bits.toNat % 2 ^ 23))) := by
    simp only [toFloat, Nat.shiftRight_eq_div_pow, Nat.shiftLeft_eq]
    rfl
  rw [hfloat, Rounding.toBits_ofBits hpattern, hbits]

theorem isNaN_toFloat (h : x.isNaN = false) : x.toFloat.isNaN = false := by
  refine Rounding.isNaN_eq_false_of_le ?_
  have hle := widenBits_fields_le h
  rw [toBits_toFloat h]
  omega

/-- **A single-precision number that is widened and narrowed stays as it is**, unless it is NaN. -/
theorem ofFloat_toFloat (h : x.isNaN = false) : ofFloat x.toFloat = x := by
  have hbits := toBits_toFloat h
  have hlt := x.bits.toNat_lt
  have hle := widenBits_fields_le h
  rw [isNaN_eq_false_iff] at h
  have hnarrow := narrowBits_widenBits (e := x.bits.toNat / 2 ^ 23 % 256)
    (m := x.bits.toNat % 2 ^ 23) (by omega) (by omega) (by omega)
  generalize widenBits (x.bits.toNat / 2 ^ 23 % 256) (x.bits.toNat % 2 ^ 23) = w at *
  have hexponent : x.toFloat.toBits.toNat / 2 ^ 52 % 2048 = w / 2 ^ 52 := by omega
  have hfraction : x.toFloat.toBits.toNat % 2 ^ 52 = w % 2 ^ 52 := by omega
  have hsign : x.toFloat.toBits.toNat / 2 ^ 63 = x.bits.toNat / 2 ^ 31 := by omega
  have hpattern : x.toFloat.toBits.toNat / 2 ^ 63 * 2 ^ 31 +
      narrowBits (x.toFloat.toBits.toNat / 2 ^ 52 % 2048) (x.toFloat.toBits.toNat % 2 ^ 52) =
        x.bits.toNat := by
    rw [hexponent, hfraction, hsign, hnarrow]
    omega
  have hfields : (4503599627370496 : ℕ) = 2 ^ 52 := by norm_num
  unfold ofFloat
  simp only [Nat.shiftRight_eq_div_pow, Nat.shiftLeft_eq, hfields, hpattern, UInt32.ofNat_toNat]

end Binary32

end NetPack
