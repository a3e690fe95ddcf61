import Mathlib.Order.Compare
import Mathlib.Tactic.Ring
import NetPack.Binary32

/-!
# The order of single-precision numbers

Numbers are compared by what their patterns stand for: sign, exponent and significand. The order is
that of the patterns themselves, read as integers with a sign (`Binary32.rank`). Exponents stand
before significands in a pattern, so the greater magnitude has the greater pattern
(`Binary32.then_compare`). Two patterns that are no NaN compare as their ranks do
(`Binary32.compare_number`), which makes the order of numbers a total one, with the two zeros at the
same place and negative infinity alone at the lower end (`Binary32.eq_negInfinity_of_rank`). A
pattern is the same as itself exactly if it is no NaN (`Binary32.same_self`).
-/

namespace NetPack

/-! ### Patterns and their fields -/

namespace Pattern

open Float.Model (Format UnpackedFloat)
open Float.Model.UnpackedFloat

variable {spec : Format} {b : BitVec spec.numBits} {s : Sign}

theorem toNat_unpackExponent (b : BitVec spec.numBits) :
    (unpackExponent b).toNat =
      b.toNat / 2 ^ spec.mantissaBitsWithoutImplicit % 2 ^ spec.exponentBits := by
  have hwidth : spec.mantissaBitsWithoutImplicit + spec.exponentBits - 1 -
      spec.mantissaBitsWithoutImplicit + 1 = spec.exponentBits := by
    have := spec.he
    omega
  simp only [unpackExponent, BitVec.extractLsb, BitVec.toNat_cast, BitVec.extractLsb'_toNat,
    Nat.shiftRight_eq_div_pow, hwidth]

theorem toNat_unpackMantissa (b : BitVec spec.numBits) :
    (unpackMantissa b).toNat = b.toNat % 2 ^ spec.mantissaBitsWithoutImplicit := by
  have hwidth : spec.mantissaBitsWithoutImplicit - 1 - 0 + 1 =
      spec.mantissaBitsWithoutImplicit := by
    have := spec.hm
    omega
  simp only [unpackMantissa, BitVec.extractLsb, BitVec.toNat_cast, BitVec.extractLsb'_toNat,
    Nat.shiftRight_zero, hwidth]

theorem toNat_unpackSign (b : BitVec spec.numBits) :
    (unpackSign b).toNat =
      b.toNat / 2 ^ (spec.mantissaBitsWithoutImplicit + spec.exponentBits) := by
  have hlt : b.toNat < 2 ^ (spec.mantissaBitsWithoutImplicit + spec.exponentBits) * 2 := by
    rw [← Nat.pow_succ]
    exact b.isLt.trans_le (Nat.pow_le_pow_right (by decide) (by simp [Format.numBits]; omega))
  unfold unpackSign
  simp only [BitVec.extractLsb, BitVec.toNat_cast, BitVec.extractLsb'_toNat,
    Nat.shiftRight_eq_div_pow]
  refine Nat.mod_eq_of_lt ?_
  rw [Nat.sub_self]
  exact Nat.div_lt_of_lt_mul hlt

theorem toBitVec_ofBitVec (s : BitVec 1) : (Sign.ofBitVec s).toBitVec = s := by
  revert s
  decide

theorem toNat_packComponents (s : Sign) (e : BitVec spec.exponentBits)
    (m : BitVec spec.mantissaBitsWithoutImplicit) :
    (packComponents spec s e m).toNat =
      (s.toBitVec.toNat * 2 ^ spec.exponentBits + e.toNat) * 2 ^ spec.mantissaBitsWithoutImplicit +
        m.toNat := by
  rw [packComponents, BitVec.toNat_append, BitVec.toNat_append,
    ← Nat.shiftLeft_add_eq_or_of_lt e.isLt, ← Nat.shiftLeft_add_eq_or_of_lt m.isLt,
    Nat.shiftLeft_eq, Nat.shiftLeft_eq]

/-- A pattern is put together from its fields. -/
theorem packComponents_unpack (b : BitVec spec.numBits) :
    packComponents spec (Sign.ofBitVec (unpackSign b)) (unpackExponent b) (unpackMantissa b) =
      b := by
  refine BitVec.eq_of_toNat_eq ?_
  rw [toNat_packComponents, toBitVec_ofBitVec, toNat_unpackSign, toNat_unpackExponent,
    toNat_unpackMantissa, Nat.pow_add, ← Nat.div_div_eq_div_mul,
    Nat.mul_comm _ (2 ^ spec.exponentBits), Nat.div_add_mod, Nat.mul_comm, Nat.div_add_mod]

/-- What fields stand for that are not those of NaN. -/
inductive Decodes (spec : Format) (s : Sign) : Nat → Nat → UnpackedFloat → Prop
  | infinity : Decodes spec s (2 ^ spec.exponentBits - 1) 0 (.infinity s)
  | zero : Decodes spec s 0 0 (.zero s)
  | subnormal {m : Nat} {hm : 0 < m} : m < 2 ^ spec.mantissaBitsWithoutImplicit →
      Decodes spec s 0 m (.finite s m spec.minExponent hm)
  | normal {e m : Nat} {hm : 0 < 2 ^ spec.mantissaBitsWithoutImplicit + m} : 0 < e →
      e < 2 ^ spec.exponentBits - 1 → m < 2 ^ spec.mantissaBitsWithoutImplicit →
      Decodes spec s e m (.finite s (2 ^ spec.mantissaBitsWithoutImplicit + m)
        (e - (spec.exponentBias + spec.mantissaBitsWithoutImplicit)) hm)

theorem toNat_neg_one (n : ℕ) : (-1#n).toNat = 2 ^ n - 1 := by
  rw [BitVec.neg_one_eq_allOnes, BitVec.toNat_allOnes]

theorem minExponent_eq (spec : Format) :
    spec.minExponent = 1 - ((spec.exponentBias : Int) + spec.mantissaBitsWithoutImplicit) := by
  have hpos : 1 ≤ 2 ^ (spec.exponentBits - 1) := Nat.one_le_two_pow
  unfold Format.minExponent Format.exponentBias Format.mantissaBits
  push_cast [hpos]
  ring

theorem decodes_unpack (h : unpackExponent b = -1#_ → unpackMantissa b = 0#_) :
    Decodes spec (Sign.ofBitVec (unpackSign b)) (unpackExponent b).toNat (unpackMantissa b).toNat
      (unpack spec b) := by
  have hm := (unpackMantissa b).isLt
  have he := (unpackExponent b).isLt
  unfold unpack
  change Decodes spec _ _ _ (ite _ (ite _ _ _) (ite _ (dite _ _ _) _))
  by_cases hfull : unpackExponent b = -1#_
  · rw [if_pos hfull, if_pos (h hfull), hfull, h hfull, toNat_neg_one]
    exact .infinity
  · have hlt : (unpackExponent b).toNat ≠ 2 ^ spec.exponentBits - 1 := fun heq =>
      hfull (BitVec.eq_of_toNat_eq (heq.trans (toNat_neg_one _).symm))
    rw [if_neg hfull]
    by_cases hempty : unpackExponent b = 0#_
    · rw [if_pos hempty, hempty]
      by_cases hzero : unpackMantissa b = 0#_
      · rw [dif_pos hzero, hzero]
        exact .zero
      · rw [dif_neg hzero]
        have hexponent : ((BitVec.ofNat spec.exponentBits 0).toNat : Int) -
            (spec.exponentBias + spec.mantissaBitsWithoutImplicit) + 1 = spec.minExponent := by
          rw [minExponent_eq, BitVec.toNat_zero]
          omega
        rw [hexponent]
        exact .subnormal hm
    · rw [if_neg hempty]
      have hpos : (unpackExponent b).toNat ≠ 0 := fun heq => hempty (BitVec.eq_of_toNat_eq heq)
      have hsig : (1#1 ++ unpackMantissa b).toNat =
          2 ^ spec.mantissaBitsWithoutImplicit + (unpackMantissa b).toNat := by
        rw [BitVec.toNat_append, ← Nat.shiftLeft_add_eq_or_of_lt hm, Nat.shiftLeft_eq]
        simp
      generalize_proofs hpositive
      generalize (1#1 ++ unpackMantissa b).toNat = significand at hpositive hsig
      subst hsig
      exact .normal (by omega) (by omega) hm

theorem pack_of_decodes (hspec : 2 ≤ spec.exponentBits) {e : BitVec spec.exponentBits}
    {m : BitVec spec.mantissaBitsWithoutImplicit} {u : UnpackedFloat}
    (h : Decodes spec s e.toNat m.toNat u) : pack spec u = packComponents spec s e m := by
  generalize he : e.toNat = e', hm : m.toNat = m' at h
  cases h with
  | infinity =>
    obtain rfl : e = -1#_ := BitVec.eq_of_toNat_eq (he.trans (toNat_neg_one _).symm)
    obtain rfl : m = 0#_ := BitVec.eq_of_toNat_eq hm
    rfl
  | zero =>
    obtain rfl : e = 0#_ := BitVec.eq_of_toNat_eq he
    obtain rfl : m = 0#_ := BitVec.eq_of_toNat_eq hm
    rfl
  | @subnormal _ hpos hlt =>
    obtain rfl : e = 0#_ := BitVec.eq_of_toNat_eq he
    obtain rfl := hm
    -- The implicit bit is not set, so the significand is the mantissa field.
    have hlog : m.toNat.log2 < spec.mantissaBitsWithoutImplicit := (Nat.log2_lt hpos.ne').2 hlt
    have hshort : ¬ m.toNat.log2 + 1 = spec.mantissaBits := by
      unfold Format.mantissaBits
      omega
    have hbiased : (spec.minExponent + spec.exponentBias +
        spec.mantissaBitsWithoutImplicit).toNat = 1 := by
      rw [minExponent_eq]
      omega
    have hwide : 2 ^ 2 ≤ 2 ^ spec.exponentBits := Nat.pow_le_pow_right (by decide) hspec
    unfold pack
    rw [hbiased, if_neg (by omega), if_neg hshort, BitVec.ofNat_toNat, BitVec.setWidth_eq]
  | @normal _ _ hsig hpos hfull hlt =>
    obtain rfl := hm
    obtain rfl := he
    have hlog : (2 ^ spec.mantissaBitsWithoutImplicit + m.toNat).log2 =
        spec.mantissaBitsWithoutImplicit :=
      (Nat.log2_eq_iff hsig.ne').2 ⟨by omega, by rw [Nat.pow_succ]; omega⟩
    have hbiased : ((e.toNat : Int) - (spec.exponentBias + spec.mantissaBitsWithoutImplicit) +
        spec.exponentBias + spec.mantissaBitsWithoutImplicit).toNat = e.toNat := by
      omega
    have himplicit : spec.mantissaBitsWithoutImplicit + 1 = spec.mantissaBits := Nat.add_comm _ _
    unfold pack
    rw [hbiased, if_neg (by omega), if_pos (by rw [hlog, himplicit])]
    congr 1
    · rw [BitVec.ofNat_toNat, BitVec.setWidth_eq]
    · refine BitVec.eq_of_toNat_eq ?_
      rw [BitVec.toNat_ofNat, Nat.add_mod_left, Nat.mod_eq_of_lt hlt]

/-- The number that a pattern stands for is packed into the pattern again, unless it is NaN. -/
theorem pack_unpack (hspec : 2 ≤ spec.exponentBits)
    (h : unpackExponent b = -1#_ → unpackMantissa b = 0#_) : pack spec (unpack spec b) = b :=
  (pack_of_decodes hspec (decodes_unpack h)).trans (packComponents_unpack b)

end Pattern

namespace Binary32

open Float.Model (Format UnpackedFloat)
open Float.Model.UnpackedFloat
open Pattern

/-- The place of a number in the order of all numbers. -/
def rank (x : Binary32) : Int :=
  if x.bits.toNat < 2 ^ 31 then (x.bits.toNat % 2 ^ 31 : Nat) else -(x.bits.toNat % 2 ^ 31 : Nat)

variable {x y : Binary32}

/-! ### NaN -/

theorem isNaN_iff : x.isNaN = true ↔ 0x7f800000 < x.bits.toNat % 2 ^ 31 := by
  have hmask : (x.bits &&& 0x7fffffff).toNat = x.bits.toNat % 2 ^ 31 :=
    Nat.and_two_pow_sub_one_eq_mod x.bits.toNat 31
  rw [isNaN, decide_eq_true_iff, gt_iff_lt, UInt32.lt_iff_toNat_lt, hmask]
  rfl

theorem isNaN_eq_false_iff : x.isNaN = false ↔ x.bits.toNat % 2 ^ 31 ≤ 0x7f800000 := by
  rw [← Bool.not_eq_true, isNaN_iff, Nat.not_lt]

/-- Only NaN has a full exponent and a mantissa. -/
theorem mantissa_of_isNaN_eq_false (h : x.isNaN = false) :
    @unpackExponent Format.binary32 x.bits.toBitVec = -1#_ →
      @unpackMantissa Format.binary32 x.bits.toBitVec = 0#_ := by
  intro he
  have he : x.bits.toNat / 2 ^ 23 % 2 ^ 8 = 255 :=
    (@toNat_unpackExponent Format.binary32 x.bits.toBitVec).symm.trans (congrArg BitVec.toNat he)
  rw [isNaN_eq_false_iff] at h
  refine BitVec.eq_of_toNat_eq ((@toNat_unpackMantissa Format.binary32 x.bits.toBitVec).trans ?_)
  change x.bits.toNat % 2 ^ 23 = 0
  omega

theorem unpack_number_of_isNaN (h : x.isNaN = true) : x.number.toModel.unpack = .notANumber := by
  rw [isNaN_iff] at h
  have hlt := x.bits.toNat_lt
  have he : @unpackExponent Format.binary32 x.bits.toBitVec = -1#_ := by
    refine BitVec.eq_of_toNat_eq ((@toNat_unpackExponent Format.binary32 x.bits.toBitVec).trans ?_)
    change x.bits.toNat / 2 ^ 23 % 2 ^ 8 = 255
    omega
  have hm : @unpackMantissa Format.binary32 x.bits.toBitVec ≠ 0#_ := by
    intro hm
    have hm : x.bits.toNat % 2 ^ 23 = 0 :=
      (@toNat_unpackMantissa Format.binary32 x.bits.toBitVec).symm.trans (congrArg BitVec.toNat hm)
    omega
  have hunpack : unpack Format.binary32 x.bits.toBitVec = .notANumber := by
    unfold unpack
    exact (if_pos he).trans (if_neg hm)
  exact congrArg (fun u => unpack Format.binary32 (pack Format.binary32 u)) hunpack

/-! ### Ranks -/

/-- The ranks of unpacked numbers. -/
inductive Ranks : UnpackedFloat → Int → Prop
  | infinity (s : Sign) : Ranks (.infinity s) (s.apply 0x7f800000)
  | zero (s : Sign) : Ranks (.zero s) 0
  | finite (s : Sign) {m : Nat} {e : Int} {hm : 0 < m} : -149 ≤ e → e ≤ 104 → m < 2 ^ 24 →
      (-149 < e → 2 ^ 23 ≤ m) → Ranks (.finite s m e hm) (s.apply ((e + 149) * 2 ^ 23 + m))

/-- Exponents decide before significands do, as they do in the patterns. -/
theorem then_compare {e f : Int} {m n : Nat} (he : -149 ≤ e) (hf : -149 ≤ f) (hm : m < 2 ^ 24)
    (hn : n < 2 ^ 24) (hem : -149 < e → 2 ^ 23 ≤ m) (hfn : -149 < f → 2 ^ 23 ≤ n) :
    (compare e f).then (compare m n) =
      compare ((e + 149) * 2 ^ 23 + m) ((f + 149) * 2 ^ 23 + n) := by
  rcases lt_trichotomy e f with hlt | rfl | hgt
  · have hranks : (e + 149) * 2 ^ 23 + m < (f + 149) * 2 ^ 23 + n := by
      have hnormal := hfn (by omega)
      omega
    rw [compare_lt_iff_lt.2 hlt, compare_lt_iff_lt.2 hranks]
    rfl
  · rw [compare_eq_iff_eq.2 rfl, Ordering.eq_then]
    rcases lt_trichotomy m n with hlt | rfl | hgt
    · rw [compare_lt_iff_lt.2 hlt, eq_comm, compare_lt_iff_lt]
      omega
    · rw [compare_eq_iff_eq.2 rfl, compare_eq_iff_eq.2 rfl]
    · rw [compare_gt_iff_gt.2 hgt, eq_comm, compare_gt_iff_gt]
      omega
  · have hranks : (e + 149) * 2 ^ 23 + m > (f + 149) * 2 ^ 23 + n := by
      have hnormal := hem (by omega)
      omega
    rw [compare_gt_iff_gt.2 hgt, compare_gt_iff_gt.2 hranks]
    rfl

theorem swap_compare (k l : Int) : (compare k l).swap = compare (-k) (-l) := by
  rcases lt_trichotomy k l with hlt | rfl | hgt
  · rw [compare_lt_iff_lt.2 hlt, compare_gt_iff_gt.2 (Int.neg_lt_neg hlt)]
    rfl
  · rw [compare_eq_iff_eq.2 rfl, compare_eq_iff_eq.2 rfl]
    rfl
  · rw [compare_gt_iff_gt.2 hgt, compare_lt_iff_lt.2 (Int.neg_lt_neg hgt)]
    rfl

theorem compare_of_ranks {u v : UnpackedFloat} {k l : Int} (hu : Ranks u k) (hv : Ranks v l) :
    u.compare v = some (compare k l) := by
  have hlt : ∀ {k l : Int}, k < l → some Ordering.lt = some (compare k l) :=
    fun h => congrArg some (compare_lt_iff_lt.2 h).symm
  have hgt : ∀ {k l : Int}, k > l → some Ordering.gt = some (compare k l) :=
    fun h => congrArg some (compare_gt_iff_gt.2 h).symm
  cases hu with
  | infinity s =>
    cases hv with
    | infinity t => cases s <;> cases t <;> rfl
    | zero t => cases s <;> rfl
    | finite t he he' hm hn =>
      cases s
      · cases t
        · exact hlt (by simp only [Sign.apply]; omega)
        · exact hlt (by simp only [Sign.apply]; omega)
      · cases t
        · exact hgt (by simp only [Sign.apply]; omega)
        · exact hgt (by simp only [Sign.apply]; omega)
  | zero s =>
    cases hv with
    | infinity t => cases t <;> rfl
    | zero t => rfl
    | @finite t m e hpos he he' hm hn =>
      cases t
      · exact hgt (by simp only [Sign.apply]; omega)
      · exact hlt (by simp only [Sign.apply]; omega)
  | @finite s m e hpos he he' hm hn =>
    cases hv with
    | infinity t =>
      cases t
      · cases s
        · exact hgt (by simp only [Sign.apply]; omega)
        · exact hgt (by simp only [Sign.apply]; omega)
      · cases s
        · exact hlt (by simp only [Sign.apply]; omega)
        · exact hlt (by simp only [Sign.apply]; omega)
    | zero t =>
      cases s
      · exact hlt (by simp only [Sign.apply]; omega)
      · exact hgt (by simp only [Sign.apply]; omega)
    | @finite t n f hpos' hf hf' hm' hn' =>
      have hthen := then_compare he hf hm hm' hn hn'
      cases s
      · cases t
        · exact congrArg some ((congrArg Ordering.swap hthen).trans (swap_compare _ _))
        · exact hlt (by simp only [Sign.apply]; omega)
      · cases t
        · exact hgt (by simp only [Sign.apply]; omega)
        · exact congrArg some hthen

theorem ranks_of_decodes {s : Sign} {e m : Nat} {u : UnpackedFloat}
    (h : Decodes Format.binary32 s e m u) : Ranks u (s.apply (e * 2 ^ 23 + m)) := by
  cases h with
  | infinity => exact .infinity s
  | zero => cases s <;> exact .zero _
  | @subnormal _ _ hlt =>
    change m < 2 ^ 23 at hlt
    have hmin : Format.binary32.minExponent = -149 := by decide
    have hrank : (((0 : Nat) : Int) * 2 ^ 23 + m) = (-149 + 149) * 2 ^ 23 + m := by omega
    rw [hrank, hmin]
    exact .finite s le_rfl (by omega) (by omega) (by omega)
  | @normal _ m hm hpos hfull hlt =>
    change e < 255 at hfull
    change m < 2 ^ 23 at hlt
    change Ranks (.finite s (2 ^ 23 + m) (e - 150) hm) _
    have hrank : ((e : Int) * 2 ^ 23 + m) = (e - 150 + 149) * 2 ^ 23 + (2 ^ 23 + m : Nat) := by
      omega
    rw [hrank]
    exact .finite s (by omega) (by omega) (by omega) (by omega)

theorem rank_eq (x : Binary32) :
    x.rank = (Sign.ofBitVec (@unpackSign Format.binary32 x.bits.toBitVec)).apply
      ((x.bits.toNat / 2 ^ 23 % 2 ^ 8 : Nat) * 2 ^ 23 + (x.bits.toNat % 2 ^ 23 : Nat)) := by
  have hlt := x.bits.toNat_lt
  have hsign : (@unpackSign Format.binary32 x.bits.toBitVec).toNat =
      x.bits.toNat / 2 ^ 31 := @toNat_unpackSign Format.binary32 x.bits.toBitVec
  rw [rank]
  by_cases hpos : x.bits.toNat < 2 ^ 31
  · have hzero : @unpackSign Format.binary32 x.bits.toBitVec = 0#1 :=
      BitVec.eq_of_toNat_eq (hsign.trans (Nat.div_eq_of_lt hpos))
    rw [if_pos hpos, hzero]
    change _ = ((_ : Int) * 2 ^ 23 + _)
    omega
  · have hone : @unpackSign Format.binary32 x.bits.toBitVec = 1#1 := by
      refine BitVec.eq_of_toNat_eq (hsign.trans ?_)
      change _ = 1
      omega
    rw [if_neg hpos, hone]
    change _ = -((_ : Int) * 2 ^ 23 + _)
    omega

theorem ranks_number (h : x.isNaN = false) : Ranks x.number.toModel.unpack x.rank := by
  have hfields := mantissa_of_isNaN_eq_false h
  have hranks := ranks_of_decodes (decodes_unpack hfields)
  rw [toNat_unpackExponent, toNat_unpackMantissa] at hranks
  have hself := @pack_unpack Format.binary32 _ (by decide) hfields
  have hpack : x.number.toModel.unpack = unpack Format.binary32 x.bits.toBitVec :=
    congrArg (unpack Format.binary32) hself
  rw [hpack, rank_eq]
  exact hranks

/-! ### Comparisons -/

/-- **Numbers compare as their patterns do.** -/
theorem compare_number (hx : x.isNaN = false) (hy : y.isNaN = false) :
    x.number.toModel.compare y.number.toModel = some (compare x.rank y.rank) :=
  compare_of_ranks (ranks_number hx) (ranks_number hy)

theorem lt_iff (hx : x.isNaN = false) (hy : y.isNaN = false) :
    x.lt y = true ↔ x.rank < y.rank := by
  have hlt : x.number < y.number ↔
      (x.number.toModel.compare y.number.toModel == some .lt) = true := decide_eq_true_iff
  rw [Binary32.lt, decide_eq_true_iff, hlt, compare_number hx hy, beq_iff_eq, Option.some_inj,
    compare_lt_iff_lt]

theorem number_le_iff (hx : x.isNaN = false) (hy : y.isNaN = false) :
    x.number ≤ y.number ↔ x.rank ≤ y.rank := by
  have hle : x.number ≤ y.number ↔
      (x.number.toModel.compare y.number.toModel).any (·.isLE) = true := decide_eq_true_iff
  rw [hle, compare_number hx hy, Option.any_some, Ordering.isLE_iff_ne_gt]
  exact (not_congr compare_gt_iff_gt).trans not_lt

/-- **A pattern is the same as itself exactly if it is no NaN.** -/
theorem same_self (x : Binary32) : x.same x = !x.isNaN := by
  have hsame : x.same x = (x.number.toModel.compare x.number.toModel == some .eq) := rfl
  rw [hsame]
  cases h : x.isNaN with
  | false =>
    rw [compare_number h h, compare_eq_iff_eq.2 rfl]
    rfl
  | true =>
    change (x.number.toModel.unpack.compare x.number.toModel.unpack == some .eq) = false
    rw [unpack_number_of_isNaN h]
    rfl

/-! ### The lower end -/

theorem rank_negInfinity_le (h : x.isNaN = false) : negInfinity.rank ≤ x.rank := by
  rw [isNaN_eq_false_iff] at h
  have hrank : negInfinity.rank = -0x7f800000 := by decide
  rw [hrank, rank]
  split
  · omega
  · omega

/-- No other number stands where negative infinity does. -/
theorem eq_negInfinity_of_rank (h : x.rank = negInfinity.rank) : x = negInfinity := by
  have hrank : negInfinity.rank = -0x7f800000 := by decide
  have hlt := x.bits.toNat_lt
  rw [hrank, rank] at h
  have hbits : x.bits.toNat = 0xff800000 := by
    split at h
    · omega
    · omega
  exact congrArg mk (UInt32.toNat_inj.1 hbits)

end Binary32

end NetPack
