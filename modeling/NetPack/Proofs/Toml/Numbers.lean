import NetPack.Proofs.Json.Literals
import NetPack.Proofs.Rounding
import NetPack.Proofs.Toml.Strings
import NetPack.Toml.Number
import NetPack.Toml.Writer

/-!
# Numbers of TOML texts

Written numbers look like no date or time, so a natural number is read back as that number
(`number?_repr`). A double is written as the shortest decimal that reads back as it, in positional
layout and with its sign. The decimal lies in the interval of the reals that round to the double, so
that no power of ten in it is out of range and its text is read back as the double
(`number?_double`); infinities and the two zeros have texts of their own.
-/

namespace NetPack

namespace Toml

open Json.Token (IsDigits IsWhole NoDigit)

variable {ds w cs rest : List Char} {c : Char}

/-! ### Digits -/

/-- The text does not go on with a digit or an underscore. -/
def Stops (rest : List Char) : Prop := ∀ c ∈ rest.head?, c.isDigit = false ∧ c ≠ '_'

theorem Ends.stops (h : Ends rest) : Stops rest := by
  obtain ⟨c, tail, rfl, hc⟩ := h
  intro d hd
  cases hd
  simp only [List.mem_cons, List.not_mem_nil, or_false] at hc
  rcases hc with rfl | rfl | rfl <;> decide

theorem moreDigits_append (hds : ∀ d ∈ ds, d.isDigit) (hrest : Stops rest) :
    moreDigits Char.isDigit (ds ++ rest) = some (ds, rest) := by
  induction ds with
  | nil =>
    cases rest with
    | nil => rfl
    | cons c rest =>
      obtain ⟨hdigit, hbar⟩ := hrest c rfl
      rw [List.nil_append, moreDigits.eq_3]
      · simp [hdigit]
      all_goals simp [hbar]
  | cons d ds ih =>
    obtain ⟨hd, hds⟩ := List.forall_mem_cons.1 hds
    have hbar : d ≠ '_' := by
      rintro rfl
      exact absurd hd (by decide)
    rw [List.cons_append, moreDigits.eq_3, if_pos hd, ih hds]
    · rfl
    all_goals simp [hbar]

theorem digits?_append (hds : IsDigits ds) (hrest : Stops rest) :
    digits? Char.isDigit (ds ++ rest) = some (ds, rest) := by
  obtain ⟨hne, hds⟩ := hds
  obtain ⟨d, ds, rfl⟩ := List.exists_cons_of_ne_nil hne
  obtain ⟨hd, hds⟩ := List.forall_mem_cons.1 hds
  rw [List.cons_append, digits?, if_pos hd, moreDigits_append hds hrest]
  rfl

theorem wholeDigits?_append (hw : IsWhole w) (hrest : Stops rest) :
    wholeDigits? (w ++ rest) = some (w, rest) := by
  obtain ⟨hdigits, hzero⟩ := hw
  unfold wholeDigits?
  split
  · rename_i heq
    have hw : w = ['0'] := by
      obtain ⟨c, w, rfl⟩ := List.exists_cons_of_ne_nil hdigits.1
      cases heq
      exact hzero rfl
    subst hw
    cases heq
    rfl
  · exact digits?_append hdigits hrest

theorem sign_append (hds : IsDigits ds) (rest : List Char) :
    sign (ds ++ rest) = (false, ds ++ rest) := by
  obtain ⟨hne, hds⟩ := hds
  obtain ⟨d, ds, rfl⟩ := List.exists_cons_of_ne_nil hne
  have hd := hds d List.mem_cons_self
  unfold sign
  split
  · exact absurd ((List.cons.inj ‹_›).1 ▸ hd) (by decide)
  · exact absurd ((List.cons.inj ‹_›).1 ▸ hd) (by decide)
  · rfl

theorem hexDigit?_of_isDigit {d : Char} (h : d.isDigit) :
    hexDigit? d = some (d.toNat - '0'.toNat) := if_pos h

theorem foldl_value_ten (h : ∀ d ∈ ds, d.isDigit) (n : Nat) :
    ds.foldl (fun n d => 10 * n + (hexDigit? d).getD 0) n =
      ds.foldl (fun acc d => acc * 10 + (d.toNat - '0'.toNat)) n := by
  induction ds generalizing n with
  | nil => rfl
  | cons d ds ih =>
    obtain ⟨hd, hds⟩ := List.forall_mem_cons.1 h
    rw [List.foldl_cons, List.foldl_cons, ih hds, hexDigit?_of_isDigit hd, Nat.mul_comm]
    rfl

theorem valueIn_ten (h : ∀ d ∈ ds, d.isDigit) : valueIn 10 ds = Json.digitsValue ds :=
  foldl_value_ten h 0

/-! ### Dates and times -/

/-- A number of so many digits is followed by a further digit or by what is behind the digits. -/
theorem field?_append {count least greatest n : Nat} {tail : List Char} (hds : ∀ d ∈ ds, d.isDigit)
    (hrest : NoDigit rest) (h : field? count least greatest (ds ++ rest) = some (n, tail)) :
    ∀ c ∈ tail.head?, c.isDigit ∨ c ∈ rest.head? := by
  unfold field? at h
  dsimp only at h
  split at h
  · rename_i hfield
    obtain ⟨-, rfl⟩ := Prod.mk.inj (Option.some.inj h)
    simp only [Bool.and_eq_true, decide_eq_true_eq, List.all_eq_true] at hfield
    obtain ⟨⟨⟨hlength, hall⟩, -⟩, -⟩ := hfield
    have hcount : count ≤ ds.length := by
      by_contra hmore
      cases rest with
      | nil =>
        rw [List.append_nil, List.length_take] at hlength
        omega
      | cons c rest =>
        have hmem : c ∈ (ds ++ c :: rest).take count := by
          rw [List.take_append]
          obtain ⟨k, hk⟩ : ∃ k, count - ds.length = k + 1 := ⟨count - ds.length - 1, by omega⟩
          simp [hk]
        have hdigit := hall c hmem
        rw [hrest c rfl] at hdigit
        cases hdigit
    intro c hc
    rw [List.drop_append_of_le_length hcount] at hc
    cases hdrop : ds.drop count with
    | nil =>
      rw [hdrop] at hc
      exact .inr hc
    | cons d tail =>
      rw [hdrop] at hc
      cases hc
      exact .inl (hds c (List.mem_of_mem_drop (hdrop ▸ List.mem_cons_self)))
  · cases h

theorem field?_eq_none {count least greatest : Nat} (hcs : NoDigit cs) :
    field? (count + 1) least greatest cs = none := by
  unfold field?
  refine if_neg fun h => ?_
  simp only [Bool.and_eq_true, decide_eq_true_eq, List.all_eq_true] at h
  obtain ⟨⟨⟨hlength, hall⟩, -⟩, -⟩ := h
  cases cs with
  | nil => simp at hlength
  | cons c cs =>
    have hdigit := hall c (by simp)
    rw [hcs c rfl] at hdigit
    cases hdigit

theorem drop?_eq_none (h : ∀ d ∈ cs.head?, d ≠ c) : drop? c cs = none := by
  cases cs with
  | nil => rfl
  | cons d cs => exact if_neg fun hc => h d rfl hc.symm

/-- The text does not go on with a mark of dates and times. -/
def NoMark (rest : List Char) : Prop := NoDigit rest ∧ ∀ c ∈ rest.head?, c ≠ '-' ∧ c ≠ ':'

theorem date?_append (hds : ∀ d ∈ ds, d.isDigit) (hrest : NoMark rest) :
    date? (ds ++ rest) = none := by
  unfold date?
  cases hfield : field? 4 0 9999 (ds ++ rest) with
  | none => rfl
  | some found =>
    have hdrop : drop? '-' found.2 = none := by
      refine drop?_eq_none fun c hc => ?_
      rcases field?_append hds hrest.1 hfield c hc with hdigit | hc
      · rintro rfl
        exact absurd hdigit (by decide)
      · exact (hrest.2 c hc).1
    simp [hdrop]

theorem time?_append (hds : ∀ d ∈ ds, d.isDigit) (hrest : NoMark rest) :
    time? (ds ++ rest) = none := by
  unfold time?
  cases hfield : field? 2 0 23 (ds ++ rest) with
  | none => rfl
  | some found =>
    have hdrop : drop? ':' found.2 = none := by
      refine drop?_eq_none fun c hc => ?_
      rcases field?_append hds hrest.1 hfield c hc with hdigit | hc
      · rintro rfl
        exact absurd hdigit (by decide)
      · exact (hrest.2 c hc).2
    simp [hdrop]

theorem moment?_append (hds : ∀ d ∈ ds, d.isDigit) (hrest : NoMark rest) :
    moment? (ds ++ rest) = none := by
  simp [moment?, date?_append hds hrest, time?_append hds hrest]

theorem moment?_of_noDigit (hcs : NoDigit cs) : moment? cs = none := by
  simp [moment?, date?, time?, field?_eq_none hcs]

/-! ### Integers -/

theorem Ends.noMark (h : Ends rest) : NoMark rest := by
  obtain ⟨c, tail, rfl, hc⟩ := h
  simp only [List.mem_cons, List.not_mem_nil, or_false] at hc
  refine ⟨fun d hd => ?_, fun d hd => ?_⟩ <;> cases hd <;> rcases hc with rfl | rfl | rfl <;> decide

theorem decimal?_eq_none (hw : IsWhole w) (hrest : Ends rest) : decimal? (w ++ rest) = none := by
  have hread := wholeDigits?_append hw hrest.stops
  obtain ⟨c, tail, rfl, hc⟩ := hrest
  simp only [List.mem_cons, List.not_mem_nil, or_false] at hc
  rcases hc with rfl | rfl | rfl <;>
    simp [decimal?, sign_append hw.1, hread, fraction?, exponent?]

theorem special?_append (hds : IsDigits ds) (rest : List Char) : special? (ds ++ rest) = none := by
  have hsign := sign_append hds rest
  obtain ⟨d, ds, rfl⟩ := List.exists_cons_of_ne_nil hds.1
  have hd := hds.2 d List.mem_cons_self
  unfold special?
  rw [hsign]
  dsimp only [List.cons_append]
  split
  · exact absurd ((List.cons.inj ‹_›).1 ▸ hd) (by decide)
  · exact absurd ((List.cons.inj ‹_›).1 ▸ hd) (by decide)
  · rfl

theorem bounded?_natCast {n : Nat} (h : n ≤ maxInteger) :
    bounded? (Int.ofNat n) = some (integer (Int.ofNat n)) := by
  have hmin : minInteger ≤ Int.ofNat n :=
    Int.le_trans (by decide) (Int.natCast_nonneg n)
  have hmax : Int.ofNat n ≤ Int.ofNat maxInteger := Int.ofNat_le.2 h
  unfold bounded?
  rw [if_pos (by simp only [hmin, hmax, decide_true, Bool.and_self])]

theorem integer?_append (hw : IsWhole w) (hrest : Ends rest) (hvalue : valueIn 10 w ≤ maxInteger) :
    integer? (w ++ rest) = some (integer (Int.ofNat (valueIn 10 w)), rest) := by
  have hread := wholeDigits?_append hw hrest.stops
  have hsign := sign_append hw.1 rest
  -- Behind a zero there is no letter of a base.
  have hbase : ∀ letter ∈ ['x', 'o', 'b'], ∀ tail, w ++ rest ≠ '0' :: letter :: tail := by
    intro letter hletter tail heq
    have hw' : w = ['0'] := by
      obtain ⟨c, w, rfl⟩ := List.exists_cons_of_ne_nil hw.1.1
      exact hw.2 (by rw [(List.cons.inj heq).1]; rfl)
    rw [hw', List.singleton_append] at heq
    obtain ⟨c, tail', rfl, hc⟩ := hrest
    obtain rfl := (List.cons.inj (List.cons.inj heq).2).1
    simp only [List.mem_cons, List.not_mem_nil, or_false] at hletter hc
    rcases hletter with rfl | rfl | rfl <;> simp at hc
  unfold integer?
  split
  · exact absurd ‹_› (hbase 'x' (by decide) _)
  · exact absurd ‹_› (hbase 'o' (by decide) _)
  · exact absurd ‹_› (hbase 'b' (by decide) _)
  · simp only [hsign, hread, Option.bind_eq_bind, Option.bind_some, Bool.false_eq_true, ↓reduceIte,
      bounded?_natCast hvalue, Option.pure_def]

/-- **A natural number is read back from its digits.** -/
theorem number?_repr {n : Nat} (hn : n ≤ maxInteger) (hrest : Ends rest) :
    number? (n.repr.toList ++ rest) = some (integer (Int.ofNat n), rest) := by
  have hw := Json.Token.isWhole_toDigits n
  have hvalue : valueIn 10 (Nat.toDigits 10 n) = n := by
    rw [valueIn_ten hw.1.2, Json.digitsValue_toDigits]
  have hread := integer?_append hw hrest (hvalue.symm ▸ hn)
  rw [hvalue] at hread
  rw [Nat.toList_repr, number?, moment?_append hw.1.2 hrest.noMark, decimal?_eq_none hw hrest,
    special?_append hw.1, hread]
  rfl

/-! ### Numbers with a point -/

section

open Float.Model (Format totalExponent)
open Float.Model.UnpackedFloat (Sign)
open Rounding

variable {f : List Char} {v : Float} {s : Sign}

/-- The sign that a number is written with. -/
def signText : Sign → List Char
  | .positive => []
  | .negative => ['-']

/-- The sizes of the numbers with so many digits. -/
theorem length_repr_bounds {V : ℕ} (hV : 0 < V) :
    10 ^ (V.repr.length - 1) ≤ V ∧ V < 10 ^ V.repr.length := by
  refine ⟨?_, (Nat.length_repr_le_iff Nat.length_repr_pos).1 le_rfl⟩
  by_cases hone : V.repr.length = 1
  · rwa [hone]
  · have hpos : 0 < V.repr.length := Nat.length_repr_pos
    by_contra hlt
    have := (Nat.length_repr_le_iff (by omega)).2 (not_le.1 hlt)
    omega

/-- A digit takes more than one bit. -/
theorem length_repr_le_log2 {V : ℕ} (hV : 0 < V) : V.repr.length ≤ V.log2 + 1 := by
  have hpow : 2 ^ (V.repr.length - 1) < 2 ^ (V.log2 + 1) :=
    (Nat.pow_le_pow_left (by decide : 2 ≤ 10) _).trans_lt
      ((length_repr_bounds hV).1.trans_lt Nat.lt_log2_self)
  have hlt := (Nat.pow_lt_pow_iff_right (by decide)).1 hpow
  omega

/-- The digits of a decimal that reads back as a double lie in the decimal range of the doubles. -/
theorem places_of_roundsTo {V k n : ℕ} {e : ℤ} (h : RoundsTo Format.binary64 n e (V / 10 ^ k))
    (hmax : e ≤ 971) (hV : 0 < V) :
    ((V.repr.length - 1 : ℕ) : ℤ) - k < 309 ∧ -324 < (V.repr.length : ℤ) - k := by
  obtain ⟨hlow, hhigh⟩ := h.size_bounds hmax
  obtain ⟨hfirst, hnext⟩ := length_repr_bounds hV
  have hgreatest : (2 : ℚ) ^ (1024 : ℤ) < 10 ^ (309 : ℤ) := by
    exact_mod_cast (by decide +kernel : 2 ^ 1024 < 10 ^ 309)
  have hleast : (10 : ℚ) ^ (-324 : ℤ) < 2 ^ (-1075 : ℤ) := by
    rw [zpow_neg, zpow_neg, inv_lt_inv₀ (by positivity) (by positivity)]
    exact_mod_cast (by decide +kernel : 2 ^ 1075 < 10 ^ 324)
  have hten : (0 : ℚ) < 10 ^ k := by positivity
  have hscale (a : ℕ) : (10 : ℚ) ^ ((a : ℤ) - k) = 10 ^ a / 10 ^ k := by
    rw [zpow_sub₀ (by norm_num), zpow_natCast, zpow_natCast]
  constructor
  · rw [← zpow_lt_zpow_iff_right₀ (by norm_num : (1 : ℚ) < 10), hscale]
    calc (10 : ℚ) ^ (V.repr.length - 1) / 10 ^ k ≤ V / 10 ^ k :=
          div_le_div_of_nonneg_right (by exact_mod_cast hfirst) hten.le
      _ < 2 ^ (1024 : ℤ) := hhigh
      _ < 10 ^ (309 : ℤ) := hgreatest
  · rw [← zpow_lt_zpow_iff_right₀ (by norm_num : (1 : ℚ) < 10), hscale]
    calc (10 : ℚ) ^ (-324 : ℤ) < 2 ^ (-1075 : ℤ) := hleast
      _ ≤ V / 10 ^ k := hlow
      _ < 10 ^ V.repr.length / 10 ^ k := div_lt_div_of_pos_right (by exact_mod_cast hnext) hten

/-- A decimal that reads back as a double is scaled to it: none of its powers is out of range. -/
theorem scaled_eq {V k n : ℕ} {e : ℤ} (h : RoundsTo Format.binary64 n e (V / 10 ^ k))
    (hmax : e ≤ 971) (hV : 0 < V) (hk : 0 < k) :
    scaled V (-(k : ℤ)) = double .positive n e h.pos := by
  obtain ⟨hupper, hlower⟩ := places_of_roundsTo h hmax hV
  have hbits := length_repr_le_log2 hV
  have hread := ofScientific_eq h hV hk (by omega)
  unfold scaled
  dsimp only
  rw [if_neg, if_neg, ← hread]
  · have hneg : (-(k : ℤ) < 0) := by omega
    rw [decide_eq_true hneg, Int.natAbs_neg, Int.natAbs_natCast]
  · simp only [Int.ofNat_eq_natCast]
    omega
  · simp only [Bool.or_eq_true, decide_eq_true_eq, Int.ofNat_eq_natCast]
    omega

theorem sign_signText (s : Sign) (hw : IsDigits w) (rest : List Char) :
    sign (signText s ++ (w ++ rest)) = (s == .negative, w ++ rest) := by
  cases s with
  | positive => exact sign_append hw rest
  | negative => rfl

theorem stops_cons (h : c.isDigit = false ∧ c ≠ '_') : Stops (c :: rest) := by
  intro d hd
  cases hd
  exact h

theorem exponent?_eq_none (hrest : Ends rest) : exponent? rest = none := by
  obtain ⟨c, tail, rfl, hc⟩ := hrest
  simp only [List.mem_cons, List.not_mem_nil, or_false] at hc
  rcases hc with rfl | rfl | rfl <;> simp [exponent?]

/-- A number with digits on both sides of the point is read to the double next to it. -/
theorem number?_point (s : Sign) (hw : IsWhole w) (hf : IsDigits f) (hrest : Ends rest)
    (hfinite : (scaled (valueIn 10 (w ++ f)) (-(f.length : ℤ))).isInf = false) :
    number? (signText s ++ (w ++ '.' :: f) ++ rest) =
      some (float (if s == .negative then -scaled (valueIn 10 (w ++ f)) (-(f.length : ℤ))
        else scaled (valueIn 10 (w ++ f)) (-(f.length : ℤ))), rest) := by
  have hassoc : signText s ++ (w ++ '.' :: f) ++ rest =
      signText s ++ (w ++ ('.' :: (f ++ rest))) := by simp
  have hmoment : moment? (signText s ++ (w ++ ('.' :: (f ++ rest)))) = none := by
    cases s with
    | positive =>
      have hpoint : NoMark ('.' :: (f ++ rest)) := ⟨Json.Token.noDigit_cons rfl, by simp⟩
      change moment? (w ++ '.' :: (f ++ rest)) = none
      exact moment?_append hw.1.2 hpoint
    | negative => exact moment?_of_noDigit (Json.Token.noDigit_cons rfl)
  have hstops : Stops ('.' :: (f ++ rest)) := stops_cons (by decide)
  have hwhole := wholeDigits?_append hw hstops
  have hfraction : fraction? ('.' :: (f ++ rest)) = some (f, rest) := digits?_append hf hrest.stops
  rw [hassoc, number?, hmoment]
  simp only [decimal?, sign_signText s hw.1, hwhole, hfraction, exponent?_eq_none hrest,
    Option.bind_eq_bind, Option.bind_some, Option.map_some, Option.getD_some]
  simp [hfinite]

/-! ### Doubles -/

/-- The texts of doubles that are no NaN. -/
inductive Written : Float → List Char → Prop
  | infinity (s : Sign) : Written (.ofModel (.pack (.infinity s))) (signText s ++ "inf".toList)
  | zero (s : Sign) : Written (.ofModel (.pack (.zero s))) (signText s ++ "0.0".toList)
  | finite (s : Sign) {n : ℕ} {e : ℤ} (hpos : 0 < n)
      (hcanonical : Format.binary64.targetExponent (totalExponent n e) = e) (hmax : e ≤ 971) :
      Written (double s n e hpos) (signText s ++ (floatNotation.positive
        (Decimal.Dyadic.shortest ⟨n, e, decide (AtStep Format.binary64 n e)⟩ .up)).toList)

theorem toList_double (h : v.isNaN = false) : (floatNotation.double v).toList =
    signText (signOf v) ++ (if v == 0 then "0.0" else if v.isFinite then
      floatNotation.positive ((Decimal.Dyadic.ofFloat v).shortest .up) else "inf").toList := by
  have hsign : (if v.toBits ≥ 0x8000000000000000 then "-" else "").toList =
      signText (signOf v) := by
    unfold signOf
    by_cases hneg : v.toBits ≥ 0x8000000000000000
    · have hnat : 2 ^ 63 ≤ v.toBits.toNat := UInt64.le_iff_toNat_le.1 hneg
      rw [if_pos hneg, if_neg (Nat.not_lt.2 hnat)]
      rfl
    · have hnat : v.toBits.toNat < 2 ^ 63 := UInt64.lt_iff_toNat_lt.1 (UInt64.not_le.1 hneg)
      rw [if_neg hneg, if_pos hnat]
      rfl
  unfold Decimal.Notation.double
  rw [h, if_neg Bool.false_ne_true, String.toList_append, hsign]
  rfl

theorem written_double (h : v.isNaN = false) : Written v (floatNotation.double v).toList := by
  rw [toList_double h]
  cases kind_of_not_isNaN h with
  | infinity hv =>
    generalize signOf v = s at hv
    have hzero : (v == 0) = false := by subst hv; cases s <;> decide +kernel
    have hfinite : v.isFinite = false := by subst hv; cases s <;> decide +kernel
    rw [hzero, if_neg Bool.false_ne_true, hfinite, if_neg Bool.false_ne_true, hv]
    exact .infinity s
  | zero hv =>
    generalize signOf v = s at hv
    have hzero : (v == 0) = true := by subst hv; cases s <;> decide +kernel
    rw [hzero, if_pos rfl, hv]
    exact .zero s
  | @finite n e hpos hv hcanonical hmax hsize =>
    generalize signOf v = s at hv
    have hunpack : v.toModel.unpack = .finite s n e hpos := by
      rw [hv, unpack_double hpos hcanonical hmax]
    have hzero : (v == 0) = false := by
      change v.toModel.unpack.beq _ = false
      rw [hunpack]
      cases s <;> rfl
    have hfinite : v.isFinite = true := by
      change v.toModel.unpack.isFinite = true
      rw [hunpack]
      rfl
    rw [hzero, if_neg Bool.false_ne_true, hfinite, if_pos rfl, hsize, hv]
    exact .finite s hpos hcanonical hmax

theorem number?_infinity (s : Sign) (rest : List Char) :
    number? (signText s ++ "inf".toList ++ rest) =
      some (float (.ofModel (.pack (.infinity s))), rest) := by
  have hword : "inf".toList = ['i', 'n', 'f'] := rfl
  rw [hword]
  cases s with
  | positive =>
    have hinfinity : (1 / 0 : Float) = .ofModel (.pack (.infinity .positive)) :=
      eq_of_toBits (by decide +kernel)
    have hmoment : moment? ('i' :: 'n' :: 'f' :: rest) = none :=
      moment?_of_noDigit (Json.Token.noDigit_cons rfl)
    change number? ('i' :: 'n' :: 'f' :: rest) = _
    rw [number?, hmoment, ← hinfinity]
    rfl
  | negative =>
    have hinfinity : -(1 / 0 : Float) = .ofModel (.pack (.infinity .negative)) :=
      eq_of_toBits (by decide +kernel)
    have hmoment : moment? ('-' :: 'i' :: 'n' :: 'f' :: rest) = none :=
      moment?_of_noDigit (Json.Token.noDigit_cons rfl)
    change number? ('-' :: 'i' :: 'n' :: 'f' :: rest) = _
    rw [number?, hmoment, ← hinfinity]
    rfl

theorem number?_zero (s : Sign) (hrest : Ends rest) :
    number? (signText s ++ "0.0".toList ++ rest) =
      some (float (.ofModel (.pack (.zero s))), rest) := by
  have hdigit : IsWhole ['0'] := Json.Token.isWhole_digit rfl
  have hscaled : scaled (valueIn 10 (['0'] ++ ['0'])) (-(['0'].length : ℤ)) = 0 := rfl
  have hread := number?_point s hdigit hdigit.1 hrest (by rw [hscaled]; decide +kernel)
  refine hread.trans ?_
  rw [hscaled]
  cases s with
  | positive =>
    have hzero : (0 : Float) = .ofModel (.pack (.zero .positive)) :=
      eq_of_toBits (by decide +kernel)
    rw [if_neg (by decide), hzero]
  | negative =>
    have hzero : -(0 : Float) = .ofModel (.pack (.zero .negative)) :=
      eq_of_toBits (by decide +kernel)
    rw [if_pos (by decide), hzero]

theorem number?_finite {n : ℕ} {e : ℤ} (hpos : 0 < n) (s : Sign)
    (hcanonical : Format.binary64.targetExponent (totalExponent n e) = e) (hmax : e ≤ 971)
    (hrest : Ends rest) : number? (signText s ++ (floatNotation.positive
      (Decimal.Dyadic.shortest ⟨n, e, decide (AtStep Format.binary64 n e)⟩ .up)).toList ++ rest) =
        some (float (double s n e hpos), rest) := by
  have hlog : n.log2 ≤ 52 := by
    change max ((n.log2 : ℤ) + 1 + e - 53) (-1074) = e at hcanonical
    omega
  have hmin : -1074 ≤ e := by
    change max ((n.log2 : ℤ) + 1 + e - 53) (-1074) = e at hcanonical
    omega
  generalize hd : Decimal.Dyadic.shortest ⟨n, e, decide (AtStep Format.binary64 n e)⟩ .up = d
  have hback := Decimal.Dyadic.readsBack_shortest
    (x := ⟨n, e, decide (AtStep Format.binary64 n e)⟩) hlog hmin hmax .up
  rw [hd] at hback
  have hdigits := Decimal.Dyadic.pos_of_readsBack hpos hback
  have hround := roundsTo_of_readsBack hpos hcanonical hback
  have hzero : d.digits = 0 → d.exponent = 0 := fun h => absurd h hdigits.ne'
  obtain ⟨w, f, htext, hw, hf, hplaces, hvalue⟩ := Json.Token.exists_plain hzero
  have hlayout : (floatNotation.positive d).toList = w ++ '.' :: f := htext
  have hV : (Json.digitsValue (w ++ f) : ℚ) / 10 ^ f.length = d.digits * 10 ^ d.exponent := by
    rw [hvalue, div_eq_iff (by positivity)]
    push_cast
    rw [← zpow_natCast, ← zpow_natCast, Int.toNat_of_nonneg hplaces, mul_assoc,
      ← zpow_add₀ (by norm_num)]
  have hread : scaled (valueIn 10 (w ++ f)) (-(f.length : ℤ)) = double .positive n e hpos := by
    rw [valueIn_ten (List.forall_mem_append.2 ⟨hw.1.2, hf.2⟩)]
    refine scaled_eq (hV ▸ hround) hmax ?_ (List.length_pos_iff.2 hf.1)
    rw [hvalue]
    positivity
  have hfinite : (double .positive n e hpos).isInf = false := by
    have hunpack := unpack_double hpos hcanonical hmax .positive
    change (double .positive n e hpos).toModel.unpack.isInf = false
    rw [hunpack]
    rfl
  rw [hlayout, number?_point s hw hf hrest (hread ▸ hfinite), hread]
  cases s with
  | positive => rfl
  | negative =>
    rw [if_pos (by decide), neg_double hpos hcanonical hmax]
    rfl

/-- **A double is read back from its text**, unless it is no number. -/
theorem number?_double (h : v.isNaN = false) (hrest : Ends rest) :
    number? ((floatNotation.double v).toList ++ rest) = some (float v, rest) := by
  have hwritten := written_double h
  generalize (floatNotation.double v).toList = text at hwritten
  cases hwritten with
  | infinity s => exact number?_infinity s rest
  | zero s => exact number?_zero s hrest
  | finite s hpos hcanonical hmax => exact number?_finite hpos s hcanonical hmax hrest

/-- The text of a number goes on with a digit, a minus sign or the word for infinity. -/
def StartsNumber (cs : List Char) : Prop := ∃ c tail, cs = c :: tail ∧ (c.isDigit ∨ c ∈ ['-', 'i'])

theorem StartsNumber.of_sign (s : Sign) {size : List Char} (h : StartsNumber size) :
    StartsNumber (signText s ++ size) := by
  cases s with
  | positive => exact h
  | negative => exact ⟨'-', size, rfl, .inr (by decide)⟩

theorem startsNumber_digits (hds : IsDigits ds) (rest : List Char) : StartsNumber (ds ++ rest) := by
  obtain ⟨d, ds, rfl⟩ := List.exists_cons_of_ne_nil hds.1
  exact ⟨d, ds ++ rest, rfl, .inl (hds.2 d List.mem_cons_self)⟩

theorem startsNumber_double (h : v.isNaN = false) :
    StartsNumber (floatNotation.double v).toList := by
  have hwritten := written_double h
  generalize (floatNotation.double v).toList = text at hwritten
  cases hwritten with
  | infinity s => exact .of_sign s ⟨'i', ['n', 'f'], rfl, .inr (by decide)⟩
  | zero s => exact .of_sign s ⟨'0', ['.', '0'], rfl, .inl rfl⟩
  | @finite s n e hpos =>
    obtain ⟨w, f, htext, hw, -⟩ := Json.Token.exists_plain (Decimal.Dyadic.exponent_shortest
      (x := ⟨n, e, decide (AtStep Format.binary64 n e)⟩) hpos .up)
    have hlayout : (floatNotation.positive (Decimal.Dyadic.shortest
      ⟨n, e, decide (AtStep Format.binary64 n e)⟩ .up)).toList = w ++ '.' :: f := htext
    rw [hlayout]
    exact .of_sign s (startsNumber_digits hw.1 _)

end

end Toml

end NetPack
