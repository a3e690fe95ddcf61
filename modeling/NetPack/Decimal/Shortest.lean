import NetPack.Binary32

/-!
# Shortest decimals

The shortest decimal of a binary number is the one of fewest digits that reads back as that number
under rounding to nearest. The reals that read back as a number form an interval around it, closed
exactly when the significand is even. `Dyadic.shortest` looks at coarser and coarser grids of
decimals from the top: on each grid only the two neighbours of the number can lie in the interval,
and the first grid with a neighbour inside gives the result. All comparisons are exact.
-/

namespace NetPack

namespace Decimal

/-- A positive decimal: `digits · 10 ^ exponent`. -/
structure Finite where
  /-- The significant digits. -/
  digits : Nat
  /-- The power of ten. -/
  exponent : Int
deriving DecidableEq, Inhabited

/-- Which of two equally near neighbours is taken. -/
inductive Tie where
  /-- The one whose last digit is even. -/
  | toEven
  /-- The larger one. -/
  | up
deriving DecidableEq

/-- A positive binary number of limited precision: `significand · 2 ^ exponent`. -/
structure Dyadic where
  /-- The significant bits. -/
  significand : Nat
  /-- The power of two. -/
  exponent : Int
  /-- The next smaller number is only half as far away as the next larger one. -/
  atStep : Bool

/-- Compares `a · 10 ^ s` with `b · 2 ^ t`. -/
def compareScaled (a : Nat) (s : Int) (b : Nat) (t : Int) : Ordering :=
  compare ((a * Nat.pow 10 s.toNat) <<< (-t).toNat) ((b * Nat.pow 10 (-s).toNat) <<< t.toNat)

namespace Dyadic

/-- The lower and the upper end of the interval of reals that read back as the number, in quarters
of its last bit. -/
def ends (x : Dyadic) : Nat × Nat :=
  (4 * x.significand - (if x.atStep then 1 else 2), 4 * x.significand + 2)

/-- Does `c · 10 ^ s` read back as the number? -/
def readsBack (x : Dyadic) (c : Nat) (s : Int) : Bool :=
  let closed := x.significand % 2 == 0
  let low := compareScaled c s x.ends.1 (x.exponent - 2)
  let high := compareScaled c s x.ends.2 (x.exponent - 2)
  (low == .gt || (closed && low == .eq)) && (high == .lt || (closed && high == .eq))

/-- The largest multiple of `10 ^ s` that is not above the number. -/
def floorOn (x : Dyadic) (s : Int) : Nat :=
  ((x.significand * Nat.pow 10 (-s).toNat) <<< x.exponent.toNat) /
    (Nat.pow 10 s.toNat <<< (-x.exponent).toNat)

/-- The nearer of the neighbours `c` and `c + 1` on a grid. -/
def nearer (x : Dyadic) (tie : Tie) (c : Nat) (s : Int) : Nat :=
  match compareScaled (2 * c + 1) s (2 * x.significand) x.exponent with
  | .gt => c
  | .lt => c + 1
  | .eq => match tie with
    | .up => c + 1
    | .toEven => if c % 2 = 0 then c else c + 1

/-- The neighbour of the number on a grid that reads back, the nearer one if both do. -/
def onGrid (x : Dyadic) (tie : Tie) (s : Int) : Option Finite :=
  let c := x.floorOn s
  match x.readsBack c s, x.readsBack (c + 1) s with
  | true, true => some ⟨x.nearer tie c s, s⟩
  | true, false => some ⟨c, s⟩
  | false, true => some ⟨c + 1, s⟩
  | false, false => none

/-- An exponent of ten above the number. -/
def topExponent (x : Dyadic) : Int :=
  (Int.ofNat (Nat.log2 x.significand) + x.exponent + 1) * 30103 / 100000 + 1

/-- The shortest decimal that reads back as the number. -/
def shortest (x : Dyadic) (tie : Tie) : Finite :=
  ((List.range 24).findSome? fun i => x.onGrid tie (x.topExponent - Int.ofNat i)).getD ⟨0, 0⟩

end Dyadic

/-- The size of a finite number that is not zero. -/
def Dyadic.ofBinary32 (x : Binary32) : Dyadic :=
  let fraction := (x.bits &&& 0x7fffff).toNat
  let exponent := (x.bits >>> 23 &&& 0xff).toNat
  if exponent = 0 then ⟨fraction, -149, false⟩
  else ⟨fraction + 8388608, Int.ofNat exponent - 150, fraction == 0 && exponent > 1⟩

/-- The size of a finite double-precision number that is not zero. -/
def Dyadic.ofFloat (v : Float) : Dyadic :=
  let bits := v.toBits.toNat
  let fraction := bits % 4503599627370496
  let exponent := bits / 4503599627370496 % 2048
  if exponent = 0 then ⟨fraction, -1074, false⟩
  else ⟨fraction + 4503599627370496, Int.ofNat exponent - 1075, fraction == 0 && exponent > 1⟩

end Decimal

end NetPack
