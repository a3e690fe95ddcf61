import NetPack.Scalar

/-!
# Single-precision numbers as bit patterns

A `Binary32` is the 32 bits of a single-precision number. Keeping the bits, and not the number,
makes two patterns of NaN different values and keeps them apart when tensors are stored. Arithmetic
is that of the format with every result rounded once; numerical equality is `Binary32.same`, for
which NaN differs from itself and the two zeros agree.
-/

namespace NetPack

/-- The bit pattern of a single-precision number. -/
structure Binary32 where
  /-- Sign, eight bits of exponent, twenty-three bits of fraction. -/
  bits : UInt32
deriving DecidableEq, Inhabited

namespace Binary32

/-- The number that a pattern stands for. -/
def number (x : Binary32) : Float32 := Float32.ofBits x.bits

/-- The pattern of a number. -/
def ofNumber (v : Float32) : Binary32 := ⟨v.toBits⟩

/-- The nearest number to a natural number. -/
def ofNat (n : Nat) : Binary32 := ofNumber (Float32.ofNat n)

/-- The nearest number to an integer. -/
def ofInt : Int → Binary32
  | .ofNat n => ofNat n
  | .negSucc n => ofNumber (-(Float32.ofNat (n + 1)))

/-- The exponent field is all ones and the fraction is not zero. -/
def isNaN (x : Binary32) : Bool := x.bits &&& 0x7fffffff > 0x7f800000

/-- Neither infinite nor NaN. -/
def isFinite (x : Binary32) : Bool := x.bits &&& 0x7f800000 != 0x7f800000

/-- The sign bit is set. -/
def signBit (x : Binary32) : Bool := x.bits &&& 0x80000000 != 0

/-- Zero, of either sign. -/
def isZero (x : Binary32) : Bool := x.bits &&& 0x7fffffff == 0

def nan : Binary32 := ⟨0x7fc00000⟩
def infinity : Binary32 := ⟨0x7f800000⟩
def negInfinity : Binary32 := ⟨0xff800000⟩

/-- Numerical equality. -/
protected def same (x y : Binary32) : Bool := x.number == y.number

/-- The numerical order. -/
protected def lt (x y : Binary32) : Bool := decide (x.number < y.number)

/-- The larger number; of a number and NaN, the number. -/
protected def max (x y : Binary32) : Binary32 :=
  if x.isNaN || x.lt y then y else x

instance : Scalar Binary32 where
  zero := ⟨0⟩
  one := ⟨0x3f800000⟩
  add x y := ofNumber (x.number + y.number)
  sub x y := ofNumber (x.number - y.number)
  mul x y := ofNumber (x.number * y.number)
  div x y := ofNumber (x.number / y.number)
  neg x := ⟨x.bits ^^^ 0x80000000⟩
  sqrt x := ofNumber x.number.sqrt
  exp x := ofNumber x.number.exp
  max := Binary32.max
  lowest := negInfinity
  count := ofNat
  lt := Binary32.lt
  same := Binary32.same

/-! ### Double precision

A double-precision number has one bit of sign, eleven bits of exponent and fifty-two bits of
fraction. Every single-precision number is one; the other way round a number goes to the nearest
one, and of two equally near ones to the even one.
-/

/-- `n / 2 ^ s`, rounded to the nearest natural number, a half to the even one. -/
def roundShift (n s : Nat) : Nat :=
  let unit := Nat.pow 2 s
  let q := n / unit
  let r := n % unit
  if unit < 2 * r || (2 * r = unit && q % 2 = 1) then q + 1 else q

/-- Exponent and fraction, in single precision, of a number that is given by exponent and fraction
in double precision. The result lies on the grid with the exponent `g`, and one beyond the greatest
number is infinity. -/
def narrowBits (exponent fraction : Nat) : Nat :=
  if exponent = 2047 then
    if fraction = 0 then 0x7f800000 else 0x7fc00000 ||| (fraction >>> 29)
  else
    let significand := if exponent = 0 then fraction else 4503599627370496 + fraction
    let g := exponent - 897
    Nat.min 0x7f800000 (g <<< 23 + roundShift significand (g + 926 - Nat.max exponent 1))

/-- Exponent and fraction, in double precision, of a number that is given by exponent and fraction
in single precision. -/
def widenBits (exponent fraction : Nat) : Nat :=
  if exponent = 255 then
    2047 <<< 52 + (if fraction = 0 then 0 else 1 <<< 51 ||| (fraction <<< 29))
  else if exponent = 0 then
    if fraction = 0 then 0
    else
      let top := Nat.log2 fraction
      (top + 873) <<< 52 + fraction <<< (52 - top)
  else (exponent + 896) <<< 52 + fraction <<< 29

/-- The nearest single-precision number to a double-precision one. -/
def ofFloat (v : Float) : Binary32 :=
  let b := v.toBits.toNat
  ⟨.ofNat ((b >>> 63) <<< 31 + narrowBits ((b >>> 52) % 2048) (b % 4503599627370496))⟩

/-- The number in double precision. -/
def toFloat (x : Binary32) : Float :=
  let b := x.bits.toNat
  .ofBits (.ofNat ((b >>> 31) <<< 63 + widenBits ((b >>> 23) % 256) (b % 8388608)))

/-! ### Bytes -/

/-- The four bytes of the pattern, lowest first. -/
def toBytes (x : Binary32) : List UInt8 :=
  [x.bits.toUInt8, (x.bits >>> 8).toUInt8, (x.bits >>> 16).toUInt8, (x.bits >>> 24).toUInt8]

/-- The pattern with the given four bytes, lowest first. -/
def ofBytes (a b c d : UInt8) : Binary32 :=
  ⟨a.toUInt32 ||| (b.toUInt32 <<< 8) ||| (c.toUInt32 <<< 16) ||| (d.toUInt32 <<< 24)⟩

/-- Reads patterns from bytes; one to three bytes left over at the end are dropped. -/
def listOfBytes : List UInt8 → List Binary32
  | a :: b :: c :: d :: rest => ofBytes a b c d :: listOfBytes rest
  | _ => []

/-- The bytes of a sequence of patterns. -/
def bytesOfList (xs : List Binary32) : List UInt8 := xs.flatMap toBytes

end Binary32

end NetPack
