import NetPack.Decimal.Shortest

/-!
# Notations for decimals

A `Notation` says how a decimal is laid out: up to which powers of ten it is written positionally,
how the exponent looks otherwise, and the words for the values that are no numbers. Each text format
has a notation of its own.
-/

namespace NetPack

namespace Decimal

/-- The layout of a decimal. -/
structure Notation where
  /-- The least power of ten of a first digit that is written positionally, if there is one. -/
  plainFrom : Option Int
  /-- The greatest power of ten of a first digit that is written positionally, if there is one. -/
  plainTo : Option Int
  /-- Written between the digits and a positive exponent. -/
  positiveMark : String
  /-- The choice between equally near decimals. -/
  tie : Tie
  /-- The word for a value that is no number. -/
  nan : String
  /-- The word for infinity. -/
  infinity : String

namespace Notation

/-- Positional layout with at least one digit on each side of the point. -/
def plain (digits : String) (exponent : Int) : String :=
  if 0 ≤ exponent then digits ++ "".pushn '0' exponent.toNat ++ ".0"
  else
    let places := (-exponent).toNat
    if places < digits.length then
      (digits.take (digits.length - places)).toString ++ "." ++
        (digits.drop (digits.length - places)).toString
    else "0." ++ "".pushn '0' (places - digits.length) ++ digits

/-- Layout with one digit before the point and an exponent. -/
def scientific (n : Notation) (digits : String) (power : Int) : String :=
  let rest := (digits.drop 1).toString
  let mantissa := (digits.take 1).toString ++ (if rest.isEmpty then "" else "." ++ rest)
  let exponent := if power < 0 then "e-" ++ (-power).toNat.repr
    else "e" ++ n.positiveMark ++ power.toNat.repr
  mantissa ++ exponent

/-- The text of a positive decimal. -/
def positive (n : Notation) (d : Finite) : String :=
  let digits := d.digits.repr
  let power := d.exponent + Int.ofNat digits.length - 1
  if n.plainFrom.all (· ≤ power) && n.plainTo.all (power ≤ ·) then plain digits d.exponent
  else n.scientific digits power

/-- The text of a single-precision number: its shortest decimal. -/
def single (n : Notation) (x : Binary32) : String :=
  if x.isNaN then n.nan
  else
    (if x.signBit then "-" else "") ++
      (if x.isZero then "0.0"
        else if x.isFinite then n.positive ((Dyadic.ofBinary32 x).shortest n.tie)
        else n.infinity)

/-- The texts of several numbers in square brackets. -/
def singles (n : Notation) (xs : List Binary32) : String :=
  "[" ++ ", ".intercalate (xs.map n.single) ++ "]"

/-- The text of a double-precision number: its shortest decimal. -/
def double (n : Notation) (v : Float) : String :=
  if v.isNaN then n.nan
  else
    (if v.toBits ≥ 0x8000000000000000 then "-" else "") ++
      (if v == 0 then "0.0"
        else if v.isFinite then n.positive ((Dyadic.ofFloat v).shortest n.tie)
        else n.infinity)

end Notation

/-- The notation of messages and descriptions: positional from a ten-thousandth up to sixteen
digits. -/
def messageNotation : Notation where
  plainFrom := some (-4)
  plainTo := some 15
  positiveMark := ""
  tie := .up
  nan := "NaN"
  infinity := "inf"

end Decimal

end NetPack
