import NetPack.Decimal.Shortest

/-!
# Decimals with a fixed number of places

`Decimal.fixed` writes a quotient of natural numbers with a given number of digits after the point.
The value is exact until it is rounded once, to the nearest decimal of that many places; of two
equally near ones the even one is taken.
-/

namespace NetPack

namespace Decimal

/-- The nearest natural number to a quotient; a half goes to the even neighbour. -/
def roundDiv (num den : Nat) : Nat :=
  let q := num / den
  match compare (2 * (num % den)) den with
  | .lt => q
  | .gt => q + 1
  | .eq => if q % 2 = 0 then q else q + 1

/-- `num / den` with `places` digits after the point. -/
def fixed (places num den : Nat) : String :=
  let unit := Nat.pow 10 places
  let scaled := roundDiv (num * unit) den
  let fraction := (scaled % unit).repr
  (scaled / unit).repr ++ "." ++ "".pushn '0' (places - fraction.length) ++ fraction

/-- A single-precision number with `places` digits after the point. -/
def fixedSingle (places : Nat) (x : Binary32) : String :=
  if x.isNaN then "NaN"
  else
    let sign := if x.signBit then "-" else ""
    if x.isFinite then
      let d := Dyadic.ofBinary32 x
      sign ++ fixed places (d.significand <<< d.exponent.toNat) (1 <<< (-d.exponent).toNat)
    else sign ++ "inf"

end Decimal

end NetPack
