import NetPack.Json.Basic
import NetPack.Word

/-!
# Numbers in JSON documents

A written number means different things to different fields. A count is a number without sign,
point and exponent that is a word. A single-precision field takes every number: one without point
and exponent that fits a signed or unsigned word is rounded once, any other is first read in double
precision. That reading collects digits into a word as long as they fit, then scales by a power of
ten in double precision.
-/

namespace NetPack

namespace Json

/-- The parts of a written number. -/
structure NumberParts where
  /-- Written with a minus sign. -/
  negative : Bool
  /-- Digits before the point. -/
  whole : List Char
  /-- Digits after the point, if there is one. -/
  fraction : Option (List Char)
  /-- The exponent, if there is one. -/
  exponent : Option (Bool × List Char)

/-- The value of a list of decimal digits. -/
def digitsValue (ds : List Char) : Nat :=
  ds.foldl (fun acc d => acc * 10 + (d.toNat - '0'.toNat)) 0

namespace NumberParts

/-- The parts of a literal. -/
def ofLiteral (literal : String) : NumberParts :=
  let (negative, cs) :=
    match literal.toList with
    | '-' :: rest => (true, rest)
    | cs => (false, cs)
  let (whole, cs) := cs.span Char.isDigit
  let (fraction, cs) :=
    match cs with
    | '.' :: rest =>
      let (ds, rest) := rest.span Char.isDigit
      (some ds, rest)
    | _ => (none, cs)
  let exponent :=
    match cs with
    | _ :: '-' :: ds => some (true, ds)
    | _ :: '+' :: ds => some (false, ds)
    | _ :: ds => some (false, ds)
    | [] => none
  ⟨negative, whole, fraction, exponent⟩

/-- Written without point and exponent. -/
def isWhole (p : NumberParts) : Bool := p.fraction.isNone && p.exponent.isNone

end NumberParts

/-- Collects digits into a word. Returns the word and the number of digits left over from the first
one that does not fit. -/
def collectDigits (start : Nat) : List Char → Nat × Nat
  | [] => (start, 0)
  | d :: ds =>
    let next := start * 10 + (d.toNat - '0'.toNat)
    if next < Word.modulus then collectDigits next ds else (start, (d :: ds).length)

/-- The largest power of ten that is finite in double precision. -/
def maxPower : Nat := 308

/-- Scales a positive number by a power of ten; `none` if the result is too large. -/
def scale? : (fuel : Nat) → Float → Int → Option Float
  | 0, f, _ => some f
  | fuel + 1, f, e =>
    if e.natAbs ≤ maxPower then
      let power := Float.ofScientific 1 false e.natAbs
      if 0 ≤ e then
        let product := f * power
        if product.isInf then none else some product
      else some (f / power)
    else if f == 0 then some f
    else if 0 ≤ e then none
    else scale? fuel (f / Float.ofScientific 1 false maxPower) (e + Int.ofNat maxPower)

/-- The value in double precision of a number with point or exponent, or too large for a word. -/
def NumberParts.float? (p : NumberParts) : Option Float := do
  let (word, dropped) := collectDigits 0 p.whole
  let fraction := p.fraction.getD []
  let (word, droppedFraction) := collectDigits word fraction
  let taken := fraction.length - droppedFraction
  let power := Int.ofNat dropped - Int.ofNat taken
  let size ←
    match p.exponent with
    | none => scale? 8 (Float.ofNat word) power
    | some (down, ds) =>
      let e := digitsValue ds
      if 2147483648 ≤ e then
        if word = 0 || down then some 0 else none
      else
        let shifted := if down then power - Int.ofNat e else power + Int.ofNat e
        scale? (e / maxPower + 8) (Float.ofNat word) shifted
  return if p.negative then -size else size

/-- A number that is a word. -/
def wordOfLiteral? (literal : String) : Option Nat :=
  let p := NumberParts.ofLiteral literal
  let n := digitsValue p.whole
  if p.isWhole && !p.negative && n < Word.modulus then some n else none

/-- The value of a number in double precision. -/
def floatOfLiteral? (literal : String) : Option Float :=
  let p := NumberParts.ofLiteral literal
  let n := digitsValue p.whole
  if p.isWhole && !p.negative && n < Word.modulus then some (Float.ofNat n)
  else if p.isWhole && p.negative && 0 < n && n ≤ 9223372036854775808 then some (-(Float.ofNat n))
  else p.float?

/-- The value of a number in single precision. -/
def singleOfLiteral? (literal : String) : Option Binary32 :=
  let p := NumberParts.ofLiteral literal
  let n := digitsValue p.whole
  if p.isWhole && !p.negative && n < Word.modulus then some (.ofNat n)
  else if p.isWhole && p.negative && 0 < n && n ≤ 9223372036854775808 then
    some (.ofInt (-Int.ofNat n))
  else p.float?.map .ofFloat

end Json

end NetPack
