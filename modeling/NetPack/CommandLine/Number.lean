import NetPack.Text.Blank
import NetPack.Word

/-!
# Numbers and shapes in arguments
-/

namespace NetPack

namespace CommandLine

/-- Why a text is no number. -/
inductive NumberFault where
  | empty
  | digit
  | large
deriving DecidableEq

namespace NumberFault

/-- The text of a fault. -/
def message : NumberFault → String
  | empty => "cannot parse integer from empty string"
  | digit => "invalid digit found in string"
  | large => "number too large to fit in target type"

end NumberFault

/-- Adds digits to a number from left to right, as long as it is a word. -/
def addDigits (n : Nat) : List Char → Except NumberFault Nat
  | [] => .ok n
  | c :: rest =>
    let next := 10 * n + (c.toNat - '0'.toNat)
    if !c.isDigit then .error .digit
    else if Word.modulus ≤ next then .error .large
    else addDigits next rest

/-- Reads a word in decimal digits, which may have a plus sign. -/
def readNumber (s : String) : Except NumberFault Nat :=
  match s.toList with
  | [] => .error .empty
  | ['+'] => .error .digit
  | '+' :: digits => addDigits 0 digits
  | digits => addDigits 0 digits

/-- Why a text is no shape. -/
inductive ShapeFault where
  | dimension (written shape : String) (cause : NumberFault)
  | rank (shape : String)
deriving DecidableEq

namespace ShapeFault

/-- The text of a fault. -/
def message : ShapeFault → String
  | dimension written shape cause =>
    s!"invalid dimension '{written}' in shape '{shape}': {cause.message}"
  | rank shape => s!"shape '{shape}' must have four dimensions (N,C,H,W)"

end ShapeFault

/-- Reads four extents between commas or crosses. -/
def readShape (s : String) : Except ShapeFault (List Nat) := do
  let parts := (s.splitOn ",").flatMap fun part => part.splitOn "x"
  let dims ← parts.mapM fun part =>
    match readNumber (Text.trim part) with
    | .ok n => .ok n
    | .error cause => .error (.dimension part s cause)
  if dims.length ≠ 4 then throw (.rank s)
  return dims

end CommandLine

end NetPack
