/-!
# Sets of characters

Many properties of characters are known only from tables. A table of code points is written as
lines of words with blanks between them; a word is a hexadecimal number, or two of them for a range
from the first to the last.
-/

namespace NetPack

namespace Text

/-- The value of a small hexadecimal digit. -/
def digitOf (c : Char) : Nat :=
  if c.isDigit then c.toNat - '0'.toNat else c.toNat - 'a'.toNat + 10

/-- The number that hexadecimal digits stand for. -/
def numberOf (digits : String) : Nat := digits.toList.foldl (fun n c => 16 * n + digitOf c) 0

/-- The words of a table. -/
def wordsOf (lines : List String) : List String := lines.flatMap (·.splitOn " ")

/-- The range that a word stands for. -/
def rangeOf (word : String) : Nat × Nat :=
  match word.splitOn "-" with
  | [first, last] => (numberOf first, numberOf last)
  | _ => (numberOf word, numberOf word)

/-- A set of characters. -/
structure CodePoints where
  /-- The first and the last code point of each range. -/
  ranges : List (Nat × Nat)

/-- The set in a table. -/
def CodePoints.ofLines (lines : List String) : CodePoints := ⟨(wordsOf lines).map rangeOf⟩

/-- Is the character in the set? -/
def CodePoints.holds (set : CodePoints) (c : Char) : Bool :=
  set.ranges.any fun (first, last) => first ≤ c.toNat && c.toNat ≤ last

end Text

end NetPack
