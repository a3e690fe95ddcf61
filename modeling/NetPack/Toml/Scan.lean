/-!
# Scanning TOML texts

The parts of a TOML text that hold no value: blanks, line ends and comments. A `Scan` reads
something at the start of a text and returns it together with the rest of the text.
-/

namespace NetPack

namespace Toml

/-- Reads something at the start of a text. -/
abbrev Scan (α : Type) := List Char → Option (α × List Char)

/-- A blank or a tab. -/
def isGap (c : Char) : Bool := c = ' ' || c = '\t'

/-- Drops blanks and tabs. -/
def skipGap (cs : List Char) : List Char := cs.dropWhile isGap

/-- A character that may stand in a comment or a string: no control character but the tab. -/
def isPlain (c : Char) : Bool := c = '\t' || (0x20 ≤ c.toNat && c.toNat ≠ 0x7f)

/-- Drops a line end. -/
def lineEnd? : List Char → Option (List Char)
  | '\n' :: rest => some rest
  | '\r' :: '\n' :: rest => some rest
  | _ => none

/-- Drops a comment. -/
def skipComment : List Char → List Char
  | '#' :: rest => rest.dropWhile isPlain
  | cs => cs

/-- Drops the rest of a line, which may hold a comment. -/
def restOfLine? (cs : List Char) : Option (List Char) :=
  match skipComment (skipGap cs) with
  | [] => some []
  | rest => lineEnd? rest

/-- Drops blanks, line ends and comments, at most `fuel` lines. A comment has to end with its
line. -/
def skipLines : (fuel : Nat) → List Char → List Char
  | 0, cs => cs
  | fuel + 1, cs =>
    let cs := skipGap cs
    match lineEnd? (skipComment cs) with
    | some rest => skipLines fuel rest
    | none => cs

/-- Drops everything between the elements of an array. -/
def skipBetween (cs : List Char) : List Char := skipLines cs.length cs

end Toml

end NetPack
