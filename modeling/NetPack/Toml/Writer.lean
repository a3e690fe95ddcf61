import NetPack.Decimal.Notation
import NetPack.Toml.Reader

/-!
# Writing TOML texts

A table is written with its plain members first and then its tables, each under its header and apart
from what is before it by an empty line. An array with more than one element has a line for each of
them. A string is written in the first form that needs no escapes for it.
-/

namespace NetPack

namespace Toml

/-! ### Strings -/

/-- The length of the longest run of a character. -/
def longestRun (c : Char) (cs : List Char) : Nat :=
  (cs.foldl (fun (longest, run) d =>
    let run := if d = c then run + 1 else 0
    (Nat.max longest run, run)) (0, 0)).1

/-- A control character that has to be escaped. -/
def isControl (c : Char) : Bool := (c.toNat < 0x20 && c ≠ '\t' && c ≠ '\n') || c.toNat = 0x7f

/-- How a string is written: with or without escapes, between single marks or between three of them,
where a line may end. -/
inductive StringForm where
  | basic
  | literal
  | basicLines
  | literalLines
deriving DecidableEq

/-- The form of a string: the first of the four in which it needs no escape, tabs apart, and
otherwise one with escapes. -/
def stringForm (cs : List Char) : StringForm :=
  let control := cs.any isControl
  let backslash := cs.contains '\\'
  let lines := cs.contains '\n'
  let double := longestRun '"' cs
  let single := longestRun '\'' cs
  if !control && !backslash && double = 0 && !lines then .basic
  else if !control && single = 0 && !lines then .literal
  else if !control && !backslash && double < 3 then .basicLines
  else if !control && single < 3 then .literalLines
  else if lines then .basicLines
  else .basic

/-- The four hexadecimal digits of an escape. -/
def escapeDigits (n : Nat) : String :=
  let digits := (String.ofList (Nat.toDigits 16 n)).toUpper
  "".pushn '0' (4 - digits.length) ++ digits

/-- The escape of a character that is not written as it is. -/
def escapeOf? (lines : Bool) (c : Char) : Option String :=
  match c with
  | '\x08' => some "\\b"
  | '\t' => some "\\t"
  | '\n' => if lines then none else some "\\n"
  | '\x0c' => some "\\f"
  | '\r' => some "\\r"
  | '\\' => some "\\\\"
  | c => if c.toNat < 0x20 || c.toNat = 0x7f then some ("\\u" ++ escapeDigits c.toNat) else none

/-- Characters with escapes, after a run of `run` quotes that were written as they are. At most
`quotes` of them may follow one another. -/
def escaped (lines : Bool) (quotes : Nat) : (run : Nat) → List Char → List String
  | _, [] => []
  | run, c :: rest =>
    if c = '"' then
      if run < quotes then "\"" :: escaped lines quotes (run + 1) rest
      else "\\\"" :: escaped lines quotes 0 rest
    else (escapeOf? lines c).getD c.toString :: escaped lines quotes 0 rest

/-- The text of a string in a form. Behind the mark of a form for lines the first line may end. -/
def formText (form : StringForm) (s : String) : String :=
  let cs := s.toList
  let start := if cs.contains '\n' then "\n" else ""
  match form with
  | .basic => "\"" ++ String.join (escaped false 0 0 cs) ++ "\""
  | .literal => "'" ++ s ++ "'"
  | .basicLines => "\"\"\"" ++ start ++ String.join (escaped true 2 0 cs) ++ "\"\"\""
  | .literalLines => "'''" ++ start ++ s ++ "'''"

/-- The text of a string. -/
def stringText (s : String) : String := formText (stringForm s.toList) s

/-! ### Values -/

/-- Numbers are written in full, with at least one digit after the point. -/
def floatNotation : Decimal.Notation where
  plainFrom := none
  plainTo := none
  positiveMark := ""
  tie := .up
  nan := "nan"
  infinity := "inf"

/-- The text of a key, which has no form for lines. -/
def keyText (key : String) : String :=
  if !key.isEmpty && key.toList.all isBare then key
  else formText (if stringForm key.toList = .literal then .literal else .basic) key

/-- The elements of an array of the given texts. -/
def arrayText (elements : List String) : String :=
  match elements with
  | [] => "[]"
  | [element] => "[" ++ element ++ "]"
  | _ => "[" ++ String.join (elements.map fun e => "\n    " ++ e ++ ",") ++ "\n]"

mutual

/-- The text of a value. -/
def valueText : Toml → String
  | string s => stringText s
  | integer i => i.repr
  | float v => floatNotation.double v
  | boolean b => if b then "true" else "false"
  | moment written => written
  | array elements => arrayText (valueTexts elements)
  | table members =>
    if members.isEmpty then "\x7b\x7d"
    else "\x7b " ++ ", ".intercalate (pairTexts members) ++ " \x7d"

/-- The texts of values. -/
def valueTexts : List Toml → List String
  | [] => []
  | v :: rest => valueText v :: valueTexts rest

/-- The pairs of an inline table. -/
def pairTexts : List (String × Toml) → List String
  | [] => []
  | (key, v) :: rest => (keyText key ++ " = " ++ valueText v) :: pairTexts rest

end

/-! ### Tables -/

/-- Does an array hold tables, and nothing else? -/
def isTables (elements : List Toml) : Bool := !elements.isEmpty && elements.all isTable

/-- Does a member stand under a header of its own? -/
def hasHeader : Toml → Bool
  | table _ => true
  | array elements => isTables elements
  | _ => false

/-- The lines of the plain members of a table. -/
def plainLines (members : List (String × Toml)) : String :=
  String.join ((members.filter fun (_, v) => !hasHeader v).map fun (key, v) =>
    keyText key ++ " = " ++ valueText v ++ "\n")

/-- The dotted text of a path. -/
def pathText (path : List String) : String := ".".intercalate (path.map keyText)

/-- A table under its header. The header is left out if all members have headers of their own. -/
def tableBlock (header : String) (always : Bool) (members : List (String × Toml)) :
    List String :=
  let lines := plainLines members
  if lines.isEmpty && !always && !members.isEmpty then [] else [header ++ "\n" ++ lines]

mutual

/-- The blocks of a member with a header. -/
def blocksOf (path : List String) : Toml → List String
  | table members =>
    tableBlock ("[" ++ pathText path ++ "]") false members ++ memberBlocks path members
  | array elements => if isTables elements then elementBlocks path elements else []
  | _ => []

/-- The blocks of the members of a table. -/
def memberBlocks (path : List String) : List (String × Toml) → List String
  | [] => []
  | (key, v) :: rest => blocksOf (path ++ [key]) v ++ memberBlocks path rest

/-- The blocks of tables under one header. -/
def elementBlocks (path : List String) : List Toml → List String
  | [] => []
  | table members :: rest =>
    tableBlock ("[[" ++ pathText path ++ "]]") true members ++ memberBlocks path members ++
      elementBlocks path rest
  | _ :: rest => elementBlocks path rest

end

/-- The text of a table with the given members. -/
def render (members : List (String × Toml)) : String :=
  let lines := plainLines members
  "\n".intercalate ((if lines.isEmpty then [] else [lines]) ++ memberBlocks [] members)

end Toml

end NetPack
