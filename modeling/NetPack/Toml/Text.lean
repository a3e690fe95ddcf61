import NetPack.Toml.Scan

/-!
# TOML strings

A string is basic, in double quotes and with escapes, or literal, in single quotes and without any.
Both have a form in three quotes that may hold line ends. A line end right after the opening quotes
is dropped, and a line end inside a string is one character however it is written.
-/

namespace NetPack

namespace Toml

/-- The value of a hexadecimal digit. -/
def hexDigit? (c : Char) : Option Nat :=
  if c.isDigit then some (c.toNat - '0'.toNat)
  else if 'a' ≤ c && c ≤ 'f' then some (c.toNat - 'a'.toNat + 10)
  else if 'A' ≤ c && c ≤ 'F' then some (c.toNat - 'A'.toNat + 10)
  else none

/-- The character of an escape by its code point. -/
def codePoint? (digits : List Char) : Option Char := do
  let n := (← digits.mapM hexDigit?).foldl (fun n d => 16 * n + d) 0
  if n < 0xd800 || (0xdfff < n && n < 0x110000) then some (Char.ofNat n) else none

/-- The character of an escape of one letter. -/
def escape? : Char → Option Char
  | 'b' => some '\x08'
  | 't' => some '\t'
  | 'n' => some '\n'
  | 'f' => some '\x0c'
  | 'r' => some '\r'
  | '"' => some '"'
  | '\\' => some '\\'
  | _ => none

/-- Puts a character in front of a string that was read. -/
def consed (c : Char) : Option (List Char × List Char) → Option (List Char × List Char) :=
  Option.map fun (s, rest) => (c :: s, rest)

/-- Reads a basic string up to its closing quote. -/
def basicBody : Scan (List Char)
  | [] => none
  | '"' :: rest => some ([], rest)
  | '\\' :: 'u' :: a :: b :: c :: d :: rest =>
    (codePoint? [a, b, c, d]).bind fun ch => consed ch (basicBody rest)
  | '\\' :: 'U' :: a :: b :: c :: d :: e :: f :: g :: h :: rest =>
    (codePoint? [a, b, c, d, e, f, g, h]).bind fun ch => consed ch (basicBody rest)
  | '\\' :: c :: rest => (escape? c).bind fun ch => consed ch (basicBody rest)
  | c :: rest => if isPlain c && c ≠ '\\' then consed c (basicBody rest) else none

/-- Reads a literal string up to its closing quote. -/
def literalBody (cs : List Char) : Option (List Char × List Char) :=
  match cs.span fun c => isPlain c && c ≠ '\'' with
  | (s, '\'' :: rest) => some (s, rest)
  | _ => none

/-- The quotes that belong to a string and the rest, if three quotes close it here: of up to five
quotes the last three close. -/
def closing? (quote : Char) (cs : List Char) : Option (List Char × List Char) :=
  let count := Nat.min 5 (cs.takeWhile (· = quote)).length
  if 3 ≤ count then some (List.replicate (count - 3) quote, cs.drop count) else none

/-- Reads a basic string of many lines up to its closing quotes. The flag is set after a backslash
at the end of a line: blanks and line ends are dropped. -/
def basicLines : Bool → Scan (List Char)
  | _, [] => none
  | skipping, '\r' :: '\n' :: rest =>
    if skipping then basicLines true rest else consed '\n' (basicLines false rest)
  | _, '\\' :: rest =>
    if (lineEnd? (skipGap rest)).isSome then basicLines true rest
    else
      match rest with
      | 'u' :: a :: b :: c :: d :: rest =>
        (codePoint? [a, b, c, d]).bind fun ch => consed ch (basicLines false rest)
      | 'U' :: a :: b :: c :: d :: e :: f :: g :: h :: rest =>
        (codePoint? [a, b, c, d, e, f, g, h]).bind fun ch => consed ch (basicLines false rest)
      | c :: rest => (escape? c).bind fun ch => consed ch (basicLines false rest)
      | [] => none
  | skipping, c :: rest =>
    if skipping && (isGap c || c = '\n') then basicLines true rest
    else
      match closing? '"' (c :: rest) with
      | some closed => some closed
      | none =>
        if isPlain c || c = '\n' then consed c (basicLines false rest) else none

/-- Reads a literal string of many lines up to its closing quotes. -/
def literalLines : Scan (List Char)
  | [] => none
  | '\r' :: '\n' :: rest => consed '\n' (literalLines rest)
  | c :: rest =>
    match closing? '\'' (c :: rest) with
    | some closed => some closed
    | none => if isPlain c || c = '\n' then consed c (literalLines rest) else none

/-- Drops the line end after opening quotes. -/
def afterOpening (cs : List Char) : List Char := (lineEnd? cs).getD cs

/-- Reads a string in one pair of quotes. -/
def shortString? : Scan String
  | '"' :: rest => (basicBody rest).map fun (s, rest) => (String.ofList s, rest)
  | '\'' :: rest => (literalBody rest).map fun (s, rest) => (String.ofList s, rest)
  | _ => none

/-- Reads a string. -/
def string? : Scan String
  | '"' :: '"' :: '"' :: rest =>
    (basicLines false (afterOpening rest)).map fun (s, rest) => (String.ofList s, rest)
  | '\'' :: '\'' :: '\'' :: rest =>
    (literalLines (afterOpening rest)).map fun (s, rest) => (String.ofList s, rest)
  | cs => shortString? cs

end Toml

end NetPack
