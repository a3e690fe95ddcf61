import NetPack.Toml.Draft
import NetPack.Toml.Number

/-!
# Reading TOML texts

A text is a sequence of lines: a blank line, a comment, the header of a table, or a key with its
value. Arrays may hold line ends and comments, inline tables may not. Neither keys nor values are
nested eighty deep.
-/

namespace NetPack

namespace Toml

/-! ### Keys -/

/-- A character of a key without quotes. -/
def isBare (c : Char) : Bool := c.isAlphanum || c = '_' || c = '-'

/-- Reads one part of a key. -/
def keyPart? (cs : List Char) : Option (String × List Char) :=
  match cs with
  | '"' :: _ | '\'' :: _ => shortString? cs
  | _ =>
    match cs.span isBare with
    | ([], _) => none
    | (part, rest) => some (String.ofList part, rest)

/-- Reads the parts of a dotted key, at most `fuel` of them, with blanks around them. -/
def keyParts? : (fuel : Nat) → Scan (List String)
  | 0, _ => none
  | fuel + 1, cs => do
    let (part, rest) ← keyPart? (skipGap cs)
    match skipGap rest with
    | '.' :: rest =>
      let (parts, rest) ← keyParts? fuel rest
      return (part :: parts, rest)
    | rest => return ([part], rest)

/-- How deep keys and values are nested at most. -/
def maxDepth : Nat := 79

/-- Reads a dotted key: the path to a table, and the key in that table. -/
def key? (cs : List Char) : Option ((List String × String) × List Char) := do
  let (parts, rest) ← keyParts? maxDepth cs
  return ((parts.dropLast, ← parts.getLast?), rest)

/-! ### Values -/

/-- Reads the elements of an array up to its end, at most `fuel` of them. -/
def elements? (element : Scan Toml) : (fuel : Nat) → Scan (List Toml)
  | 0, _ => none
  | fuel + 1, cs =>
    match skipBetween cs with
    | ']' :: rest => some ([], rest)
    | cs => do
      let (v, rest) ← element cs
      match skipBetween rest with
      | ',' :: rest =>
        let (vs, rest) ← elements? element fuel rest
        return (v :: vs, rest)
      | ']' :: rest => return ([v], rest)
      | _ => none

/-- Reads a key and its value. -/
def pair? (value : Scan Toml) (cs : List Char) :
    Option ((List String × String × Toml) × List Char) := do
  let ((path, key), rest) ← key? cs
  let '=' :: rest := rest | none
  let (v, rest) ← value (skipGap rest)
  return ((path, key, v), rest)

/-- Reads the pairs of an inline table up to its end, at most `fuel` of them, and adds them to the
members before them. -/
def pairs? (value : Scan Toml) :
    (fuel : Nat) → Draft.Members → Scan Draft.Members
  | 0, _, _ => none
  | fuel + 1, members, cs => do
    let ((path, key, v), rest) ← pair? value cs
    let members ← Draft.insertPair path key v members
    match skipGap rest with
    | ',' :: rest => pairs? value fuel members rest
    | '\x7d' :: rest => return (members, rest)
    | _ => none

/-- Reads an inline table after its opening brace. -/
def inlineTable? (value : Scan Toml) (cs : List Char) : Option (Toml × List Char) :=
  match skipGap cs with
  | '\x7d' :: rest => some (table [], rest)
  | cs => (pairs? value cs.length [] cs).map fun (members, rest) =>
      ((Draft.table .header members).finish, rest)

/-- Reads a value that is nested at most `depth` deep. -/
def value? (depth : Nat) (cs : List Char) : Option (Toml × List Char) :=
  match cs with
  | '"' :: _ | '\'' :: _ => (string? cs).map fun (s, rest) => (string s, rest)
  | '[' :: rest =>
    match depth with
    | 0 => none
    | depth + 1 =>
      (elements? (value? depth) (rest.length + 1) rest).map fun (vs, rest) => (array vs, rest)
  | '\x7b' :: rest =>
    match depth with
    | 0 => none
    | depth + 1 => inlineTable? (value? depth) rest
  | 't' :: 'r' :: 'u' :: 'e' :: rest => some (boolean true, rest)
  | 'f' :: 'a' :: 'l' :: 's' :: 'e' :: rest => some (boolean false, rest)
  | _ => number? cs

/-! ### Texts -/

/-- What is known in front of a line: the tables so far, and the path of the table that pairs are
added to. -/
structure Progress where
  root : Draft.Members
  current : List String

namespace Progress

/-- Adds a pair to the current table. -/
def insert (p : Progress) (path : List String) (key : String) (v : Toml) : Option Progress := do
  let root ← Draft.within false (fun _ => Draft.insertPair path key v) p.current .header p.root
  return { p with root }

/-- Reads a line that is not blank. -/
def line? (p : Progress) (cs : List Char) : Option (Progress × List Char) := do
  match cs with
  | '[' :: '[' :: rest =>
    let ((path, key), rest) ← key? rest
    let ']' :: ']' :: rest := rest | none
    let root ← Draft.addTable path key p.root
    return (⟨root, path ++ [key]⟩, ← restOfLine? rest)
  | '[' :: rest =>
    let ((path, key), rest) ← key? rest
    let ']' :: rest := rest | none
    let root ← Draft.openTable path key p.root
    return (⟨root, path ++ [key]⟩, ← restOfLine? rest)
  | _ =>
    let ((path, key, v), rest) ← pair? (value? maxDepth) cs
    return (← p.insert path key v, ← restOfLine? rest)

/-- Reads the lines of a text, at most `fuel` of them. -/
def lines? : (fuel : Nat) → Progress → List Char → Option Draft.Members
  | 0, _, _ => none
  | fuel + 1, p, cs =>
    match skipGap cs with
    | [] => some p.root
    | c :: rest =>
      if c = '#' || c = '\n' || c = '\r' then
        match restOfLine? (c :: rest) with
        | some rest => lines? fuel p rest
        | none => none
      else
        match line? p (c :: rest) with
        | some (p, rest) => lines? fuel p rest
        | none => none

end Progress

/-- Drops the mark that some texts start with. -/
def dropMark : List Char → List Char
  | '\ufeff' :: rest => rest
  | cs => cs

/-- Reads a text. -/
def parse? (text : String) : Option Toml :=
  let cs := dropMark text.toList
  (Progress.lines? (cs.length + 1) ⟨[], []⟩ cs).map fun members =>
    (Draft.table .header members).finish

end Toml

end NetPack
