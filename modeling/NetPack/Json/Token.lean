import NetPack.Json.Basic

/-!
# JSON tokens

`Json.tokens?` cuts a text into punctuation, words, numbers and strings. Blanks between tokens are
spaces, tabs and line ends. Every token takes at least one character, so the text gets shorter with
each of them.
-/

namespace NetPack

namespace Json

/-- The smallest parts of a document. -/
inductive Token where
  | openArray
  | closeArray
  | openObject
  | closeObject
  | comma
  | colon
  | null
  | bool (b : Bool)
  | number (literal : String)
  | string (s : String)
  | brokenString
deriving DecidableEq

namespace Token

/-- A character that may stand between tokens. -/
def isBlank (c : Char) : Bool := c == ' ' || c == '\n' || c == '\t' || c == '\r'

/-- The value of a hexadecimal digit. -/
def hexValue? (c : Char) : Option Nat :=
  if '0' ≤ c ∧ c ≤ '9' then some (c.toNat - '0'.toNat)
  else if 'a' ≤ c ∧ c ≤ 'f' then some (c.toNat - 'a'.toNat + 10)
  else if 'A' ≤ c ∧ c ≤ 'F' then some (c.toNat - 'A'.toNat + 10)
  else none

/-- The value of four hexadecimal digits. -/
def hex4? (a b c d : Char) : Option Nat := do
  return (((← hexValue? a) * 16 + (← hexValue? b)) * 16 + (← hexValue? c)) * 16 + (← hexValue? d)

/-- The character of an escape of one letter. -/
def shortEscape? : Char → Option Char
  | '"' => some '"'
  | '\\' => some '\\'
  | '/' => some '/'
  | 'b' => some '\x08'
  | 'f' => some '\x0c'
  | 'n' => some '\n'
  | 'r' => some '\r'
  | 't' => some '\t'
  | _ => none

/-- A character inside a string, or the number of an escaped UTF-16 unit. -/
inductive Part where
  | char (c : Char)
  | unit (n : Nat)

/-- The first half of a surrogate pair. -/
def isHighSurrogate (n : Nat) : Bool := 0xd800 ≤ n && n < 0xdc00

/-- The second half of a surrogate pair. -/
def isLowSurrogate (n : Nat) : Bool := 0xdc00 ≤ n && n < 0xe000

/-- The text of the parts of a string; a surrogate without its other half stands for no text. -/
def joinParts : List Part → Option (List Char)
  | [] => some []
  | .char c :: rest => (joinParts rest).map (c :: ·)
  | .unit n :: .unit m :: rest =>
    if isHighSurrogate n && isLowSurrogate m then
      (joinParts rest).map (Char.ofNat (0x10000 + (n - 0xd800) * 0x400 + (m - 0xdc00)) :: ·)
    else if isHighSurrogate n || isLowSurrogate n then none
    else (joinParts (.unit m :: rest)).map (Char.ofNat n :: ·)
  | .unit n :: rest =>
    if isHighSurrogate n || isLowSurrogate n then none
    else (joinParts rest).map (Char.ofNat n :: ·)

/-- Reads the parts of a string after its opening quote, up to and with the closing one. -/
def parts? : List Char → Option (List Part × List Char)
  | '"' :: rest => some ([], rest)
  | '\\' :: 'u' :: a :: b :: c :: d :: rest => do
    let n ← hex4? a b c d
    let (parts, rest) ← parts? rest
    return (.unit n :: parts, rest)
  | '\\' :: e :: rest => do
    let c ← shortEscape? e
    let (parts, rest) ← parts? rest
    return (.char c :: parts, rest)
  | c :: rest => do
    if c.toNat < 0x20 then none
    let (parts, rest) ← parts? rest
    return (.char c :: parts, rest)
  | [] => none

/-- Digits at the start of a text, and the rest. -/
def digits (cs : List Char) : List Char × List Char := cs.span Char.isDigit

/-- The whole part of a number: zero, or digits that do not start with zero. -/
def whole? (cs : List Char) : Option (List Char × List Char) :=
  match cs with
  | '0' :: rest => if rest.head?.any Char.isDigit then none else some (['0'], rest)
  | _ =>
    let (ds, rest) := digits cs
    if ds.isEmpty then none else some (ds, rest)

/-- The point and the digits after it, if there are any. -/
def fraction? (cs : List Char) : Option (List Char × List Char) :=
  match cs with
  | '.' :: rest =>
    let (ds, rest') := digits rest
    if ds.isEmpty then none else some ('.' :: ds, rest')
  | _ => some ([], cs)

/-- The exponent, if there is one. -/
def exponent? (cs : List Char) : Option (List Char × List Char) :=
  match cs with
  | e :: rest =>
    if e = 'e' ∨ e = 'E' then
      let (sign, rest) :=
        match rest with
        | '+' :: r => (['+'], r)
        | '-' :: r => (['-'], r)
        | r => ([], r)
      let (ds, rest') := digits rest
      if ds.isEmpty then none else some (e :: sign ++ ds, rest')
    else some ([], cs)
  | [] => some ([], cs)

/-- Reads a number. -/
def number? (cs : List Char) : Option (List Char × List Char) := do
  let (sign, rest) :=
    match cs with
    | '-' :: r => (['-'], r)
    | r => ([], r)
  let (w, rest) ← whole? rest
  let (f, rest) ← fraction? rest
  let (e, rest) ← exponent? rest
  return (sign ++ w ++ f ++ e, rest)

/-- Reads the token at the start of a text that does not start with a blank. -/
def next? : List Char → Option (Token × List Char)
  | '[' :: rest => some (openArray, rest)
  | ']' :: rest => some (closeArray, rest)
  | '\x7b' :: rest => some (openObject, rest)
  | '\x7d' :: rest => some (closeObject, rest)
  | ',' :: rest => some (comma, rest)
  | ':' :: rest => some (colon, rest)
  | '"' :: rest => do
    let (parts, rest) ← parts? rest
    match joinParts parts with
    | some s => return (.string (String.ofList s), rest)
    | none => return (.brokenString, rest)
  | 'n' :: 'u' :: 'l' :: 'l' :: rest => some (null, rest)
  | 't' :: 'r' :: 'u' :: 'e' :: rest => some (bool true, rest)
  | 'f' :: 'a' :: 'l' :: 's' :: 'e' :: rest => some (bool false, rest)
  | cs => do
    let (literal, rest) ← number? cs
    return (.number (String.ofList literal), rest)

/-- The tokens of a text, at most `fuel` many. -/
def list? : (fuel : Nat) → List Char → Option (List Token)
  | 0, _ => none
  | fuel + 1, cs =>
    match cs.dropWhile isBlank with
    | [] => some []
    | c :: rest => do
      let (t, rest) ← next? (c :: rest)
      return t :: (← list? fuel rest)

end Token

/-- The tokens of a text. A text has no more tokens than characters. -/
def tokens? (s : String) : Option (List Token) := Token.list? (s.length + 1) s.toList

end Json

end NetPack
