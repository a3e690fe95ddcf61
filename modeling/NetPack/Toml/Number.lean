import NetPack.Toml.Basic
import NetPack.Toml.Text

/-!
# TOML numbers, dates and times

Digits of a number may be grouped by underscores that stand between two digits. An integer is
decimal, hexadecimal, octal or binary and has 64 bits; a number with a point or an exponent is
rounded once to double precision. A date or a time is checked and kept as written.
-/

namespace NetPack

namespace Toml

/-! ### Digits -/

/-- Reads the digits after the first one. -/
def moreDigits (isDigit : Char → Bool) : Scan (List Char)
  | '_' :: d :: rest =>
    if isDigit d then consed d (moreDigits isDigit rest) else none
  | ['_'] => none
  | d :: rest => if isDigit d then consed d (moreDigits isDigit rest) else some ([], d :: rest)
  | [] => some ([], [])

/-- Reads digits, at least one. -/
def digits? (isDigit : Char → Bool) : Scan (List Char)
  | d :: rest => if isDigit d then consed d (moreDigits isDigit rest) else none
  | [] => none

/-- Reads digits that do not start with a superfluous zero. -/
def wholeDigits? : Scan (List Char)
  | '0' :: rest => some (['0'], rest)
  | cs => digits? Char.isDigit cs

/-- The value of digits in a base. -/
def valueIn (base : Nat) (ds : List Char) : Nat :=
  ds.foldl (fun n d => base * n + (hexDigit? d).getD 0) 0

/-- Reads a sign; true stands for minus. -/
def sign : List Char → Bool × List Char
  | '-' :: rest => (true, rest)
  | '+' :: rest => (false, rest)
  | cs => (false, cs)

/-! ### Integers -/

/-- An integer, if it has 64 bits. -/
def bounded? (i : Int) : Option Toml :=
  if minInteger ≤ i && i ≤ Int.ofNat maxInteger then some (integer i) else none

/-- Reads an integer in a base that is a power of two. -/
def based? (base : Nat) (cs : List Char) : Option (Toml × List Char) := do
  let (ds, rest) ← digits? (fun c => (hexDigit? c).any (· < base)) cs
  return (← bounded? (Int.ofNat (valueIn base ds)), rest)

/-- Reads an integer. -/
def integer? : Scan Toml
  | '0' :: 'x' :: rest => based? 16 rest
  | '0' :: 'o' :: rest => based? 8 rest
  | '0' :: 'b' :: rest => based? 2 rest
  | cs => do
    let (negative, cs) := sign cs
    let (ds, rest) ← wholeDigits? cs
    let n := Int.ofNat (valueIn 10 ds)
    return (← bounded? (if negative then -n else n), rest)

/-! ### Numbers with a point or an exponent -/

/-- The nearest double-precision number to `m * 10 ^ e`. Powers that are out of every range are not
computed. -/
def scaled (m : Nat) (e : Int) : Float :=
  let power := e + Int.ofNat m.repr.length
  if m = 0 || power < -400 then 0
  else if 400 < power then 1 / 0
  else Float.ofScientific m (e < 0) e.natAbs

/-- Reads the digits after a point. -/
def fraction? : Scan (List Char)
  | '.' :: rest => digits? Char.isDigit rest
  | _ => none

/-- Reads an exponent. -/
def exponent? : Scan Int
  | c :: rest =>
    if c = 'e' || c = 'E' then do
      let (negative, rest) := sign rest
      let (ds, rest) ← digits? Char.isDigit rest
      let e := Int.ofNat (valueIn 10 ds)
      return (if negative then -e else e, rest)
    else none
  | [] => none

/-- Reads a number with a point or an exponent. A number that is too large is refused. -/
def decimal? (cs : List Char) : Option (Toml × List Char) := do
  let (negative, cs) := sign cs
  let (whole, rest) ← wholeDigits? cs
  let (places, rest) := ((fraction? rest).map fun (ds, rest) => (some ds, rest)).getD (none, rest)
  let (power, rest) := ((exponent? rest).map fun (e, rest) => (some e, rest)).getD (none, rest)
  if places.isNone && power.isNone then none
  let ds := places.getD []
  let size := scaled (valueIn 10 (whole ++ ds)) (power.getD 0 - Int.ofNat ds.length)
  if size.isInf && !negative then none else some (float (if negative then -size else size), rest)

/-- Reads infinity or the value that is no number. -/
def special? (cs : List Char) : Option (Toml × List Char) :=
  let (negative, cs) := sign cs
  let signed (v : Float) := float (if negative then -v else v)
  match cs with
  | 'i' :: 'n' :: 'f' :: rest => some (signed (1 / 0), rest)
  | 'n' :: 'a' :: 'n' :: rest => some (signed (Float.ofBits 0x7ff8000000000000), rest)
  | _ => none

/-! ### Dates and times -/

/-- Reads a number of exactly `count` digits between two bounds. -/
def field? (count least greatest : Nat) (cs : List Char) : Option (Nat × List Char) :=
  let ds := cs.take count
  let n := valueIn 10 ds
  if ds.length = count && ds.all Char.isDigit && least ≤ n && n ≤ greatest then
    some (n, cs.drop count)
  else none

/-- Drops a character. -/
def drop? (c : Char) : List Char → Option (List Char)
  | d :: rest => if c = d then some rest else none
  | [] => none

/-- The days of a month. -/
def daysIn (year month : Nat) : Nat :=
  if month = 2 then
    if year % 4 = 0 && (year % 100 ≠ 0 || year % 400 = 0) then 29 else 28
  else if [4, 6, 9, 11].contains month then 30
  else 31

/-- Drops a date. -/
def date? (cs : List Char) : Option (List Char) := do
  let (year, cs) ← field? 4 0 9999 cs
  let (month, cs) ← field? 2 1 12 (← drop? '-' cs)
  let (_, cs) ← field? 2 1 (daysIn year month) (← drop? '-' cs)
  return cs

/-- Drops a time. -/
def time? (cs : List Char) : Option (List Char) := do
  let (_, cs) ← field? 2 0 23 cs
  let (_, cs) ← field? 2 0 59 (← drop? ':' cs)
  let (_, cs) ← field? 2 0 60 (← drop? ':' cs)
  match cs with
  | '.' :: d :: rest => if d.isDigit then some (rest.dropWhile Char.isDigit) else some cs
  | _ => some cs

/-- Drops the distance to universal time. -/
def offset? : List Char → Option (List Char)
  | c :: rest =>
    if c = 'Z' || c = 'z' then some rest
    else if c = '+' || c = '-' then do
      let (_, rest) ← field? 2 0 23 rest
      let (_, rest) ← field? 2 0 59 (← drop? ':' rest)
      return rest
    else none
  | [] => none

/-- Drops a time after a date. -/
def timeOfDate? : List Char → Option (List Char)
  | c :: rest =>
    if c = 'T' || c = 't' || c = ' ' then do
      let rest ← time? rest
      return (offset? rest).getD rest
    else none
  | [] => none

/-- Reads a date, a time or both. -/
def moment? (cs : List Char) : Option (Toml × List Char) := do
  let rest ← (do let rest ← date? cs; return (timeOfDate? rest).getD rest) <|> time? cs
  return (moment (String.ofList (cs.take (cs.length - rest.length))), rest)

/-- Reads a number, a date or a time. -/
def number? (cs : List Char) : Option (Toml × List Char) :=
  moment? cs <|> decimal? cs <|> special? cs <|> integer? cs

end Toml

end NetPack
