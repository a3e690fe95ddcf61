import NetPack.DomainName.Label
import NetPack.Url.Encoding

/-!
# Hosts in addresses

A host is a name, four numbers in decimal, octal or hexadecimal form, or a longer numeric address in
brackets. `Host.normal?` gives the normal form of a host and refuses texts that are none.
-/

namespace NetPack

namespace Url

namespace Host

/-! ### Four numbers -/

/-- Reads a number whose base is given by its start; an empty text is none. -/
def number? (s : String) : Option Nat :=
  let digitsIn (base : Nat) (cs : List Char) : Option Nat :=
    cs.foldlM (fun n c => do
      let d ← hexValue? c
      if d < base then some (base * n + d) else none) 0
  match s.toList with
  | [] => none
  | '0' :: 'x' :: ds => digitsIn 16 ds
  | '0' :: 'X' :: ds => digitsIn 16 ds
  | '0' :: d :: ds => digitsIn 8 (d :: ds)
  | ds => digitsIn 10 ds

/-- The parts of a name without an empty one at its end. -/
def labels (name : String) : List String :=
  match (name.splitOn ".").reverse with
  | "" :: rest => rest.reverse
  | all => all.reverse

/-- Does a name end in a number? -/
def endsInNumber (name : String) : Bool :=
  match (labels name).getLast? with
  | some last => (!last.isEmpty && last.toList.all Char.isDigit) || (number? last).isSome
  | none => false

/-- The number that several numbers stand for: all but the last are bytes, and the last one fills
what is left of four bytes. -/
def joinNumbers (numbers : List Nat) : Option Nat := do
  let last ← numbers.getLast?
  let bytes := numbers.dropLast
  if 3 < bytes.length || bytes.any (255 < ·) || Nat.pow 256 (4 - bytes.length) ≤ last then none
  else
    let high := bytes.zipIdx.foldl (fun n (b, i) => n + b * Nat.pow 256 (3 - i)) 0
    some (high + last)

/-- The normal form of four numbers. -/
def dotted (n : Nat) : String :=
  ".".intercalate ([16777216, 65536, 256, 1].map fun place => (n / place % 256).repr)

/-- The normal form of a name that ends in a number. -/
def numeric? (name : String) : Option String := do
  dotted (← joinNumbers (← (labels name).mapM number?))

/-! ### Addresses in brackets -/

/-- Reads a part of at most four hexadecimal digits. -/
def piece? (s : String) : Option Nat :=
  if s.isEmpty || 4 < s.length then none
  else s.toList.foldlM (fun n c => (hexValue? c).map (16 * n + ·)) 0

/-- Reads a byte in decimal form, without superfluous zeros. -/
def byte? (s : String) : Option Nat :=
  let cs := s.toList
  if cs.isEmpty || 3 < cs.length || !cs.all Char.isDigit || (1 < cs.length && cs.head? = some '0')
  then none
  else
    let n := cs.foldl (fun n c => 10 * n + (c.toNat - '0'.toNat)) 0
    if n < 256 then some n else none

/-- Reads the last part of an address, which may be four bytes that count as two pieces. -/
def lastPieces? (s : String) : Option (List Nat) :=
  match s.splitOn "." with
  | [_] => (piece? s).map ([·])
  | bytes => do
    let [a, b, c, d] ← bytes.mapM byte? | none
    return [256 * a + b, 256 * c + d]

/-- Reads pieces between colons; nothing at all are no pieces. -/
def pieces? (final : Bool) (s : String) : Option (List Nat) :=
  if s.isEmpty then some []
  else
    let parts := s.splitOn ":"
    do
      let first ← parts.dropLast.mapM piece?
      let last := parts.getLast?.getD ""
      return first ++ (← if final then lastPieces? last else (piece? last).map ([·]))

/-- Reads the eight pieces of an address. Two colons stand for pieces that are zero. -/
def address? (s : String) : Option (List Nat) :=
  match s.splitOn "::" with
  | [_] => do
    let ps ← pieces? true s
    if ps.length = 8 then some ps else none
  | [before, after] => do
    let first ← pieces? false before
    let last ← pieces? true after
    if 7 < first.length + last.length then none
    else some (first ++ List.replicate (8 - first.length - last.length) 0 ++ last)
  | _ => none

/-- The first of the longest runs of zeros: where it starts and how long it is. -/
def longestRun (ps : List Nat) : Nat × Nat :=
  (List.range ps.length).foldl (fun best i =>
    let length := ((ps.drop i).takeWhile (· = 0)).length
    if best.2 < length then (i, length) else best) (0, 0)

/-- Pieces between colons. -/
def pieceText (ps : List Nat) : String :=
  ":".intercalate (ps.map fun p => String.ofList (Nat.toDigits 16 p))

/-- The normal form of an address: of runs of more than one zero the first of the longest ones is
left out. -/
def addressText (ps : List Nat) : String :=
  let (start, length) := longestRun ps
  if length < 2 then pieceText ps
  else pieceText (ps.take start) ++ "::" ++ pieceText (ps.drop (start + length))

/-- The normal form of an address in brackets. -/
def bracketed? (cs : List Char) : Option String := do
  let ']' :: inner := cs.reverse | none
  let ps ← address? (String.ofList inner.reverse)
  return "[" ++ addressText ps ++ "]"

/-! ### Names -/

/-- The normal form of a name in a special scheme. -/
def name? (cs : List Char) : Option String := do
  let name ← DomainName.ascii? (← Bytes.toString? (decodeBytes cs))
  if name.isEmpty then none
  else if endsInNumber name then numeric? name
  else some name

/-- The normal form of a host in a special scheme. -/
def special? (cs : List Char) : Option String :=
  match cs with
  | '[' :: rest => bracketed? rest
  | _ => name? cs

/-- The normal form of a host in any other scheme. -/
def other? (cs : List Char) : Option String :=
  match cs with
  | '[' :: rest => bracketed? rest
  | _ => if cs.any fun c => c.toNat = 0 || " \t\n\r#/:<>?@[\\]^|".contains c then none
    else some (encode isControl cs)

end Host

end Url

end NetPack
