import NetPack.Bytes

/-!
# Encodings in addresses

A character that has no place in a part of an address is written as the bytes of its UTF-8 form,
each as a percent sign and two digits. Which characters these are differs from part to part; a
character outside ASCII always is one.
-/

namespace NetPack

namespace Url

/-- Characters that have no place in any part. -/
def isControl (c : Char) : Bool := c.toNat < 0x20 || 0x7e < c.toNat

/-- Characters that have no place in a fragment. -/
def notInFragment (c : Char) : Bool := isControl c || " \"<>`".contains c

/-- Characters that have no place in a path. -/
def notInPath (c : Char) : Bool := notInFragment c || "#?\x7b\x7d".contains c

/-- Characters that have no place in a name or a password. -/
def notInUserinfo (c : Char) : Bool := notInPath c || "/:;=@[\\]^|".contains c

/-- Characters that have no place in a query. A quote has none where the scheme is special. -/
def notInQuery (special : Bool) (c : Char) : Bool :=
  isControl c || " \"#<>".contains c || (special && c = '\'')

/-- A hexadecimal digit. -/
def hexDigit (n : Nat) : Char := ((Nat.toDigits 16 n).headD '0').toUpper

/-- A byte as a percent sign and two digits. -/
def percentByte (b : UInt8) : List Char := ['%', hexDigit (b.toNat / 16), hexDigit (b.toNat % 16)]

/-- Encodes the characters that have no place. -/
def encode (misplaced : Char → Bool) (cs : List Char) : String :=
  String.ofList (cs.flatMap fun c =>
    if misplaced c then (Bytes.ofString c.toString).flatMap percentByte else [c])

/-- The value of a hexadecimal digit. -/
def hexValue? (c : Char) : Option Nat :=
  if c.isDigit then some (c.toNat - '0'.toNat)
  else if 'a' ≤ c.toLower && c.toLower ≤ 'f' then some (c.toLower.toNat - 'a'.toNat + 10)
  else none

/-- The bytes of a text in which percent signs with two digits stand for bytes. -/
def decodeBytes : List Char → Bytes
  | '%' :: a :: b :: rest =>
    match hexValue? a, hexValue? b with
    | some h, some l => UInt8.ofNat (16 * h + l) :: decodeBytes rest
    | _, _ => 0x25 :: decodeBytes (a :: b :: rest)
  | c :: rest => Bytes.ofString c.toString ++ decodeBytes rest
  | [] => []

end Url

end NetPack
