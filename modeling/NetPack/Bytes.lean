import NetPack.Word

/-!
# Byte sequences

Files are lists of bytes. This module holds the conversions between bytes and words, texts and
hexadecimal digits.
-/

namespace NetPack

/-- The contents of a file. -/
abbrev Bytes := List UInt8

namespace Bytes

/-- The `count` low bytes of a number, lowest first. -/
def ofNat : (count : Nat) → Nat → Bytes
  | 0, _ => []
  | count + 1, n => UInt8.ofNat n :: ofNat count (n / 256)

/-- The number that bytes stand for, lowest first. -/
def toNat : Bytes → Nat
  | [] => 0
  | b :: rest => b.toNat + 256 * toNat rest

/-- The bytes of a text. -/
def ofString (s : String) : Bytes := s.toUTF8.data.toList

/-- The text of bytes, if they are one. -/
def toString? (b : Bytes) : Option String := String.fromUTF8? ⟨b.toArray⟩

/-- The number of bytes of the character that starts with the given byte, and the range of its
second byte; `none` if no character starts so. -/
def leadByte (b : UInt8) : Option (Nat × UInt8 × UInt8) :=
  if b < 0x80 then some (1, 0x80, 0xbf)
  else if 0xc2 ≤ b && b ≤ 0xdf then some (2, 0x80, 0xbf)
  else if b = 0xe0 then some (3, 0xa0, 0xbf)
  else if b = 0xed then some (3, 0x80, 0x9f)
  else if 0xe1 ≤ b && b ≤ 0xef then some (3, 0x80, 0xbf)
  else if b = 0xf0 then some (4, 0x90, 0xbf)
  else if 0xf1 ≤ b && b ≤ 0xf3 then some (4, 0x80, 0xbf)
  else if b = 0xf4 then some (4, 0x80, 0x8f)
  else none

/-- How many of the first bytes belong to one character, and whether they are all of it. -/
def firstCharacter (b : Bytes) : Nat × Bool :=
  match b with
  | [] => (0, false)
  | lead :: rest =>
    match leadByte lead with
    | none => (1, false)
    | some (size, low, high) =>
      let second := (rest.take (min 1 (size - 1))).takeWhile fun x => low ≤ x && x ≤ high
      let others :=
        if second.isEmpty then []
        else ((rest.drop 1).take (size - 2)).takeWhile fun x => 0x80 ≤ x && x ≤ 0xbf
      let count := 1 + second.length + others.length
      (count, count == size)

/-- The text of at most `fuel` characters; bytes that belong to no character become a
replacement character, one for each broken character. -/
def toLossyFrom : (fuel : Nat) → Bytes → String
  | 0, _ => ""
  | fuel + 1, b =>
    if b.isEmpty then ""
    else
      let (count, complete) := firstCharacter b
      let c := if complete then (toString? (b.take count)).getD "" else "\ufffd"
      c ++ toLossyFrom fuel (b.drop count)

/-- The text of bytes, with replacement characters where they are none. -/
def toLossyString (b : Bytes) : String := toLossyFrom b.length b

/-! ### Hexadecimal digits -/

/-- A digit in base sixteen. -/
def hexDigit (n : Nat) : Char := (Nat.toDigits 16 n).headD '0'

/-- The two digits of each byte. -/
def toHex (b : Bytes) : String :=
  String.ofList (b.flatMap fun x => [hexDigit (x.toNat / 16), hexDigit (x.toNat % 16)])

/-- The value of a digit in base sixteen; a character that is none counts as zero. -/
def hexValue (c : Char) : Nat :=
  if c.isDigit then c.toNat - '0'.toNat
  else if 'a' ≤ c.toLower && c.toLower ≤ 'f' then c.toLower.toNat - 'a'.toNat + 10
  else 0

/-- The bytes of pairs of digits. A digit left over at the end is dropped. -/
def ofHexDigits : List Char → Bytes
  | a :: b :: rest => UInt8.ofNat (16 * hexValue a + hexValue b) :: ofHexDigits rest
  | _ => []

/-- The bytes of a text of pairs of digits. -/
def ofHex (s : String) : Bytes := ofHexDigits s.toList

theorem length_ofNat (count n : Nat) : (ofNat count n).length = count := by
  induction count generalizing n with
  | zero => rfl
  | succ k ih => simp [ofNat, ih]

theorem toNat_ofNat {count n : Nat} (h : n < Nat.pow 256 count) : toNat (ofNat count n) = n := by
  induction count generalizing n with
  | zero => exact (Nat.lt_one_iff.1 h).symm
  | succ k ih =>
    have h : n < Nat.pow 256 k * 256 := h
    rw [ofNat, toNat, ih (Nat.div_lt_of_lt_mul (Nat.mul_comm _ _ ▸ h)), UInt8.toNat_ofNat']
    omega

end Bytes

end NetPack
