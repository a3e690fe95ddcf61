import NetPack.Binary32
import NetPack.Bytes

/-!
# Messages on the wire

A message is a sequence of numbered fields. A field starts with a key, which holds its number and
how its contents are laid out: a variable-length number, four or eight bytes, or a length and that
many bytes. A variable-length number has seven bits per byte, lowest first, and every byte but the
last has its high bit set. A group is a sequence of fields between two keys; nothing reads groups,
but they have to be skipped.
-/

namespace NetPack

namespace Wire

/-- The contents of a field. -/
inductive Value where
  /-- A variable-length number, below `2 ^ 64`. -/
  | varint (n : Nat)
  /-- Eight bytes as a number. -/
  | fixed64 (n : Nat)
  /-- A length and that many bytes. -/
  | bytes (b : Bytes)
  /-- A group, whose fields are not kept. -/
  | group
  /-- Four bytes as a number. -/
  | fixed32 (n : Nat)
deriving DecidableEq

/-- The number and the contents of a field. -/
abbrev Field := Nat × Value

/-! ### Writing -/

/-- A number as a variable-length one. -/
def encodeVarint (n : Nat) : Bytes :=
  if n < 128 then [UInt8.ofNat n] else UInt8.ofNat (n % 128 + 128) :: encodeVarint (n / 128)
termination_by n
decreasing_by omega

/-- The key of a field. -/
def key (number layout : Nat) : Bytes := encodeVarint (8 * number + layout)

/-- A field with a variable-length number. -/
def varintField (number n : Nat) : Bytes := key number 0 ++ encodeVarint n

/-- A field with bytes. -/
def bytesField (number : Nat) (b : Bytes) : Bytes := key number 2 ++ encodeVarint b.length ++ b

/-- A field with the bytes of a single-precision number. -/
def singleField (number : Nat) (x : Binary32) : Bytes := key number 5 ++ x.toBytes

/-- A field that is left out where its value is the default one. -/
def omitIf (isDefault : Bool) (field : Bytes) : Bytes := if isDefault then [] else field

/-- The two's complement of an integer as a number below `2 ^ 64`. -/
def unsigned (i : Int) : Nat := (i % Int.ofNat Word.modulus).toNat

/-- The integer whose two's complement is a number below `2 ^ 64`. -/
def signed (n : Nat) : Int := Int.bmod n Word.modulus

/-! ### Reading -/

/-- Reads a variable-length number of at most `budget` bytes. The tenth byte holds one bit. -/
def decodeVarint : (budget : Nat) → Bytes → Option (Nat × Bytes)
  | 0, _ => none
  | _, [] => none
  | budget + 1, b :: rest =>
    if b.toNat < 128 then if budget = 0 && 2 ≤ b.toNat then none else some (b.toNat, rest)
    else do
      let (n, rest) ← decodeVarint budget rest
      return (b.toNat - 128 + 128 * n, rest)

/-- Reads a variable-length number. -/
def varint? (b : Bytes) : Option (Nat × Bytes) := decodeVarint 10 b

/-- Splits off the given number of bytes. -/
def split? (count : Nat) (b : Bytes) : Option (Bytes × Bytes) :=
  let front := b.take count
  if front.length < count then none else some (front, b.drop count)

/-- Reads contents of the given layout. Groups are not contents. -/
def value? (layout : Nat) (b : Bytes) : Option (Value × Bytes) :=
  match layout with
  | 0 => do
    let (n, rest) ← varint? b
    return (.varint n, rest)
  | 1 => do
    let (eight, rest) ← split? 8 b
    return (.fixed64 (Bytes.toNat eight), rest)
  | 2 => do
    let (length, rest) ← varint? b
    let (contents, rest) ← split? length rest
    return (.bytes contents, rest)
  | 5 => do
    let (four, rest) ← split? 4 b
    return (.fixed32 (Bytes.toNat four), rest)
  | _ => none

/-- Reads a key: the number and the layout of a field. -/
def key? (b : Bytes) : Option (Nat × Nat × Bytes) := do
  let (k, rest) ← varint? b
  if k < 4294967296 && 0 < k / 8 then some (k / 8, k % 8, rest) else none

/-- Reads at most `fuel` keys. `opened` holds the numbers of the groups that are still open, the
innermost one first; at most `depth` can be open. -/
def fieldsFrom (depth : Nat) : (fuel : Nat) → (opened : List Nat) → Bytes → Option (List Field)
  | 0, opened, b => if b.isEmpty && opened.isEmpty then some [] else none
  | fuel + 1, opened, b =>
    if b.isEmpty then if opened.isEmpty then some [] else none
    else do
      let (number, layout, rest) ← key? b
      if layout = 3 then
        if depth ≤ opened.length then none
        let fields ← fieldsFrom depth fuel (number :: opened) rest
        return if opened.isEmpty then (number, .group) :: fields else fields
      else if layout = 4 then
        match opened with
        | [] => none
        | innermost :: outer =>
          if innermost = number then fieldsFrom depth fuel outer rest else none
      else
        if !opened.isEmpty && depth ≤ opened.length then none
        let (v, rest) ← value? layout rest
        let fields ← fieldsFrom depth fuel opened rest
        return if opened.isEmpty then (number, v) :: fields else fields

/-- The fields of a message. A message has no more keys than bytes. -/
def fields? (depth : Nat) (b : Bytes) : Option (List Field) := fieldsFrom depth b.length [] b

/-- Reads numbers that fill the bytes. -/
def varintsFrom : (fuel : Nat) → Bytes → Option (List Nat)
  | 0, b => if b.isEmpty then some [] else none
  | fuel + 1, b =>
    if b.isEmpty then some []
    else do
      let (n, rest) ← varint? b
      return n :: (← varintsFrom fuel rest)

/-- The variable-length numbers that fill the bytes. -/
def varints? (b : Bytes) : Option (List Nat) := varintsFrom b.length b

end Wire

end NetPack
