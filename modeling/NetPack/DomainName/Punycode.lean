/-!
# Punycode

Punycode writes a name with characters outside ASCII in ASCII. The ASCII characters come first. Then
the others follow in increasing order, each as the number of places that were passed over since the
last one, where the whole name is passed over once for each character in between. The numbers have
digits in base thirty-six. A number ends at a small digit, and how small is learned from the numbers
so far.
-/

namespace NetPack

namespace DomainName

namespace Punycode

/-! ### Digits -/

/-- The digit of a number below thirty-six: letters first. -/
def baseDigit (n : Nat) : Char :=
  Char.ofNat (if n < 26 then 'a'.toNat + n else '0'.toNat + (n - 26))

/-- The number that a digit stands for. -/
def baseValue? (c : Char) : Option Nat :=
  if c.isDigit then some (c.toNat - '0'.toNat + 26)
  else if c.isAlpha then some (c.toLower.toNat - 'a'.toNat)
  else none

/-- The least digit at a position after which a number goes on. -/
def threshold (position bias : Nat) : Nat := Nat.max 1 (Nat.min 26 (position - bias))

theorem one_le_threshold (position bias : Nat) : 1 ≤ threshold position bias :=
  Nat.le_max_left ..

/-! ### Bias -/

/-- Makes a number small, and counts thirty-six for each time it is divided. -/
def settle (delta steps : Nat) : Nat × Nat :=
  if 455 < delta then settle (delta / 35) (steps + 36) else (delta, steps)
termination_by delta
decreasing_by omega

/-- The bias after a number. -/
def nextBias (delta count : Nat) (isFirst : Bool) : Nat :=
  let delta := if isFirst then delta / 700 else delta / 2
  let (delta, steps) := settle (delta + delta / count) 0
  steps + 36 * delta / (delta + 38)

/-! ### Writing -/

/-- The digits of a number from a position on, lowest first. -/
def digitsFrom (bias position n : Nat) : List Char :=
  let t := threshold position bias
  if n < t then [baseDigit n]
  else baseDigit (t + (n - t) % (36 - t)) ::
    digitsFrom bias (position + 36) ((n - t) / (36 - t))
termination_by n
decreasing_by
  have := one_le_threshold position bias
  exact Nat.lt_of_le_of_lt (Nat.div_le_self ..) (by omega)

/-- What is known while a name is written. -/
structure Written where
  /-- How many places were passed over since the last character. -/
  delta : Nat
  /-- How many characters are written. -/
  count : Nat
  bias : Nat
  digits : List Char

/-- Writes the places of one character. -/
def writeCharacter (name : List Char) (plain code : Nat) (w : Written) : Written :=
  name.foldl (fun w c =>
    if c.toNat < code then { w with delta := w.delta + 1 }
    else if c.toNat = code then
      { delta := 0
        count := w.count + 1
        bias := nextBias w.delta (w.count + 1) (w.count == plain)
        digits := w.digits ++ digitsFrom w.bias 36 w.delta }
    else w) w

/-- Writes the characters with the given codes, which increase. -/
def writeCharacters (name : List Char) (plain : Nat) : (next : Nat) → List Nat → Written → Written
  | _, [], w => w
  | next, code :: codes, w =>
    let w := { w with delta := w.delta + (code - next) * (w.count + 1) }
    let w := writeCharacter name plain code w
    writeCharacters name plain (code + 1) codes { w with delta := w.delta + 1 }

/-- The Punycode of a name. -/
def encode (name : List Char) : List Char :=
  let plain := name.filter (·.toNat < 128)
  let codes := (name.filter (128 ≤ ·.toNat)).map (·.toNat)
  let sorted := codes.eraseDups.mergeSort (· ≤ ·)
  let w := writeCharacters name plain.length 128 sorted ⟨0, plain.length, 72, []⟩
  (if plain.isEmpty then [] else plain ++ ['-']) ++ w.digits

/-! ### Reading -/

/-- Numbers in Punycode, and the weights of their digits, stay below this. -/
def limit : Nat := 4294967296

/-- Reads a number from a position on, where a digit has the given weight, and adds it. The result
also holds the digits after the number. -/
def addNumber? (bias position weight sum : Nat) : List Char → Option (Nat × List Char)
  | [] => none
  | c :: rest =>
    match baseValue? c with
    | none => none
    | some d =>
      let t := threshold position bias
      if limit ≤ sum + d * weight then none
      else if d < t then some (sum + d * weight, rest)
      else if limit ≤ weight * (36 - t) then none
      else addNumber? bias (position + 36) (weight * (36 - t)) (sum + d * weight) rest

theorem length_lt_of_addNumber? {bias position weight sum n : Nat} {digits rest : List Char}
    (h : addNumber? bias position weight sum digits = some (n, rest)) :
    rest.length < digits.length := by
  induction digits generalizing position weight sum with
  | nil => simp [addNumber?] at h
  | cons c digits ih =>
    simp only [addNumber?] at h
    split at h
    · simp at h
    · split at h
      · simp at h
      · split at h
        · obtain ⟨rfl, rfl⟩ := by simpa using h
          simp
        · split at h
          · simp at h
          · have := ih h
            simp only [List.length_cons]
            omega

/-- Puts characters into a name. The next number counts from the character `code` at `place` of the
name: first over the places of the name, and then over the characters that follow. -/
def insertCharacters? (bias code place : Nat) (name digits : List Char) : Option (List Char) :=
  if digits.isEmpty then some name
  else
    match _shorter : addNumber? bias 36 1 place digits with
    | none => none
    | some (n, rest) =>
      let count := name.length + 1
      let next := code + n / count
      if next.isValidChar then
        insertCharacters? (nextBias (n - place) count (place == 0)) next (n % count + 1)
          (name.insertIdx (n % count) (Char.ofNat next)) rest
      else none
termination_by digits.length
decreasing_by exact length_lt_of_addNumber? _shorter

/-- The name with this Punycode. A minus sign stands only between ASCII characters and digits. -/
def decode? (coded : List Char) : Option (List Char) :=
  let digits := (coded.reverse.takeWhile (· ≠ '-')).reverse
  match coded.reverse.dropWhile (· ≠ '-') with
  | [] => insertCharacters? 72 128 0 [] digits
  | _ :: plain => if plain.isEmpty then none else insertCharacters? 72 128 0 plain.reverse digits

end Punycode

end DomainName

end NetPack
