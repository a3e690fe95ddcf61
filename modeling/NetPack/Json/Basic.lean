import NetPack.Decimal.Notation

/-!
# JSON documents

A document is a tree of `Json` values. Numbers are kept as they are written, since what a number
means depends on the field that reads it; the members of an object are kept in order and with
repetitions, since a repeated member is an error for one reader and harmless for another. Parts that
nothing can be read from stay in the tree as `Json.unreadable`, since a reader that passes over them
does not mind.
-/

namespace NetPack

/-- A JSON document. -/
inductive Json where
  | null
  | bool (b : Bool)
  /-- A number in its written form. -/
  | number (literal : String)
  | string (s : String)
  /-- A string that escapes half of a surrogate pair and so stands for no text, an object with such
  a name, or a collection that lies too deep. -/
  | unreadable
  | array (elements : List Json)
  /-- The members in their order. -/
  | object (members : List (String × Json))
deriving Inhabited

namespace Json

/-- A natural number. -/
def nat (n : Nat) : Json := .number n.repr

/-- The notation of single-precision numbers in documents: positional from a millionth up to
thirteen digits, and a sign before every exponent. -/
def singleNotation : Decimal.Notation where
  plainFrom := some (-6)
  plainTo := some 12
  positiveMark := "+"
  tie := .toEven
  nan := "null"
  infinity := "null"

/-- A single-precision number; infinities and NaN have no written form and become `null`. -/
def single (x : Binary32) : Json :=
  if x.isFinite then .number (singleNotation.single x) else .null

/-- An array of texts. -/
def strings (xs : List String) : Json := .array (xs.map .string)

/-- An array of natural numbers. -/
def nats (ns : List Nat) : Json := .array (ns.map .nat)

/-- Is the value `null`? -/
def isNull : Json → Bool
  | .null => true
  | _ => false

end Json

end NetPack
