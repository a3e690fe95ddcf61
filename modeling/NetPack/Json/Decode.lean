import NetPack.Document
import NetPack.Json.Number
import NetPack.Json.Reader

/-!
# JSON as a document format
-/

namespace NetPack

namespace Json

mutual

/-- The form of a value that is kept: all its parts can be read, its numbers are numbers in double
precision, and an object that holds nothing is `null`. -/
def kept? : Json → Option Json
  | .number literal => (floatOfLiteral? literal).map fun _ => .number literal
  | .unreadable => none
  | .array elements => (keptAll? elements).map .array
  | .object [] => some .null
  | .object members => (keptMembers? members).map .object
  | j => some j

/-- The forms of several values. -/
def keptAll? : List Json → Option (List Json)
  | [] => some []
  | j :: rest => do return (← kept? j) :: (← keptAll? rest)

/-- The forms of the members of an object. -/
def keptMembers? : List (String × Json) → Option (List (String × Json))
  | [] => some []
  | (name, j) :: rest => do return (name, ← kept? j) :: (← keptMembers? rest)

end

instance : Document Json where
  nat?
    | .number literal => wordOfLiteral? literal
    | _ => none
  single?
    | .number literal => singleOfLiteral? literal
    | _ => none
  string?
    | .string s => some s
    | _ => none
  bool?
    | .bool b => some b
    | _ => none
  isNull := isNull
  isEmpty := isNull
  elements?
    | .array elements => some elements
    | _ => none
  members?
    | .object members => some members
    | _ => none
  allowsSurplus _ := false
  kept? := kept?

/-- Reads a value from the text of a document. -/
def decode {α : Type} (value : Decoder Json α) (text : String) : Except DecodeError α :=
  match parse? text with
  | some j => value j
  | none => .error .malformed

/-- The object of the members that have a value. -/
def members (fields : List (String × Option Json)) : Json :=
  .object (fields.filterMap fun (name, value) => value.map (name, ·))

end Json

end NetPack
