import NetPack.Document
import NetPack.Toml.Reader

/-!
# Values in TOML documents
-/

namespace NetPack

namespace Toml

/-- The value of an integer that is not negative. -/
def nat? : Toml → Option Nat
  | integer i => if 0 ≤ i then some i.toNat else none
  | _ => none

/-- The value of a number in single precision. -/
def single? : Toml → Option Binary32
  | integer i => some (.ofInt i)
  | float v => some (.ofFloat v)
  | _ => none

/-- The text of a string. -/
def text? : Toml → Option String
  | string s => some s
  | _ => none

/-- The value of a truth value. -/
def bool? : Toml → Option Bool
  | boolean b => some b
  | _ => none

/-- A table or an array that holds nothing. -/
def isEmpty : Toml → Bool
  | table [] => true
  | array [] => true
  | _ => false

/-- The elements of an array. -/
def items? : Toml → Option (List Toml)
  | array es => some es
  | _ => none

/-- A date or a time, seen as a record, holds what was written under this name. -/
def momentField : String := "moment"

/-- The members of a table. -/
def members? : Toml → Option (List (String × Toml))
  | table ms => some ms
  | moment written => some [(momentField, string written)]
  | _ => none

instance : Document Toml where
  nat? := nat?
  single? := single?
  string? := text?
  bool? := bool?
  isNull _ := false
  isEmpty := isEmpty
  elements? := items?
  members? := members?
  allowsSurplus _ := true
  kept? := some

/-- Reads a value from the text of a document. -/
def decode {α : Type} (d : Decoder Toml α) (text : String) : Except DecodeError α :=
  match parse? text with
  | some document => d document
  | none => .error .malformed

end Toml

end NetPack
