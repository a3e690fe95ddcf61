/-!
# TOML documents

A TOML document is a tree of `Toml` values whose root is a table. A table keeps its members in the
order of the text; the rules of the format see to it that no name occurs twice.
-/

namespace NetPack

/-- A TOML value. -/
inductive Toml where
  | string (s : String)
  | integer (i : Int)
  | float (v : Float)
  | boolean (b : Bool)
  /-- A date, a time or both, as written. -/
  | moment (written : String)
  | array (elements : List Toml)
  /-- The members in their order. -/
  | table (members : List (String × Toml))
deriving Inhabited

namespace Toml

/-- Is the value a table? -/
def isTable : Toml → Bool
  | table _ => true
  | _ => false

/-- The largest integer. -/
def maxInteger : Nat := 9223372036854775807

/-- The smallest integer. -/
def minInteger : Int := -9223372036854775808

end Toml

end NetPack
