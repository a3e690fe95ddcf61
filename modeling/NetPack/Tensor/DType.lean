import NetPack.Text.Lowercase

/-!
# Element types

The element types that a shape descriptor can name. Kernels compute on single-precision numbers
alone; the other types only decide how many bytes a buffer takes.
-/

namespace NetPack

/-- An element type. -/
inductive DType where
  | f32
  | f16
  | bf16
  | i8
  | u8
deriving DecidableEq, Inhabited

namespace DType

/-- Bytes per element. -/
def bytes : DType → Nat
  | f32 => 4
  | f16 => 2
  | bf16 => 2
  | i8 => 1
  | u8 => 1

/-- The name used in every text. -/
def name : DType → String
  | f32 => "f32"
  | f16 => "f16"
  | bf16 => "bf16"
  | i8 => "i8"
  | u8 => "u8"

/-- All element types. -/
def all : List DType := [f32, f16, bf16, i8, u8]

/-- The element type of a name. -/
def ofName? (s : String) : Option DType := all.find? fun t => t.name == s

/-- The other names under which an element type is known, in small letters. -/
def aliases : DType → List String
  | f32 => ["float32", "float"]
  | f16 => ["float16", "half"]
  | bf16 => ["bfloat16"]
  | i8 => ["int8"]
  | u8 => ["uint8"]

/-- Reads a name or an alias in any mixture of small and capital letters. -/
def ofLooseName? (s : String) : Option DType :=
  let lower := Text.lowercase s
  all.find? fun t => t.name == lower || t.aliases.contains lower

end DType

end NetPack
