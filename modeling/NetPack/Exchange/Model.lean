import NetPack.Binary32
import NetPack.Bytes

/-!
# Exchange models

The part of an exchange file that a conversion writes and reads: a graph of named operators with
attributes, the constant tensors (initializers) and the declared inputs and outputs.
-/

namespace NetPack

namespace Exchange

/-- An attribute of an operator. Only the field that goes with its type is used. -/
structure Attribute where
  name : String
  single : Binary32
  int : Int
  text : Bytes
  ints : List Int
  /-- The number of the type: 1 for a number, 2 for an integer, 7 for integers. -/
  type : Int
deriving DecidableEq

/-- An attribute of which only the name is known. -/
def Attribute.named (name : String) : Attribute := ⟨name, ⟨0⟩, 0, [], [], 0⟩

/-- An operator. -/
structure Operator where
  inputs : List String
  outputs : List String
  name : String
  type : String
  attributes : List Attribute
deriving DecidableEq

/-- A constant tensor, whose elements are given as bytes or as numbers. -/
structure Initializer where
  dims : List Int
  dataType : Int
  singles : List Binary32
  name : String
  raw : Bytes
deriving DecidableEq

/-- A declared extent. -/
inductive Dimension where
  | unset
  | value (n : Int)
  | param (name : String)
deriving DecidableEq

/-- A declared type. -/
inductive ValueType where
  | unset
  /-- A tensor with its element type and, if it is declared, its shape. -/
  | tensor (elementType : Int) (shape : Option (List Dimension))
deriving DecidableEq

/-- A declared input or output. -/
structure Value where
  name : String
  type : ValueType
deriving DecidableEq

/-- A set of operators and its version. -/
structure OperatorSet where
  domain : String
  version : Int
deriving DecidableEq

/-- A graph of operators. -/
structure Graph where
  operators : List Operator
  name : String
  initializers : List Initializer
  inputs : List Value
  outputs : List Value
deriving DecidableEq

/-- A whole exchange file. -/
structure Model where
  irVersion : Int
  producerName : String
  producerVersion : String
  operatorSets : List OperatorSet
  graph : Option Graph
deriving DecidableEq

end Exchange

end NetPack
